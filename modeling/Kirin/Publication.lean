import Kirin.Core.Encodable
import Kirin.Cots.BuilderRules
import Kirin.GtfsRt.BuilderRules
import Kirin.Piv.BuilderRules

/-!
# Kirin: the publication of what the builders accept

The three builders, whatever the connector of a feed is, and the encoding of the
trips that are accepted from them.

* `build_fits`: the trip updates of a feed are those the merge expects, and only
  those of a PIV feed without any disruption have an effect of their own.
* `receive_rowsFit`: a feed that fits leaves rows that can be encoded.
* `accepted_trip_published_iff`: an accepted trip is encoded exactly when its
  feed has a disruption, if it is a PIV one, a start from 1900 on and delays that
  fit; along the feeds that fit, every selection of the stored rows is encoded.
-/

namespace Kirin

open Kirin.Core

/-- The text of a feed, with the answers and the identifiers it will get. -/
inductive Source
  | cots (services : Cots.Services) (newId : String → String)
      (raw : Cots.RawData)
  | piv (services : Piv.Services) (newId : String) (raw : Piv.RawData)
  | gtfsRt (services : GtfsRt.Services) (newId : String → String)
      (raw : GtfsRt.RawData)

namespace Source

def connector : Source → ConnectorType
  | cots _ _ _ => .cots
  | piv _ _ _ => .piv
  | gtfsRt _ _ _ => .gtfsRt

/-- What the builder of the connector makes of a feed. -/
def build (contributorId : String) (rows : List TripUpdate) :
    Source → Except PyException BuiltFeed
  | cots services newId raw =>
      (Cots.buildTripUpdates services contributorId newId rows raw).map
        (fun ts => { error := none, tripUpdates := ts })
  | piv services newId raw =>
      (Piv.buildTripUpdates services contributorId newId raw).map
        (fun ts => { error := none, tripUpdates := ts })
  | gtfsRt services newId raw =>
      GtfsRt.buildTripUpdates services contributorId newId raw

/-- Whether a feed is about a train without any disruption. -/
def withoutDisruption : Source → Bool
  | piv _ _ raw => Piv.withoutDisruption raw
  | _ => false

end Source

/-- A feed received from a contributor. -/
structure ReceivedFeed where
  contributorId : String
  rtu : RealTimeUpdate
  source : Source
  network : Network

namespace ReceivedFeed

def builder (f : ReceivedFeed) : Builder where
  contributorId := f.contributorId
  connector := f.source.connector

/-- The trip updates of a feed, the stored rows being given. -/
def build (f : ReceivedFeed) (rows : List TripUpdate) :
    Except PyException BuiltFeed :=
  f.source.build f.contributorId rows

end ReceivedFeed

/-- The database once a feed is processed. -/
def receive (db : Db) (f : ReceivedFeed) : Db :=
  (wrapBuildFeed f.builder f.network db f.rtu f.build).db

/--
The trips of a feed start from 1900 on, and its delays fit, with what its earlier
events push them by.
-/
def Fits (db : Db) (f : ReceivedFeed) : Prop :=
  ∀ built, f.build db.tripUpdates = .ok built →
    (∀ t ∈ built.tripUpdates, DateFits t.vj.getCirculationDate) ∧
      PlansFit f.builder db.session built.tripUpdates

instance (db : Db) (f : ReceivedFeed) : Decidable (Fits db f) :=
  match h : f.build db.tripUpdates with
  | .error _ => isTrue (by simp [Fits, h])
  | .ok built =>
      decidable_of_iff
        ((∀ t ∈ built.tripUpdates, DateFits t.vj.getCirculationDate) ∧
          PlansFit f.builder db.session built.tripUpdates)
        (by simp [Fits, h])

/-- The starts and the delays of the stored rows fit. -/
def RowsFit (db : Db) : Prop :=
  ∀ row ∈ db.tripUpdates, FieldsFit row

instance (db : Db) : Decidable (RowsFit db) :=
  inferInstanceAs (Decidable (∀ row ∈ db.tripUpdates, _))

section Feed

variable {f : ReceivedFeed} {rows : List TripUpdate} {built : BuiltFeed}
variable {t : NewTripUpdate}

/--
The trip updates of a feed are those the merge expects, and their effects are
those of the database unless the feed has no disruption.
-/
theorem build_fits
    (hbuild : f.build rows = .ok built) (ht : t ∈ built.tripUpdates) :
    FitsBuilder f.builder t ∧
      (EffectInDatabase t.toTripUpdate ↔ f.source.withoutDisruption = false) := by
  obtain ⟨contributorId, rtu, source, network⟩ := f
  cases source with
  | cots services newId raw =>
      obtain ⟨ts, hts, rfl⟩ := Checked.map_eq_ok.1 hbuild
      obtain ⟨v, n, pdps, action, vjs, -, -, -, hmade⟩ :=
        Cots.buildTripUpdates_ok hts
      obtain ⟨found, -, hone⟩ := RelatedLists.exists_of_mem_right hmade ht
      exact ⟨⟨hone.indexed, nofun⟩, iff_of_true hone.effect rfl⟩
  | piv services newId raw =>
      obtain ⟨ts, hts, rfl⟩ := Checked.map_eq_ok.1 hbuild
      obtain ⟨train, found, t', rfl, hmade, hundefined⟩ :=
        Piv.buildTripUpdates_ok hts
      obtain rfl := List.mem_singleton.1 ht
      refine ⟨⟨hmade.indexed, nofun⟩, ?_⟩
      rw [hmade.effect, ne_eq, hundefined, Bool.not_eq_true]
      rfl
  | gtfsRt services newId raw =>
      obtain ⟨hfits, heffect⟩ := GtfsRt.buildTripUpdates_ok hbuild t ht
      exact ⟨hfits, iff_of_true heffect rfl⟩

/-- The row of a trip starts when its trip update does. -/
theorem processTripUpdate_circulationDate
    {b : Builder} {old : Option TripUpdate}
    (hold : ∀ row ∈ old, row.vj.datedKey = t.vj.datedKey) :
    (processTripUpdate b old t).tripUpdate.vj.getCirculationDate =
      t.vj.getCirculationDate := by
  rw [processTripUpdate_vj]
  cases old with
  | none =>
      rfl
  | some row =>
      exact congrArg (fun key => Datetime.date key.2) (hold row rfl)

/-- A trip that is accepted can be encoded when its effect and fields can. -/
theorem accepted_published_iff
    (hbuild : f.build rows = .ok built) (ht : t ∈ built.tripUpdates)
    {old : Option TripUpdate}
    (hold : ∀ row ∈ old, row.vj.datedKey = t.vj.datedKey)
    (hlinked : (processTripUpdate f.builder old t).linked = .ok true) :
    (∃ entities, convertToGtfsrt [(processTripUpdate f.builder old t).tripUpdate]
        = .ok entities) ↔
      f.source.withoutDisruption = false ∧ DateFits t.vj.getCirculationDate ∧
        FeedFits f.builder old t := by
  obtain ⟨hfits, heffect⟩ := build_fits hbuild ht
  have hheader :
      EffectInDatabase (processTripUpdate f.builder old t).tripUpdate ↔
        EffectInDatabase t.toTripUpdate := by
    simp only [EffectInDatabase, processTripUpdate_header.2]
  have hfields : FieldsFit (processTripUpdate f.builder old t).tripUpdate ↔
      DateFits t.vj.getCirculationDate ∧ FeedFits f.builder old t := by
    rw [← accepted_delaysFit_iff hfits hlinked,
      ← processTripUpdate_circulationDate hold]
    exact ⟨fun h => ⟨h.date, h.delays⟩, fun h => ⟨h.1, h.2⟩⟩
  rw [convertToGtfsrt_ok_iff, List.forall_mem_singleton, hheader, heffect,
    hfields]

/-- A feed that fits leaves rows that can be encoded. -/
theorem receive_rowsFit
    {db : Db} (h : RowsFit db) (hfeed : Fits db f) :
    RowsFit (receive db f) := by
  have houtcome := wrapBuildFeed_outcome f.builder f.network db f.rtu f.build
  have hdelays := houtcome.delaysFit
    (fun _ hbuild _ ht => (build_fits hbuild ht).1)
    (fun built hbuild => (hfeed built hbuild).2)
    (fun row hrow => (h row hrow).delays)
  intro row hrow
  refine ⟨?_, hdelays row hrow⟩
  cases hbuild : f.build db.tripUpdates with
  | error e =>
      rw [hbuild] at houtcome
      rcases houtcome.rows with hsame | ⟨built, s, r, hbuilt, -⟩
      · exact (h row (hsame.1 ▸ hrow)).date
      · cases hbuilt
  | ok built =>
      rw [hbuild] at houtcome
      rcases houtcome.owned hrow with
        ⟨old, hold, hvj, -⟩ | ⟨t, ht, hvj, -⟩
      · exact hvj ▸ (h old hold).date
      · exact hvj ▸ (hfeed built hbuild).1 t ht

end Feed

/--
In a sequence of feeds of any connectors, a trip that is accepted from a feed can
be encoded exactly when the feed has a disruption, if it is a PIV one, a start
from 1900 on and delays that fit once pushed by its earlier events.  When all the
feeds fit, so that they leave rows that can be encoded, every selection of the
stored rows is published.
-/
theorem accepted_trip_published_iff
    (db : Db) (feeds : List ReceivedFeed) :
    (∀ f ∈ feeds, ∀ (rows : List TripUpdate) (built : BuiltFeed)
      (t : NewTripUpdate) (old : Option TripUpdate),
      f.build rows = .ok built → t ∈ built.tripUpdates →
      (∀ row ∈ old, row.vj.datedKey = t.vj.datedKey) →
      (processTripUpdate f.builder old t).linked = .ok true →
      ((∃ entities, convertToGtfsrt
          [(processTripUpdate f.builder old t).tripUpdate] = .ok entities) ↔
        f.source.withoutDisruption = false ∧
          DateFits t.vj.getCirculationDate ∧ FeedFits f.builder old t)) ∧
    (RowsFit db → Runs.Along receive Fits db feeds →
      ∀ selection : List TripUpdate,
        (∀ row ∈ selection, row ∈ (feeds.foldl receive db).tripUpdates) →
        ∃ entities, convertToGtfsrt selection = .ok entities) := by
  constructor
  · intro f _ rows built t old hbuild ht hold hlinked
    exact accepted_published_iff hbuild ht hold hlinked
  · intro hdb halong selection hselection
    have hend : RowsFit (feeds.foldl receive db) :=
      Runs.invariant_of_along (fun _ _ => receive_rowsFit) halong hdb
    rw [convertToGtfsrt_ok_iff]
    intro row hrow
    have hstored := hselection row hrow
    exact ⟨(feeds.foldl receive db).effects row hstored, hend row hstored⟩

namespace Sample

/-- A stop event that is late by some minutes. -/
def lateEvent (t : Datetime) (minutes : Int) : Piv.StopEventInfo :=
  { Piv.Sample.event t with
    isEmpty := false
    dateHeureReelle :=
      some { text := "real", parsed := .ok (t + minutes * 60 * second) }
    statutModification := some (some .retardProjete)
    evenement := some (some
      { isEmpty := false, type := none, texte := none
        retard := some (some { duree := some (some minutes) }), empty := nofun })
    empty := nofun }

/-- A stop where the train is late by some minutes. -/
def lateArret (rang : Int) (code : String) (t : Datetime) (minutes : Int) :
    Piv.Arret :=
  { Piv.Sample.arret rang code t with
    arrivee := some (lateEvent t minutes)
    depart := some (lateEvent t minutes) }

/-- A train that is late by some minutes. -/
def late (minutes : Int) : Piv.RawData :=
  .json (some [some
    { Piv.Sample.train (some [{ type := some .retard, texte := none }]) with
      listeArretsDesserte := some (some
        [lateArret 0 "a" (Core.Sample.clock 8 0) minutes,
          lateArret 1 "b" (Core.Sample.clock 9 0) minutes]) }])

/-- A train that is cancelled, some days after 2012-11-20. -/
def cancelled (days : Int) : Piv.RawData :=
  .json (some [some
    { Piv.Sample.train (some [{ type := some .suppression, texte := none }]) with
      listeArretsDesserte := some (some
        [Piv.Sample.arret 0 "a" (Core.Sample.clock (8 + 24 * days) 0),
          Piv.Sample.arret 1 "b" (Core.Sample.clock (9 + 24 * days) 0)]) }])

def pivFeed (raw : Piv.RawData) : ReceivedFeed where
  contributorId := "realtime.piv"
  rtu := Core.Sample.received "1"
  source := .piv Piv.Sample.services "7b1a" raw
  network := .up

/-- What becomes of the trip updates of a feed, when nothing is stored. -/
def published (f : ReceivedFeed) :
    Except PyException
      (List (Except PyException Bool × Except PyException (List Entity))) :=
  (f.build []).map (fun built => built.tripUpdates.map (fun t =>
    let processed := processTripUpdate f.builder none t
    (processed.linked, convertToGtfsrt [processed.tripUpdate])))

end Sample

theorem accepted_trip_published_iff_late :
    ∃ entities, convertToGtfsrt
        (receive Core.Sample.emptyDb
          (Sample.pivFeed (Sample.late 5))).tripUpdates = .ok entities :=
  (accepted_trip_published_iff Core.Sample.emptyDb
    [Sample.pivFeed (Sample.late 5)]).2 (by decide) (by decide) _
    (fun _ hrow => hrow)

/--
A train without any disruption is accepted and cannot be encoded, nor can one
that is late by ninety-five years, nor one of 1848 that is cancelled; the late
one is stored, and no publication that includes it succeeds any more.
-/
theorem accepted_trip_unpublished :
    Sample.published (Sample.pivFeed (Piv.Sample.feed none)) =
        .ok [(.ok true, .error .typeError)] ∧
      Sample.published (Sample.pivFeed (Sample.late 50000000)) =
        .ok [(.ok true, .error .valueError)] ∧
      Sample.published (Sample.pivFeed (Sample.cancelled (-60000))) =
        .ok [(.ok true, .error .valueError)] ∧
      (receive Core.Sample.emptyDb
        (Sample.pivFeed (Sample.late 50000000))).tripUpdates ≠ [] ∧
      convertToGtfsrt
          (receive Core.Sample.emptyDb
            (Sample.pivFeed (Sample.late 50000000))).tripUpdates =
        .error .valueError := by
  refine ⟨by decide, by decide, by decide, by decide, by decide⟩

end Kirin
