import Kirin.Core.TouchedRows
import Kirin.Publication

/-!
# Kirin: the trips of the published entities

Navitia replaces an entity by the next one that has its identifier, which should
then be about the same trip.  The identifier is that of the vehicle journey of a
row, whose trip and contributor no feed changes.

* `receive_keepsTrip`, `run_keepsTrip`: a row stays, with its trip and its
  contributor.
* `sent_row`: a published entity is that of a row that is then stored.
* `published_identity`: two entities published along a run have the same
  identifier exactly when they are about the same trip.
-/

namespace Kirin

open Kirin.Core

/-- An entity has the identifier, the trip and the contributor of a row. -/
structure EntityOf (row : TripUpdate) (e : Entity) : Prop where
  id : e.id = rowId row
  tripId : e.tripUpdate.tripId = row.vj.navitiaTripId
  startDate : e.tripUpdate.startDate = row.vj.getCirculationDate
  contributor : e.tripUpdate.contributor = truthyText (some row.contributorId)

/-- An entity is that of the row it is filled from. -/
theorem entityOf_of_fillEntity
    {row : TripUpdate} {e : Entity} (h : fillEntity row = .ok e) :
    EntityOf row e := by
  simp only [fillEntity, fillTripUpdate, Checked.bind_eq_ok, Checked.pure_eq_ok]
    at h
  obtain ⟨pb, ⟨effect, -, startDate, hdate, stops, -, rfl⟩, rfl⟩ := h
  refine ⟨rfl, rfl, ?_, rfl⟩
  unfold dateToStr at hdate
  split at hdate
  · cases hdate
    rfl
  · cases hdate

/-- An entity of a row is that of any other row of the same trip. -/
theorem EntityOf.sameTrip
    {row row' : TripUpdate} {e : Entity} (h : EntityOf row e)
    (hsame : SameTrip row row') :
    EntityOf row' e := by
  obtain ⟨hvj, hcontributor⟩ := hsame
  exact
    { id := h.id.trans (congrArg VehicleJourney.id hvj)
      tripId := h.tripId.trans (congrArg VehicleJourney.navitiaTripId hvj)
      startDate := h.startDate.trans
        (congrArg VehicleJourney.getCirculationDate hvj)
      contributor := hcontributor ▸ h.contributor }

/-- The trip updates of a feed are those of its contributor. -/
theorem build_contributorId
    {f : ReceivedFeed} {rows : List TripUpdate} {built : BuiltFeed}
    (hbuild : f.build rows = .ok built) :
    ∀ t ∈ built.tripUpdates, t.contributorId = f.contributorId := by
  intro t ht
  obtain ⟨contributorId, rtu, source, network⟩ := f
  cases source with
  | cots services newId raw =>
      obtain ⟨ts, hts, rfl⟩ := Checked.map_eq_ok.1 hbuild
      obtain ⟨v, n, pdps, action, vjs, -, -, -, hmade⟩ :=
        Cots.buildTripUpdates_ok hts
      obtain ⟨found, -, hone⟩ := RelatedLists.exists_of_mem_right hmade ht
      exact hone.contributorId
  | piv services newId raw =>
      obtain ⟨ts, hts, rfl⟩ := Checked.map_eq_ok.1 hbuild
      obtain ⟨train, found, t', rfl, hmade, -⟩ := Piv.buildTripUpdates_ok hts
      obtain rfl := List.mem_singleton.1 ht
      exact hmade.contributorId
  | gtfsRt services newId raw =>
      exact GtfsRt.buildTripUpdates_contributorId hbuild ht

section Run

variable {db : Db} {f : ReceivedFeed} {row : TripUpdate}

/-- Whatever a feed does, a row stays with its trip and its contributor. -/
theorem receive_keepsTrip
    (hrow : row ∈ db.tripUpdates) (f : ReceivedFeed) :
    ∃ row' ∈ (receive db f).tripUpdates, SameTrip row row' :=
  (wrapBuildFeed_outcome f.builder f.network db f.rtu f.build).keepsTrip hrow

/-- Along every run, a row stays with its trip and its contributor. -/
theorem run_keepsTrip
    (hrow : row ∈ db.tripUpdates) (feeds : List ReceivedFeed) :
    ∃ row' ∈ (feeds.foldl receive db).tripUpdates, SameTrip row row' := by
  induction feeds generalizing db row with
  | nil =>
      exact ⟨row, hrow, rfl, rfl⟩
  | cons f rest ih =>
      obtain ⟨row1, hrow1, hone⟩ := receive_keepsTrip hrow f
      obtain ⟨row2, hrow2, htwo⟩ := ih hrow1
      exact ⟨row2, hrow2, hone.1.trans htwo.1, hone.2.trans htwo.2⟩

/-- What a feed publishes. -/
def published (db : Db) (f : ReceivedFeed) : Option Publication :=
  (wrapBuildFeed f.builder f.network db f.rtu f.build).published

/-- A published entity is that of a row that is then stored. -/
theorem published_row
    {p : Publication} (hp : published db f = some p) {e : Entity}
    (he : e ∈ p.entities) :
    ∃ row ∈ (receive db f).tripUpdates, EntityOf row e := by
  have houtcome :=
    wrapBuildFeed_outcome f.builder f.network db f.rtu f.build
  obtain ⟨built, s, db1, -, -, -, hpb, -, hrows⟩ := houtcome.of_published hp
  obtain ⟨row, hrow, hfill⟩ :=
    RelatedLists.exists_of_mem_right (Checked.mapM_eq_ok.1 hpb) he
  refine ⟨row, ?_, entityOf_of_fillEntity hfill⟩
  rw [receive, hrows]
  exact List.mem_of_mem_filter hrow

/-- The publications of a run, one after the other. -/
def publications (db : Db) : List ReceivedFeed → List Publication
  | [] => []
  | f :: rest =>
      (published db f).toList ++ publications (receive db f) rest

/-- An entity published along a run is that of a row stored in the end. -/
theorem publications_row
    {feeds : List ReceivedFeed} {p : Publication}
    (hp : p ∈ publications db feeds) {e : Entity} (he : e ∈ p.entities) :
    ∃ row ∈ (feeds.foldl receive db).tripUpdates, EntityOf row e := by
  induction feeds generalizing db with
  | nil =>
      cases hp
  | cons f rest ih =>
      rw [publications, List.mem_append, Option.mem_toList] at hp
      rcases hp with hfirst | hrest
      · obtain ⟨row, hrow, hentity⟩ := published_row hfirst he
        obtain ⟨row', hrow', hsame⟩ := run_keepsTrip hrow rest
        exact ⟨row', hrow', hentity.sameTrip hsame⟩
      · exact ih hrest

/-- A row stored in the end is the one that an entity is about. -/
def About (db : Db) (e : Entity) (vj : VehicleJourney) : Prop :=
  ∃ row ∈ db.tripUpdates, EntityOf row e ∧ row.vj = vj

/--
Along every run of feeds of any connectors, every published entity is about the
vehicle journey of a row that is stored in the end, and of only one.  Two of them
have the same identifier exactly when their vehicle journeys have the same trip
and the same start, and then they have the same contributor.
-/
theorem published_identity
    (db : Db) (feeds : List ReceivedFeed) :
    (∀ p ∈ publications db feeds, ∀ e ∈ p.entities,
      ∃! vj, About (feeds.foldl receive db) e vj) ∧
      ∀ p ∈ publications db feeds, ∀ p' ∈ publications db feeds,
        ∀ e ∈ p.entities, ∀ e' ∈ p'.entities, ∀ vj vj',
          About (feeds.foldl receive db) e vj →
          About (feeds.foldl receive db) e' vj' →
          (e.id = e'.id ↔ vj.datedKey = vj'.datedKey) ∧
            (e.id = e'.id →
              e.tripUpdate.tripId = e'.tripUpdate.tripId ∧
                e.tripUpdate.startDate = e'.tripUpdate.startDate ∧
                e.tripUpdate.contributor = e'.tripUpdate.contributor) := by
  have hunique : ∀ {row row' : TripUpdate},
      row ∈ (feeds.foldl receive db).tripUpdates →
      row' ∈ (feeds.foldl receive db).tripUpdates →
      rowId row = rowId row' → row = row' := fun hrow hrow' heq =>
    KeyedStore.eq_of_key_eq (feeds.foldl receive db).uniqueVj hrow hrow' heq
  refine ⟨fun p hp e he => ?_, ?_⟩
  · obtain ⟨row, hrow, hentity⟩ := publications_row hp he
    refine ⟨row.vj, ⟨row, hrow, hentity, rfl⟩, ?_⟩
    rintro vj ⟨row', hrow', hentity', rfl⟩
    rw [hunique hrow' hrow (hentity'.id.symm.trans hentity.id)]
  · rintro p - p' - e - e' - vj vj' ⟨row, hrow, hentity, rfl⟩
      ⟨row', hrow', hentity', rfl⟩
    have hsame : e.id = e'.id → row = row' := fun heq =>
      hunique hrow hrow' ((hentity.id.symm.trans heq).trans hentity'.id)
    refine ⟨⟨fun heq => ?_, fun heq => ?_⟩, fun heq => ?_⟩
    · rw [hsame heq]
    · have := KeyedStore.eq_of_key_eq
        (feeds.foldl receive db).uniqueDatedVj hrow hrow' heq
      rw [hentity.id, hentity'.id, this]
    · obtain rfl := hsame heq
      exact ⟨hentity.tripId.trans hentity'.tripId.symm,
        hentity.startDate.trans hentity'.startDate.symm,
        hentity.contributor.trans hentity'.contributor.symm⟩

end Run

namespace Sample

/-- A train that is late, and then later. -/
def twoDelays : List ReceivedFeed :=
  [pivFeed (late 5),
    { pivFeed (late 10) with rtu := Core.Sample.received "2" }]

end Sample

/-- The train is published twice, under the same identifier. -/
theorem published_identity_twoDelays :
    (publications Core.Sample.emptyDb Sample.twoDelays).map
        (fun p => p.entities.map Entity.id) = [["7b1a"], ["7b1a"]] ∧
      ∀ p ∈ publications Core.Sample.emptyDb Sample.twoDelays,
        ∀ e ∈ p.entities,
          ∃! vj, About (Sample.twoDelays.foldl receive Core.Sample.emptyDb) e
            vj :=
  ⟨by decide, (published_identity Core.Sample.emptyDb Sample.twoDelays).1⟩

end Kirin
