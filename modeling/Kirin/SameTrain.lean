import Kirin.LastFeed
import Kirin.Piv.TrainSearch
import Kirin.PublishedTrips

/-!
# Kirin: the feeds of one PIV train

A PIV feed completes the stored row of its train only when it finds the same trip
and the same start as the feeds that came before it.

* `AboutTrain`: the vehicle journey and the first base departure of a feed.
* `aboutTrain_of_accepts`: an accepted trip is about such a train.
* `stored_of_acceptedIn`: it has a row at the end of every run.
* `same_row_iff`: when two accepted trips of a run have the same row.
-/

namespace Kirin

open Kirin.Core
open Kirin.Piv (SameStart Circulates baseVsRtErrorMargin)

/--
A PIV feed is about the only vehicle journey that navitia has for its key, or the
empty one, and has a first base departure.
-/
def AboutTrain (f : ReceivedFeed) (navVj : NavVj) (vjBaseStart : Datetime) :
    Prop :=
  ∃ services newId raw pivKey ads, f.source = .piv services newId raw ∧
    Piv.readKey raw = .ok (pivKey, ads) ∧
    Piv.AnswersOnly services pivKey navVj ∧
    Piv.getFirstStopBaseDatetime ads .departure = .ok (some vjBaseStart)

/-- A trip is accepted from a feed of a run. -/
def AcceptedIn (db : Db) (feeds : List ReceivedFeed) (f : ReceivedFeed)
    (t : NewTripUpdate) : Prop :=
  ∃ before after, feeds = before ++ f :: after ∧
    f.Accepts (before.foldl receive db) t

section Feed

variable {db : Db} {f : ReceivedFeed} {t : NewTripUpdate}

/-- An accepted trip has a row once its feed is processed. -/
theorem stored_of_accepts
    (h : f.Accepts db t) :
    ∃ row ∈ (receive db f).tripUpdates, row.vj.datedKey = t.vj.datedKey := by
  obtain ⟨built, hbuild, haccepts, hclean⟩ := h
  have houtcome := wrapBuildFeed_outcome f.builder f.network db f.rtu f.build
  rw [hbuild] at houtcome
  obtain ⟨old, -, hstored⟩ := haccepts.stored houtcome hclean
  exact ⟨_, findByDatedVj_mem hstored, findByDatedVj_key hstored⟩

/-- A row stays to the end of a run once its trip is accepted. -/
theorem stored_of_acceptedIn
    {feeds : List ReceivedFeed} (h : AcceptedIn db feeds f t) :
    ∃ row ∈ (feeds.foldl receive db).tripUpdates,
      row.vj.datedKey = t.vj.datedKey := by
  obtain ⟨before, after, rfl, haccepts⟩ := h
  obtain ⟨row, hrow, hkey⟩ := stored_of_accepts haccepts
  obtain ⟨row', hrow', hsame⟩ := run_keepsTrip hrow after
  rw [List.foldl_append, List.foldl_cons]
  exact ⟨row', hrow',
    (congrArg VehicleJourney.datedKey hsame.1.symm).trans hkey⟩

/-- A trip that is accepted from a PIV feed is that of the train it is about. -/
theorem aboutTrain_of_accepts
    (h : f.Accepts db t) (hpiv : f.source.connector = .piv) :
    ∃ navVj vjBaseStart, AboutTrain f navVj vjBaseStart ∧
      t.vj.navitiaTripId = navVj.tripId ∧
      Circulates navVj vjBaseStart t.vj.startTimestamp := by
  obtain ⟨contributorId, rtu, source, network⟩ := f
  cases source with
  | cots services newId raw =>
      cases hpiv
  | gtfsRt services newId raw =>
      cases hpiv
  | piv services newId raw =>
      obtain ⟨built, hbuild, ⟨before, after, s, hts, -⟩, -⟩ := h
      obtain ⟨ts, hbuilt, rfl⟩ := Checked.map_eq_ok.1 hbuild
      obtain ⟨pivKey, ads, found, t', hkey, hfound, rfl, hvj⟩ :=
        Piv.buildTripUpdates_found hbuilt
      obtain ⟨hanswers, vjBaseStart, hdeparture, hinit⟩ :=
        Piv.getNavitiaVj_eq_ok_iff.1 hfound
      have ht : t = t' := by
        have hmem : t ∈ [t'] := by
          rw [show [t'] = before ++ t :: after from hts]
          exact List.mem_append_right _ List.mem_cons_self
        exact List.mem_singleton.1 hmem
      subst ht
      refine ⟨found.navVj, vjBaseStart,
        ⟨services, newId, raw, pivKey, ads, rfl, hkey, hanswers, hdeparture⟩,
        ?_, ?_⟩
      · rw [hvj]
        exact init_tripId hinit
      · rw [hvj]
        exact (Piv.init_around_iff newId found.navVj vjBaseStart _).1
          ⟨found.vj, hinit, rfl⟩

end Feed

section Run

variable {db : Db} {feeds : List ReceivedFeed} {f f' : ReceivedFeed}
variable {t t' : NewTripUpdate}

/--
Two trips are accepted from PIV feeds along a run of feeds of any connectors.
Each is about a vehicle journey and a first base departure, and has a row in the
end.  They have the same row exactly when their trips are the same and

* their departures are two hours apart at most, for vehicle journeys of navitia
  with the same first time;
* their departures are the same, for trains that navitia does not have;
* the departure of such a train, within one hour of that of the other, has the
  first time of a vehicle journey that navitia has.
-/
theorem same_row_iff
    (h : AcceptedIn db feeds f t) (h' : AcceptedIn db feeds f' t')
    (hpiv : f.source.connector = .piv) (hpiv' : f'.source.connector = .piv) :
    ∃ navVj b navVj' b', AboutTrain f navVj b ∧ AboutTrain f' navVj' b' ∧
      ∃ row ∈ (feeds.foldl receive db).tripUpdates,
        ∃ row' ∈ (feeds.foldl receive db).tripUpdates,
          row.vj.datedKey = t.vj.datedKey ∧ row'.vj.datedKey = t'.vj.datedKey ∧
          (∀ time, navVj.startTime = some time → navVj'.startTime = some time →
            (row = row' ↔ navVj.tripId = navVj'.tripId ∧
              b - b' ≤ 2 * baseVsRtErrorMargin ∧
              b' - b ≤ 2 * baseVsRtErrorMargin)) ∧
          (navVj.stopTimes = [] → navVj'.stopTimes = [] →
            (row = row' ↔ navVj.tripId = navVj'.tripId ∧ b = b')) ∧
          (∀ time, navVj.startTime = some time → navVj'.stopTimes = [] →
            (row = row' ↔ navVj.tripId = navVj'.tripId ∧
              time = Datetime.time b' ∧ b - baseVsRtErrorMargin ≤ b' ∧
              b' ≤ b + baseVsRtErrorMargin)) := by
  obtain ⟨row, hrow, hkey⟩ := stored_of_acceptedIn h
  obtain ⟨row', hrow', hkey'⟩ := stored_of_acceptedIn h'
  obtain ⟨before, after, -, haccepts⟩ := h
  obtain ⟨before', after', -, haccepts'⟩ := h'
  obtain ⟨navVj, b, habout, htrip, hstart⟩ :=
    aboutTrain_of_accepts haccepts hpiv
  obtain ⟨navVj', b', habout', htrip', hstart'⟩ :=
    aboutTrain_of_accepts haccepts' hpiv'
  have hsame : row = row' ↔
      navVj.tripId = navVj'.tripId ∧ SameStart navVj navVj' b b' := by
    rw [Piv.sameStart_iff hstart hstart', ← htrip, ← htrip', ← Prod.mk.injEq]
    constructor
    · rintro rfl
      exact hkey.symm.trans hkey'
    · intro heq
      exact KeyedStore.eq_of_key_eq (feeds.foldl receive db).uniqueDatedVj hrow
        hrow' (hkey.trans (Eq.trans heq hkey'.symm))
  refine ⟨navVj, b, navVj', b', habout, habout', row, hrow, row', hrow', hkey,
    hkey', ?_, ?_, ?_⟩
  · intro time ht ht'
    rw [hsame, Piv.sameStart_of_startTime hstart hstart' ht ht']
  · intro hstops hstops'
    rw [hsame, Piv.sameStart_of_empty hstart hstart' hstops hstops']
  · intro time ht hstops'
    rw [hsame, Piv.sameStart_of_added ht hstops']

end Run

namespace Sample

/-- A stop where the train is late by some minutes. -/
def lateStop (order : Nat) (stopId : String) (t : Datetime) (minutes : Int) :
    StopTimeUpdate where
  stopId := stopId
  order := order
  message := none
  departure := some (t + minutes * 60 * second)
  departureDelay := some (minutes * 60 * second)
  departureStatus := .update
  arrival := some (t + minutes * 60 * second)
  arrivalDelay := some (minutes * 60 * second)
  arrivalStatus := .update

/-- What the builder makes of a train that is late by some minutes. -/
def lateTrip (minutes : Int) : NewTripUpdate where
  vj :=
    { id := "7b1a", navitiaTripId := "trip:1"
      startTimestamp := Core.Sample.clock 8 0 }
  status := .update
  message := none
  companyId := some "1187"
  effect := some .significantDelays
  physicalModeId := some "physical_mode:LongDistanceTrain"
  headsign := some "1"
  contributorId := "realtime.piv"
  stopTimeUpdates :=
    [lateStop 0 "a" (Core.Sample.clock 8 0) minutes,
      lateStop 1 "b" (Core.Sample.clock 9 0) minutes]
  navitiaVj :=
    { stopTimes :=
        [(Piv.Sample.navStop "a" (Core.Sample.clock 8 0)).toStopTime,
          (Piv.Sample.navStop "b" (Core.Sample.clock 9 0)).toStopTime] }

theorem accepts_late :
    (pivFeed (late 5)).Accepts Core.Sample.emptyDb (lateTrip 5) := by
  have hbuild : (pivFeed (late 5)).build Core.Sample.emptyDb.tripUpdates =
      .ok { error := none, tripUpdates := [lateTrip 5] } := by
    decide
  exact ⟨_, hbuild, acceptsTrip_single (by decide), by decide⟩

/-- The second feed of the train, which is later. -/
def laterFeed : ReceivedFeed :=
  { pivFeed (late 10) with rtu := Core.Sample.received "2" }

theorem accepts_later :
    laterFeed.Accepts (receive Core.Sample.emptyDb (pivFeed (late 5)))
      (lateTrip 10) := by
  have hbuild : laterFeed.build
      (receive Core.Sample.emptyDb (pivFeed (late 5))).tripUpdates =
      .ok { error := none, tripUpdates := [lateTrip 10] } := by
    decide
  exact ⟨_, hbuild, acceptsTrip_single (by decide), by decide⟩

/-- A stop that is created at the given time. -/
def createdArret (rang : Int) (code : String) (t : Datetime) : Piv.Arret :=
  { Piv.Sample.arret rang code t with
    arrivee := some
      { Piv.Sample.event t with
        isEmpty := false, statutModification := some (some .creation)
        empty := nofun }
    depart := some
      { Piv.Sample.event t with
        isEmpty := false, statutModification := some (some .creation)
        empty := nofun } }

/-- A train that navitia does not have, whose first stop is left at some time. -/
def addedFeed (id : String) (t : Datetime) : ReceivedFeed where
  contributorId := "realtime.piv"
  rtu := Core.Sample.received id
  source :=
    .piv
      { Piv.Sample.services with
        vehicleJourneys := fun _ => .ok []
        stopPoint := fun code =>
          .ok (some { id := code, codes := [], stopAreaCodes := [] }) }
      id
      (.json (some [some
        { Piv.Sample.train (some [{ type := some .retard, texte := none }]) with
          listeArretsDesserte := some (some
            [createdArret 0 "a" t,
              createdArret 1 "b" (Core.Sample.clock 9 0)]) }]))
  network := .up

end Sample

/-- A train that is late and then later is found twice, within the margins. -/
theorem same_row_iff_late :
    ∃ navVj b navVj' b', AboutTrain (Sample.pivFeed (Sample.late 5)) navVj b ∧
      AboutTrain Sample.laterFeed navVj' b' ∧
      ∃ row ∈ (Sample.twoDelays.foldl receive Core.Sample.emptyDb).tripUpdates,
        row.vj.datedKey = (Sample.lateTrip 10).vj.datedKey ∧
        ∀ time, navVj.startTime = some time → navVj'.startTime = some time →
          navVj.tripId = navVj'.tripId ∧
            b - b' ≤ 2 * baseVsRtErrorMargin ∧
            b' - b ≤ 2 * baseVsRtErrorMargin := by
  have haccepted : AcceptedIn Core.Sample.emptyDb Sample.twoDelays
      (Sample.pivFeed (Sample.late 5)) (Sample.lateTrip 5) :=
    ⟨[], _, rfl, Sample.accepts_late⟩
  have haccepted' : AcceptedIn Core.Sample.emptyDb Sample.twoDelays
      Sample.laterFeed (Sample.lateTrip 10) :=
    ⟨[Sample.pivFeed (Sample.late 5)], [], rfl, Sample.accepts_later⟩
  obtain ⟨navVj, b, navVj', b', habout, habout', row, hrow, row', hrow', hkey, hkey',
    hstarts, -⟩ := same_row_iff haccepted haccepted' rfl rfl
  have hsame : row = row' :=
    KeyedStore.eq_of_key_eq (Sample.twoDelays.foldl receive _).uniqueDatedVj hrow hrow'
      (hkey.trans hkey'.symm)
  exact ⟨navVj, b, navVj', b', habout, habout', row', hrow', hkey',
    fun time ht ht' => (hstarts time ht ht').1 hsame⟩

/-- A train that navitia does not have gets another row when it leaves later. -/
example :
    ([Sample.addedFeed "1" (Core.Sample.clock 8 0),
        Sample.addedFeed "2" (Core.Sample.clock 8 1)].foldl receive
      Core.Sample.emptyDb).tripUpdates.map (fun row => row.vj.startTimestamp) =
      [Core.Sample.clock 8 0, Core.Sample.clock 8 1] := by
  decide

end Kirin
