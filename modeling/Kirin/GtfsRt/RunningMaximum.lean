import Kirin.GtfsRt.FeedHistory

/-!
# Kirin: GTFS-RT delays as a running maximum

Every event of the trip is recorded at its base datetime and delay, or at the
previous event when that one comes later.

* `Feeds.dated`: a stop is dated right unless its delays hide a midnight.
* `turns_runningMaximum`: a run records the running maximum.
* `gtfsRt_runningMaximum`: so does a feed, whatever earlier feeds have left.
-/

namespace Kirin
namespace GtfsRt

open Kirin.Core
open FeedStop

/-- A stop of the run, with its base datetimes and the delays of the feed. -/
structure Feeds (f : FeedStop) (x : Events Datetime) (d : Events Timedelta) :
    Prop where
  clocks : ∀ e, f.navitiaStop.utcTime e = some (Datetime.time (x.get e))
  built : BuiltWith d f.newSt

/--
What the running maximum says of a stop: each event is at its base datetime and
delay, or at the previous event, and its delay is counted from its base.
-/
structure FollowsReference
    (last : Option Datetime) (x : Events Datetime) (d : Events Timedelta)
    (st : StopTimeUpdate) : Prop where
  arrival : st.arrival = some (atLeast last (x.arrival + d.arrival))
  departure : ∀ a ∈ st.arrival,
    st.departure = some (max a (x.departure + d.departure))
  arrivalDelay : ∀ t ∈ st.arrival, st.arrivalDelay = some (t - x.arrival)
  departureDelay : ∀ t ∈ st.departure,
    st.departureDelay = some (t - x.departure)

/-- The stops follow the running maximum, from a departure on if any. -/
def RunningMaximum :
    Option Datetime → List (Events Datetime × Events Timedelta) →
    List StopTimeUpdate → Prop
  | _, [], [] => True
  | last, xd :: xds, st :: stus =>
      FollowsReference last xd.1 xd.2 st ∧
        RunningMaximum st.departure xds stus
  | _, _, _ => False

/-- The delay of an event may hide a midnight when it grows too much. -/
def MidnightSeen (p q : Datetime × Timedelta) : Prop :=
  Datetime.date p.1 ≠ Datetime.date q.1 → q.2 - p.2 < day - (q.1 - p.1)

instance (p q : Datetime × Timedelta) : Decidable (MidnightSeen p q) :=
  inferInstanceAs (Decidable (_ → _))

/-- Two consecutive events of the base schedule, with their delays. -/
def Follows (p q : Datetime × Timedelta) : Prop :=
  (p.1 ≤ q.1 ∧ q.1 - p.1 < day) ∧ MidnightSeen p q

/-- The datetimes and delays of the events of a stop. -/
def delayed (xd : Events Datetime × Events Timedelta) :
    Events (Datetime × Timedelta) where
  arrival := (xd.1.arrival, xd.2.arrival)
  departure := (xd.1.departure, xd.2.departure)

section Run

variable {f : FeedStop} {x : Events Datetime} {d : Events Timedelta}
variable {c : Calendar} {last : Option Datetime}

theorem Feeds.event_eq
    (h : Feeds f x d) (e : StopEvent) (c : Calendar) :
    f.event e c =
      c.stopEvent true (some (Datetime.time (x.get e))) (d.get e) := by
  obtain ⟨hserved, -, -⟩ := h.built.event e none
  rw [FeedStop.event, hserved, h.clocks e, h.built.delay e]
  rfl

/-- A delay counted from a pushed datetime is counted from its base. -/
theorem delay_from_base
    (d t base : Int) :
    d + (t - (base + d)) = t - base := by
  omega

/-- A stop whose events are dated right follows the running maximum. -/
theorem Feeds.followsReference
    (h : Feeds f x d) (ha : f.baseArrival c = some x.arrival)
    (hd : f.baseDeparture c = some x.departure) :
    FollowsReference last x d (f.recorded c last) := by
  obtain ⟨-, hta, hda⟩ := h.built.event .arrival (some x.arrival)
  obtain ⟨-, htd, hdd⟩ := h.built.event .departure (some x.departure)
  rw [← ha] at hta hda
  rw [← hd] at htd hdd
  have hta' :
      (eventInfo f.newSt (f.baseArrival c) .arrival).time =
        some (x.arrival + d.arrival) := by
    rw [hta, ha]
    rfl
  have htd' :
      (eventInfo f.newSt (f.baseDeparture c) .departure).time =
        some (x.departure + d.departure) := by
    rw [htd, hd]
    rfl
  obtain ⟨harr, harrDelay⟩ :=
    builtStop_arrival_of_target (f.baseArrival c) (f.baseDeparture c) last
      f.newSt f.stopPoint f.order hta'
  obtain ⟨a, ha', hdep, hdepDelay⟩ :=
    builtStop_departure_of_target (f.baseArrival c) (f.baseDeparture c) last
      f.newSt f.stopPoint f.order htd'
  rw [hda, Option.map_some] at harrDelay
  rw [hdd, Option.map_some] at hdepDelay
  refine ⟨harr, ?_, ?_, ?_⟩
  · intro a' ha''
    rw [FeedStop.recorded, ha'] at ha''
    cases ha''
    exact hdep
  · intro t ht
    rw [FeedStop.recorded, harr] at ht
    cases ht
    rw [FeedStop.recorded, harrDelay]
    exact congrArg some (delay_from_base _ _ _)
  · intro t ht
    rw [FeedStop.recorded, hdep] at ht
    cases ht
    rw [FeedStop.recorded, hdepDelay]
    exact congrArg some (delay_from_base _ _ _)

/-- A stop whose arrival is dated right leaves the calendar at its departure. -/
theorem Feeds.dated
    (h : Feeds f x d) {c₁ : Calendar}
    (harrival : f.event .arrival c = (some x.arrival, c₁))
    (hat : c₁.At x.arrival d.arrival)
    (hfollows : Follows (x.arrival, d.arrival) (x.departure, d.departure)) :
    f.baseArrival c = some x.arrival ∧ f.baseDeparture c = some x.departure ∧
      (f.nextCalendar c).At x.departure d.departure := by
  rcases hfollows with ⟨⟨hle, hgap⟩, hmidnight⟩
  have hdeparture := hat.stopEvent hle hgap hmidnight
  have hevent : f.event .departure c₁ = _ :=
    (h.event_eq .departure c₁).trans hdeparture
  simp only [FeedStop.baseArrival, FeedStop.baseDeparture,
    FeedStop.nextCalendar, harrival, hevent]
  exact ⟨trivial, trivial, ⟨rfl, rfl⟩⟩

variable {fs : List FeedStop}
variable {xds : List (Events Datetime × Events Timedelta)}

/-- From an event on, a run records the running maximum. -/
theorem turns_runningMaximum
    (h : List.Forall₂ (fun f xd => Feeds f xd.1 xd.2) fs xds)
    {t : Datetime} {delay : Timedelta} (hat : c.At t delay)
    (hchain : ((t, delay) :: Events.list (xds.map delayed)).IsChain Follows) :
    RunningMaximum last xds ((turns c last fs).map MergedStop.resSt) := by
  induction h generalizing c last t delay with
  | nil =>
      trivial
  | @cons f xd fs xds hf hrest ih =>
      simp only [List.map_cons, Events.list, delayed,
        List.isChain_cons_cons] at hchain
      rcases hchain with ⟨⟨⟨hle, hgap⟩, hmidnight⟩, hfollows, hchain⟩
      have hevent : f.event .arrival c = _ :=
        (hf.event_eq .arrival c).trans (hat.stopEvent hle hgap hmidnight)
      obtain ⟨ha, hd, hnext⟩ := hf.dated hevent ⟨rfl, rfl⟩ hfollows
      exact ⟨hf.followsReference ha hd, ih hnext hchain⟩

/-- So does a run from the start of a trip. -/
theorem turns_start_runningMaximum
    (h : List.Forall₂ (fun f xd => Feeds f xd.1 xd.2) fs xds)
    {start : Date}
    (hstart : ∀ p ∈ (Events.list (xds.map delayed)).head?,
      Datetime.date p.1 = start)
    (hchain : (Events.list (xds.map delayed)).IsChain Follows) :
    RunningMaximum none xds
      ((turns (Calendar.atStart start) none fs).map MergedStop.resSt) := by
  cases h with
  | nil =>
      trivial
  | @cons f xd fs xds hf hrest =>
      simp only [List.map_cons, Events.list, delayed,
        List.isChain_cons_cons] at hchain
      have hdate : Datetime.date xd.1.arrival = start :=
        hstart (xd.1.arrival, xd.2.arrival) rfl
      have harrival := Calendar.atStart_stopEvent xd.1.arrival xd.2.arrival
      rw [hdate] at harrival
      have hevent : f.event .arrival (Calendar.atStart start) = _ :=
        (hf.event_eq .arrival _).trans harrival
      obtain ⟨ha, hd, hnext⟩ := hf.dated hevent ⟨rfl, hdate.symm⟩ hchain.1
      exact ⟨hf.followsReference ha hd,
        turns_runningMaximum hrest hnext hchain.2⟩

end Run

section Feed

variable {b : Builder} {contributorId : String} {vj : VehicleJourney}
variable {navitiaVj : NavitiaVj} {feed : List InputStopTime}
variable {old : Option TripUpdate} {new : NewTripUpdate}
variable {base : List (Events Datetime)}

/-- The base datetimes of a schedule with delays. -/
theorem delayed_fst
    {delays : List (Events Timedelta)} (hlen : base.length ≤ delays.length) :
    (Events.list ((base.zip delays).map delayed)).map Prod.fst =
      Events.list base := by
  have hfst : ((base.zip delays).map delayed).map (Events.map Prod.fst) =
      (base.zip delays).map Prod.fst := by
    rw [List.map_map]
    rfl
  rw [← Events.list_map, hfst, List.map_fst_zip hlen]

/-- The base schedule with the delays of a feed is still followed in order. -/
theorem follows_of_midnightSeen
    {start : Date} {stopTimes : List StopTime}
    (hbase : Timetable start stopTimes base)
    {delays : List (Events Timedelta)} (hlen : base.length ≤ delays.length)
    (hmidnight : (Events.list ((base.zip delays).map delayed)).IsChain
      MidnightSeen) :
    (Events.list ((base.zip delays).map delayed)).IsChain Follows := by
  have hchain := hbase.chain
  rw [← delayed_fst hlen, List.isChain_map] at hchain
  rw [List.isChain_iff_forall_rel_of_append_cons_cons] at hchain hmidnight ⊢
  intro p q l₁ l₂ hl
  exact ⟨hchain hl, hmidnight hl⟩

/-- The stops of the run are fed with the timetable and the delays. -/
theorem feeds_of_builds
    {fs : List FeedStop} {delays : List (Events Timedelta)} {start : Date}
    (hnav : fs.map FeedStop.navitiaStop = navitiaVj.stopTimes)
    (hnew : fs.map FeedStop.newSt = new.stopTimeUpdates)
    (hbase : Timetable start navitiaVj.stopTimes base)
    (hbuilds : Builds navitiaVj.stopTimes delays new.stopTimeUpdates) :
    List.Forall₂ (fun f xd => Feeds f xd.1 xd.2) fs (base.zip delays) := by
  have hclocks := hbase.clocks
  have hbuilt := hbuilds.builtWith
  rw [← hnav, List.forall₂_map_left_iff] at hclocks
  rw [← hnew, List.forall₂_map_right_iff] at hbuilt
  exact (RelatedLists.zip_right hclocks hbuilt.flip).imp
    (fun _ _ hxd => ⟨hxd.1, hxd.2⟩)

/-- Stops that follow the running maximum have their first arrival. -/
theorem RunningMaximum.origin
    {last : Option Datetime} {xds : List (Events Datetime × Events Timedelta)}
    {stus : List StopTimeUpdate} (h : RunningMaximum last xds stus) :
    ∀ st ∈ stus.head?, st.arrival.isSome := by
  intro st hst
  cases stus with
  | nil =>
      cases hst
  | cons st' rest =>
      cases hst
      cases xds with
      | nil =>
          exact False.elim h
      | cons xd xds =>
          simp [h.1.arrival]

/--
A GTFS-RT feed leaves on a trip the running maximum of its base datetimes and
delays, whatever earlier feeds have left; the trip is accepted unless the merge
returns nothing, and then the stored stops are already those.
-/
theorem gtfsRt_runningMaximum
    (hb : b.connector = .gtfsRt) (hold : LeftByFeeds b navitiaVj old)
    (hnew : makeTripUpdate contributorId vj navitiaVj feed = some new)
    (hbase : Timetable vj.getCirculationDate navitiaVj.stopTimes base)
    (hmidnight : (Events.list
      ((base.zip (givenDelays navitiaVj.stopTimes.length feed)).map
        delayed)).IsChain MidnightSeen) :
    (∃ changed, (merge navitiaVj old new false).returned = .ok changed ∧
        (processTripUpdate b old new).linked = .ok changed) ∧
      Indexed (processTripUpdate b old new).tripUpdate.stopTimeUpdates ∧
      (processTripUpdate b old new).tripUpdate.stopTimeUpdates.length =
        navitiaVj.stopTimes.length ∧
      RunningMaximum none
        (base.zip (givenDelays navitiaVj.stopTimes.length feed))
        (processTripUpdate b old new).tripUpdate.stopTimeUpdates ∧
      ((merge navitiaVj old new false).returned = .ok false →
        ∀ row ∈ old, row.stopTimeUpdates =
          (processTripUpdate b old new).tripUpdate.stopTimeUpdates) := by
  obtain ⟨hvj, hnavitia, hstatus, hbuilds⟩ := makeTripUpdate_builds hnew
  obtain ⟨fs, changed, hleft⟩ :=
    hbuilds.left hb (by simp [hstatus]) hnavitia (hold.sameStops hb)
  have hlen :
      base.length =
        (givenDelays navitiaVj.stopTimes.length feed).length := by
    rw [hbuilds.builtWith.length_eq, ← hbuilds.stops.length_eq,
      hbase.clocks.length_eq]
  have hstart :
      ∀ p ∈ (Events.list ((base.zip
          (givenDelays navitiaVj.stopTimes.length feed)).map delayed)).head?,
        Datetime.date p.1 = vj.getCirculationDate := by
    intro p hp
    refine hbase.starts p.1 ?_
    rw [← delayed_fst hlen.le, List.head?_map, Option.mem_def.1 hp]
    rfl
  have hmaximum :=
    turns_start_runningMaximum
      (feeds_of_builds hleft.navitiaStops hleft.newSts hbase hbuilds)
      hstart (follows_of_midnightSeen hbase hlen.le hmidnight)
  rw [← hvj] at hmaximum
  have haccepted : (manageConsistency (recordedStops new fs)).1 = true :=
    (manageConsistency_accepts_iff (turns_chained _ _ _) hleft.indexed).2
      hmaximum.origin
  have hlinked := hleft.linked
  rw [haccepted, Bool.and_true] at hlinked
  refine ⟨⟨changed, hleft.returned, hlinked⟩, ?_, ?_, ?_, ?_⟩
  · rw [hleft.stops]
    exact hleft.indexed
  · rw [hleft.stops, hleft.length]
  · rw [hleft.stops]
    exact hmaximum
  · rintro hnone row hrow
    have hbuilder :
        (merge new.navitiaVj old new b.isNewComplete).returned =
          .ok false := by
      rw [hnavitia, Builder.isNewComplete, hb]
      exact hnone
    rw [processTripUpdate_of_returned_none (by simp [hstatus]) hbuilder,
      Option.mem_def.1 hrow]
    rfl

end Feed

namespace Sample

/-- A trip that passes midnight between its first two stops. -/
def nightVj : NavitiaVj where
  stopTimes :=
    [Core.Sample.stopTime "sp:a" (Core.Sample.clock 23 50)
        (Core.Sample.clock 23 55),
      Core.Sample.stopTime "sp:b" (Core.Sample.clock 24 5)
        (Core.Sample.clock 24 6),
      Core.Sample.stopTime "sp:c" (Core.Sample.clock 24 20)
        (Core.Sample.clock 24 20)]

def nightBase : List (Events Datetime) :=
  [⟨Core.Sample.clock 23 50, Core.Sample.clock 23 55⟩,
    ⟨Core.Sample.clock 24 5, Core.Sample.clock 24 6⟩,
    ⟨Core.Sample.clock 24 20, Core.Sample.clock 24 20⟩]

/-- A feed on the last two stops, the first of them being late. -/
def nightFeed : List InputStopTime :=
  [⟨"sp:b", 1200, 1200⟩, ⟨"sp:c", 0, -60⟩]

/-- What the builder makes of the feed. -/
def nightUpdate : NewTripUpdate :=
  (makeTripUpdate "realtime.gtfs" nightTrip nightVj nightFeed).getD
    Core.Sample.onTime

theorem night_timetable :
    Timetable nightTrip.getCirculationDate nightVj.stopTimes nightBase := by
  constructor <;> decide

end Sample

theorem gtfsRt_runningMaximum_night :
    (∃ changed,
        (merge Sample.nightVj none Sample.nightUpdate false).returned =
            .ok changed ∧
          (processTripUpdate Sample.gtfsRt none Sample.nightUpdate).linked =
            .ok changed) ∧
      Indexed (processTripUpdate Sample.gtfsRt none
        Sample.nightUpdate).tripUpdate.stopTimeUpdates ∧
      (processTripUpdate Sample.gtfsRt none
        Sample.nightUpdate).tripUpdate.stopTimeUpdates.length =
          Sample.nightVj.stopTimes.length ∧
      RunningMaximum none
        (Sample.nightBase.zip
          (givenDelays Sample.nightVj.stopTimes.length Sample.nightFeed))
        (processTripUpdate Sample.gtfsRt none
          Sample.nightUpdate).tripUpdate.stopTimeUpdates ∧
      ((merge Sample.nightVj none Sample.nightUpdate false).returned =
          .ok false →
        ∀ row ∈ (none : Option TripUpdate), row.stopTimeUpdates =
          (processTripUpdate Sample.gtfsRt none
            Sample.nightUpdate).tripUpdate.stopTimeUpdates) :=
  gtfsRt_runningMaximum rfl LeftByFeeds.nothing
    (show makeTripUpdate "realtime.gtfs" Sample.nightTrip Sample.nightVj
      Sample.nightFeed = some Sample.nightUpdate by decide)
    Sample.night_timetable (by decide)

end GtfsRt
end Kirin
