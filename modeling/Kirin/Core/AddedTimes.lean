import Kirin.Core.Encodable
import Kirin.Core.EventValidity

/-!
# Kirin: the times of added stop events

The merge adds the delay of an added event to the datetime that the feed gives
for it, and pushes the event to the latest of the times planned before.  It is
recorded at the datetime itself when neither moves it, or when the push makes up
for a negative delay.

* `KeepsTime`: the events that are recorded at their own datetime.
* `turns_time_of_added`: the time that the run of a feed records for an event.
* `exists_feedStop_of_added`, `hasEventAt_iff`: the added events of a complete
  feed when nothing is stored.
-/

namespace Kirin
namespace Core

open FeedStop

/-- The number of events of its stop that come before an event. -/
def StopEvent.place : StopEvent → Nat
  | .arrival => 0
  | .departure => 1

/-- The events planned before one of the events of the stop of an index. -/
def earlierEvents (plan : List PlannedEvent) (i : Nat) (e : StopEvent) :
    List PlannedEvent :=
  plan.take (2 * i + e.place)

/--
The delay does not make an event late, no earlier event is planned after its
time, and one is planned at its time if the delay would make it early.
-/
structure KeepsTime (earlier : List PlannedEvent) (t : Datetime)
    (delay : Timedelta) : Prop where
  notLate : delay ≤ 0
  notPushed : ∀ l ∈ latest earlier, l ≤ t
  heldBack : delay < 0 → latest earlier = some t

section Push

variable {floor : Option Datetime} {t d : Int}

theorem add_eq_self_iff :
    t + d = t ↔ d = 0 := by
  omega

/-- A push makes up for a negative delay only. -/
theorem max_add_eq_iff
    {l : Int} :
    max l (t + d) = t ↔ d ≤ 0 ∧ l ≤ t ∧ (d < 0 → l = t) := by
  constructor
  · intro h
    refine ⟨?_, ?_, fun hneg => ?_⟩ <;> omega
  · rintro ⟨hle, hpush, hback⟩
    rcases hle.lt_or_eq with hneg | rfl
    · rw [hback hneg]
      omega
    · omega

theorem atLeast_add_eq_iff :
    atLeast floor (t + d) = t ↔
      d ≤ 0 ∧ (∀ l ∈ floor, l ≤ t) ∧ (d < 0 → floor = some t) := by
  cases floor with
  | none =>
      rw [atLeast_none]
      constructor
      · intro h
        have hzero : d = 0 := add_eq_self_iff.1 h
        exact ⟨hzero.le, nofun, fun hneg => absurd hzero hneg.ne⟩
      · rintro ⟨hle, -, hback⟩
        have hge : 0 ≤ d := not_lt.1 (fun hneg => nomatch hback hneg)
        exact add_eq_self_iff.2 (le_antisymm hle hge)
  | some l =>
      simp only [atLeast_some, Option.mem_some_iff, forall_eq',
        Option.some.injEq]
      exact max_add_eq_iff

/-- The events that keep their times are the ones recorded there. -/
theorem keepsTime_iff
    {earlier : List PlannedEvent} :
    KeepsTime earlier t d ↔ atLeast (latest earlier) (t + d) = t := by
  rw [atLeast_add_eq_iff]
  exact ⟨fun h => ⟨h.notLate, h.notPushed, h.heldBack⟩,
    fun h => ⟨h.1, h.2.1, h.2.2⟩⟩

end Push

/-- The latest time of some events, from an initial one on. -/
def latestFrom (last : Option Datetime) (events : List PlannedEvent) :
    Option Datetime :=
  events.foldl (fun last e => floorAfter last e.time) last

section Turn

variable (f : FeedStop) (c : Calendar) (last : Option Datetime)

/-- The departure of a recorded stop is the latest time planned so far. -/
theorem recorded_departure :
    (f.recorded c last).departure = latestFrom last (f.planned c) :=
  (builtStop_departure_eq _ _ _ _ _ _).trans (floorAfter_planned _ _ _).symm

/-- An added event is recorded at the floor that the earlier ones leave. -/
theorem recorded_time_of_added
    {e : StopEvent} {t : Datetime} (hadded : f.newSt.isStopEventAdded e = true)
    (ht : f.newSt.getStopEventTime e = some t) :
    (f.recorded c last).getStopEventTime e =
      some (atLeast (latestFrom last ((f.planned c).take e.place))
        (t + (f.newSt.getStopEventDelay e).getD 0)) := by
  have hinfo := fun base => congrArg UpdateInfo.time
    (eventInfo_of_added hadded base)
  simp only [ht, Option.map_some] at hinfo
  cases e with
  | arrival =>
      exact (builtStop_arrival_of_target _ _ _ _ _ _ (hinfo _)).1
  | departure =>
      obtain ⟨a, ha, hdeparture, -⟩ :=
        builtStop_departure_of_target (f.baseArrival c) (f.baseDeparture c) last
          f.newSt f.stopPoint f.order (hinfo _)
      have hfloor : latestFrom last ((f.planned c).take 1) = some a := by
        rw [← ha]
        have hplanned := hinfo (f.baseDeparture c)
        simp only [planned, builtStop, plannedArrival, pushedTime, hplanned,
          List.take_succ_cons, List.take_zero]
        cases (eventInfo f.newSt (f.baseArrival c) .arrival).time <;>
          simp [latestFrom, floorAfter]
      rw [StopEvent.place, hfloor]
      exact hdeparture

end Turn

theorem planned_length
    (f : FeedStop) (c : Calendar) :
    (f.planned c).length = 2 :=
  rfl

/-- The run of a feed records an added event at the latest time planned before. -/
theorem turns_time_of_added
    {c : Calendar} {last : Option Datetime} {fs : List FeedStop} {i : Nat}
    {f : FeedStop} {e : StopEvent} {t : Datetime} (hf : fs[i]? = some f)
    (hadded : f.newSt.isStopEventAdded e = true)
    (ht : f.newSt.getStopEventTime e = some t) :
    ∃ m, (turns c last fs)[i]? = some m ∧ m.resSt.order = f.order ∧
      m.resSt.getStopEventTime e =
        some (atLeast (latestFrom last (earlierEvents (plannedEvents c fs) i e))
          (t + (f.newSt.getStopEventDelay e).getD 0)) := by
  induction fs generalizing c last i with
  | nil =>
      cases hf
  | cons g fs ih =>
      cases i with
      | zero =>
          cases hf
          have hplace : e.place ≤ (f.planned c).length := by
            cases e <;> simp [StopEvent.place, planned_length]
          rw [earlierEvents, plannedEvents, Nat.mul_zero, Nat.zero_add,
            List.take_append_of_le_length hplace]
          exact ⟨f.turn c last, rfl, rfl, recorded_time_of_added f c last hadded ht⟩
      | succ i =>
          obtain ⟨m, hm, horder, htime⟩ :=
            @ih (g.nextCalendar c) (g.recorded c last).departure i hf
          refine ⟨m, hm, horder, ?_⟩
          have hsplit : earlierEvents (plannedEvents c (g :: fs)) (i + 1) e =
              g.planned c ++
                earlierEvents (plannedEvents (g.nextCalendar c) fs) i e := by
            have hindex : 2 * (i + 1) + e.place =
                (g.planned c).length + (2 * i + e.place) := by
              rw [planned_length]
              omega
            rw [earlierEvents, plannedEvents, hindex, List.take_length_add_append]
            rfl
          rw [htime, hsplit, recorded_departure]
          simp only [latestFrom, List.foldl_append]

/-- The stops of a complete feed that the merge goes through, nothing being stored. -/
def feedStops (new : NewTripUpdate) : List FeedStop :=
  resolvedStops new (yieldNextStopFromTripUpdate new none)

/-- The events that they plan. -/
def feedPlan (new : NewTripUpdate) : List PlannedEvent :=
  plannedEvents (startCalendar new.vj) (feedStops new)

/-- A list of stops has an event at a given time, at the stop of an order. -/
def HasEventAt (stus : List StopTimeUpdate) (order : Nat) (e : StopEvent)
    (t : Datetime) : Prop :=
  ∃ st ∈ stus, st.order = order ∧ st.getStopEventTime e = some t

section CompleteFeed

variable {navitiaVj : NavitiaVj} {new : NewTripUpdate}
variable {stops : List MergedStop} {hasChanges : Bool}

/-- The run of a complete feed over its stops. -/
theorem feedStops_turns
    (hindexed : Indexed new.stopTimeUpdates)
    (h : mergeStops navitiaVj none new true = .ok (stops, hasChanges)) :
    InFeed new 0 (feedStops new) ∧
      List.Forall₂ (Resolves new) (yieldNextStopFromTripUpdate new none)
        (feedStops new) ∧
      stops = turns (startCalendar new.vj) none (feedStops new) := by
  have hfits : FitsVj true navitiaVj new := ⟨hindexed, by simp⟩
  obtain ⟨fs, hfs, hin, hstops, -⟩ := fitsVj_turns hfits h
  have heq : feedStops new = fs := resolvedStops_eq hfs
  rw [heq]
  exact ⟨hin, hfs, hstops⟩

/-- A stop outside the vehicle journey with an added event is gone through. -/
theorem exists_feedStop_of_added
    (hindexed : Indexed new.stopTimeUpdates)
    (h : mergeStops navitiaVj none new true = .ok (stops, hasChanges))
    {order : Nat} {stu : StopTimeUpdate} {e : StopEvent}
    (hget : new.stopTimeUpdates[order]? = some stu)
    (hvj : findStInVj stu.stopId new.navitiaVj.stopTimes = none)
    (hadded : stu.isStopEventAdded e = true) :
    ∃ (i : Nat) (f : FeedStop),
      (feedStops new)[i]? = some f ∧ f.order = order ∧ f.newSt = stu := by
  obtain ⟨hin, hfs, -⟩ := feedStops_turns hindexed h
  have hkept : isKept none (0 + order) stu = true :=
    isKept_iff.2 ⟨e, hadded⟩
  have hmem := mem_yieldNextStopFrom.2
    ⟨order, stu, hget, Or.inr ⟨hvj, hkept, rfl⟩⟩
  obtain ⟨p, hp⟩ := mergeLoop_items_ok h _ hmem
  obtain ⟨fake, -, rfl⟩ := Checked.map_eq_ok.1 hp
  obtain ⟨f, hf, hresolves⟩ := RelatedLists.exists_of_mem_left hfs hmem
  have horder : f.order = order := by
    have hnext := hresolves.next_eq
    rw [hp] at hnext
    have hfst := congrArg Prod.fst (Except.ok.inj hnext)
    exact hfst.symm.trans (Nat.zero_add order)
  obtain ⟨i, hi⟩ := List.mem_iff_getElem?.1 hf
  refine ⟨i, f, hi, horder, ?_⟩
  have hnewSt := hin.newSt_eq f hf
  rw [horder, hget] at hnewSt
  exact (Option.some_inj.1 hnewSt).symm

/-- An added event is recorded at its own time when it keeps it. -/
theorem hasEventAt_iff
    (hindexed : Indexed new.stopTimeUpdates)
    (h : mergeStops navitiaVj none new true = .ok (stops, hasChanges))
    {i : Nat} {f : FeedStop} {e : StopEvent} {t : Datetime}
    (hf : (feedStops new)[i]? = some f)
    (hadded : f.newSt.isStopEventAdded e = true)
    (ht : f.newSt.getStopEventTime e = some t) :
    HasEventAt (stops.map MergedStop.resSt) f.order e t ↔
      KeepsTime (earlierEvents (feedPlan new) i e) t
        ((f.newSt.getStopEventDelay e).getD 0) := by
  obtain ⟨hin, -, hstops⟩ := feedStops_turns hindexed h
  obtain ⟨m, hm, horder, htime⟩ :=
    @turns_time_of_added (startCalendar new.vj) none _ _ _ _ _ hf hadded ht
  have hrecorded : m.resSt ∈ stops.map MergedStop.resSt := by
    rw [hstops]
    exact List.mem_map.2 ⟨m, List.mem_of_getElem? hm, rfl⟩
  have hnodup : ((stops.map MergedStop.resSt).map StopTimeUpdate.order).Nodup := by
    rw [hstops]
    exact List.pairwise_map.2
      ((hin.turns_increasing _ _).imp (fun hlt => hlt.ne))
  rw [keepsTime_iff]
  constructor
  · rintro ⟨st, hst, hsame, hat⟩
    have heq : st = m.resSt :=
      List.inj_on_of_nodup_map hnodup hst hrecorded (hsame.trans horder.symm)
    rw [heq, htime] at hat
    exact Option.some_inj.1 hat
  · intro hkeeps
    refine ⟨m.resSt, hrecorded, horder, ?_⟩
    rw [htime]
    exact congrArg some hkeeps

end CompleteFeed

end Core
end Kirin
