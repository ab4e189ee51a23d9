import Kirin.Core.FeedRun

/-!
# Kirin: what the merge of a complete feed raises

The merge raises no exception of Kirin by itself.  When the updates of a complete
feed carry their delays, what remains is the stop time that has to be made for a
stop outside the vehicle journey, of which neither the feed nor the database
gives the times.

* `Timeless`: a stop of which no stop time can be made.
* `makeFakeRealtimeStopTime_ok_iff`: these are the ones that raise.
* `processTripUpdate_crashes`: the processing of a trip update raises nothing
  that Kirin answers a request with.
* `mergeStops_ok_iff`, `yieldNextStopFromTripUpdate_ok_iff`: the loop over a complete
  feed returns exactly when it keeps no such stop.
-/

namespace Kirin
namespace Core

open Checked

/-- The exceptions that Kirin answers a request with. -/
def isKirinException : PyException → Bool
  | .messageNotPublished => true
  | .invalidArguments _ => true
  | .objectNotFound _ => true
  | .unsupportedValue _ => true
  | _ => false

/-- A computation returns or raises an exception of Kirin. -/
abbrev Handled {α : Type} (x : Except PyException α) : Prop :=
  RaisesOnly (fun e => isKirinException e = true) x

/-- A computation returns or raises an exception that is not one of Kirin. -/
abbrev Crashes {α : Type} (x : Except PyException α) : Prop :=
  RaisesOnly (fun e => isKirinException e = false) x

/-- The stored stop that a stop of a feed is about. -/
def storedStop (db : Option TripUpdate) (order : Nat)
    (newStu : StopTimeUpdate) : Option StopTimeUpdate :=
  db.bind (fun db => db.findStop (some newStu.stopId) order)

/-- Neither the feed nor the database gives the times of a stop. -/
def Timeless (db : Option TripUpdate) (order : Nat) (newStu : StopTimeUpdate) :
    Prop :=
  newStu.departure = none ∧ newStu.arrival = none ∧
    ∀ stu ∈ storedStop db order newStu, stu.departure = none ∨ stu.arrival = none

section Fake

variable {db : Option TripUpdate} {order : Nat} {newStu : StopTimeUpdate}

theorem timeOf_crashes
    (time : Option Datetime) :
    Crashes (timeOf time) := by
  cases time with
  | none =>
      exact raisesOnly_error.2 rfl
  | some t =>
      exact raisesOnly_ok _ _

theorem addTruthyDelay_crashes
    (time : Option Datetime) (delay : Option Timedelta) :
    Crashes (addTruthyDelay time delay) := by
  unfold addTruthyDelay
  split
  · exact raisesOnly_ok _ _
  · split
    · exact raisesOnly_ok _ _
    · split
      · exact raisesOnly_ok _ _
      · exact raisesOnly_error.2 rfl

/-- The times of the feed, which one of them is enough to give. -/
theorem fakeDatetimes_ofFeed
    {stu : Option StopTimeUpdate}
    (h : ¬(newStu.departure = none ∧ newStu.arrival = none)) :
    ∃ departure arrival,
      fakeDatetimes stu newStu = .ok (some departure, some arrival) := by
  have hadd : ∀ (t : Datetime) (delay : Option Timedelta),
      ∃ t', addTruthyDelay (some t) delay = .ok (some t') := by
    intro t delay
    unfold addTruthyDelay
    split
    · exact ⟨t, rfl⟩
    · split
      · exact ⟨t, rfl⟩
      · exact ⟨_, rfl⟩
  have htimes : ∃ d a, (newStu.departure <|> newStu.arrival) = some d ∧
      (newStu.arrival <|> newStu.departure) = some a := by
    cases hd : newStu.departure with
    | none =>
        cases ha : newStu.arrival with
        | none =>
            exact absurd ⟨hd, ha⟩ h
        | some a =>
            exact ⟨a, a, rfl, rfl⟩
    | some d =>
        cases ha : newStu.arrival with
        | none =>
            exact ⟨d, d, rfl, rfl⟩
        | some a =>
            exact ⟨d, a, rfl, rfl⟩
  obtain ⟨d, a, hd, ha⟩ := htimes
  obtain ⟨d', hd'⟩ := hadd d newStu.departureDelay
  obtain ⟨a', ha'⟩ := hadd a newStu.arrivalDelay
  have hnone : (newStu.departure.isNone && newStu.arrival.isNone) = false := by
    rw [Bool.and_eq_false_imp]
    intro hdeparture
    cases harrival : newStu.arrival with
    | none =>
        exact absurd ⟨Option.isNone_iff_eq_none.1 hdeparture, harrival⟩ h
    | some a =>
        rfl
  refine ⟨d', a', ?_⟩
  unfold fakeDatetimes
  cases stu with
  | none =>
      simp [hd, ha, hd', ha', bind, Except.bind, pure, Except.pure]
  | some stu =>
      simp [hnone, hd, ha, hd', ha', bind, Except.bind, pure, Except.pure]

theorem fakeDatetimes_crashes
    (stu : Option StopTimeUpdate) (newStu : StopTimeUpdate) :
    Crashes (fakeDatetimes stu newStu) := by
  have hfeed : Crashes (do
      let departure ← addTruthyDelay (newStu.departure <|> newStu.arrival)
        newStu.departureDelay
      let arrival ← addTruthyDelay (newStu.arrival <|> newStu.departure)
        newStu.arrivalDelay
      return (departure, arrival)) := by
    refine raisesOnly_bind.2 ⟨addTruthyDelay_crashes _ _, fun departure _ => ?_⟩
    exact raisesOnly_bind.2
      ⟨addTruthyDelay_crashes _ _, fun arrival _ => raisesOnly_pure _ _⟩
  unfold fakeDatetimes
  split
  · split
    · exact raisesOnly_ok _ _
    · exact hfeed
  · exact hfeed

theorem makeFakeRealtimeStopTime_crashes
    (order : Nat) (spId : String) (newStu : StopTimeUpdate)
    (db : Option TripUpdate) :
    Crashes (makeFakeRealtimeStopTime order spId newStu db) := by
  refine raisesOnly_bind.2 ⟨fakeDatetimes_crashes _ _, fun times _ => ?_⟩
  refine raisesOnly_bind.2 ⟨timeOf_crashes _, fun departure _ => ?_⟩
  exact raisesOnly_bind.2 ⟨timeOf_crashes _, fun arrival _ => raisesOnly_pure _ _⟩

/-- A stop time is made when both of its times are found. -/
theorem makeFakeRealtimeStopTime_ok_iff_times :
    (∃ st, makeFakeRealtimeStopTime order newStu.stopId newStu db = .ok st) ↔
      ∃ departure arrival,
        fakeDatetimes (storedStop db order newStu) newStu =
          .ok (some departure, some arrival) := by
  simp only [makeFakeRealtimeStopTime, storedStop]
  cases fakeDatetimes
      (db.bind (fun db => db.findStop (some newStu.stopId) order)) newStu with
  | error e =>
      simp [bind, Except.bind]
  | ok times =>
      obtain ⟨departure, arrival⟩ := times
      cases departure <;> cases arrival <;>
        simp [timeOf, bind, Except.bind, pure, Except.pure]

/-- A stop time can be made of the stops that are not without times. -/
theorem makeFakeRealtimeStopTime_ok_iff :
    (∃ st, makeFakeRealtimeStopTime order newStu.stopId newStu db = .ok st) ↔
      ¬Timeless db order newStu := by
  rw [makeFakeRealtimeStopTime_ok_iff_times, Timeless]
  by_cases hnone : newStu.departure = none ∧ newStu.arrival = none
  · cases hstored : storedStop db order newStu with
    | none =>
        have hstored : ∀ stu ∈ (none : Option StopTimeUpdate),
            stu.departure = none ∨ stu.arrival = none := by
          intro stu hstu
          cases hstu
        refine iff_of_false ?_ (fun h => h ⟨hnone.1, hnone.2, hstored⟩)
        rintro ⟨d, a, htimes⟩
        simp only [fakeDatetimes, hnone.1, hnone.2, Checked.bind_eq_ok] at htimes
        obtain ⟨d', hd', a', -, hpair⟩ := htimes
        cases hpair
        unfold addTruthyDelay at hd'
        grind
    | some stu =>
        simp only [fakeDatetimes, hnone.1, hnone.2, Option.isNone_none,
          Bool.and_self, if_true, Except.ok.injEq, Prod.mk.injEq, true_and,
          Option.mem_some_iff, forall_eq']
        cases stu.departure <;> cases stu.arrival <;> simp
  · exact iff_of_true (fakeDatetimes_ofFeed hnone)
      (fun h => hnone ⟨h.1, h.2.1⟩)

end Fake

section Loop

theorem pushToFloor_crashes
    (floor time : Option Datetime) (delay : Option Timedelta) :
    Crashes (pushToFloor floor time delay) := by
  unfold pushToFloor
  split
  · split
    · split
      · exact raisesOnly_ok _ _
      · exact raisesOnly_error.2 rfl
    · exact raisesOnly_ok _ _
  · exact raisesOnly_ok _ _

theorem makeStopTimeUpdate_crashes
    (ba bd last : Option Datetime) (inputSt : StopTimeUpdate) (sp : StopPoint)
    (order : Nat) :
    Crashes (makeStopTimeUpdate ba bd last inputSt sp order) := by
  refine raisesOnly_bind.2 ⟨pushToFloor_crashes _ _ _, fun arrival _ => ?_⟩
  exact raisesOnly_bind.2
    ⟨pushToFloor_crashes _ _ _, fun departure _ => raisesOnly_pure _ _⟩

theorem getStopPoint_crashes
    (s : StopTime) :
    Crashes s.getStopPoint := by
  unfold StopTime.getStopPoint
  split
  · exact raisesOnly_ok _ _
  · exact raisesOnly_error.2 rfl

theorem chooseStop_crashes
    (db : Option TripUpdate) (newSt : Option StopTimeUpdate) (st : MergeState)
    (navOrder : Nat) (navitiaStop : StopTime) (ba bd : Option Datetime) :
    Crashes (chooseStop db newSt st navOrder navitiaStop ba bd) := by
  have hmake : ∀ inputSt : StopTimeUpdate, ∀ sp,
      Crashes (makeStopTimeUpdate ba bd st.lastDeparture inputSt sp navOrder) :=
    fun inputSt sp => makeStopTimeUpdate_crashes ba bd _ inputSt sp navOrder
  unfold chooseStop
  split
  · refine raisesOnly_bind.2 ⟨getStopPoint_crashes _, fun sp _ => ?_⟩
    refine raisesOnly_bind.2 ⟨hmake _ sp, fun stu _ => ?_⟩
    split
    · split
      · exact raisesOnly_pure _ _
      · exact raisesOnly_pure _ _
    · exact raisesOnly_pure _ _
  · refine raisesOnly_bind.2 ⟨getStopPoint_crashes _, fun sp _ => ?_⟩
    exact raisesOnly_bind.2 ⟨hmake _ sp, fun stu _ => raisesOnly_pure _ _⟩
  · split
    · exact raisesOnly_pure _ _
    · exact raisesOnly_bind.2
        ⟨getStopPoint_crashes _, fun sp _ => raisesOnly_pure _ _⟩
  · exact raisesOnly_bind.2
      ⟨getStopPoint_crashes _, fun sp _ => raisesOnly_pure _ _⟩

theorem mergeStop_crashes
    (db : Option TripUpdate) (new : NewTripUpdate) (st : MergeState)
    (navOrder : Nat) (navitiaStop : StopTime) :
    Crashes (mergeStop db new st navOrder navitiaStop) :=
  raisesOnly_bind.2
    ⟨chooseStop_crashes _ _ _ _ _ _ _, fun _ _ => raisesOnly_pure _ _⟩

/-- The loop raises no exception of Kirin, unless one of its stops does. -/
theorem mergeLoop_crashes
    {db : Option TripUpdate} {new : NewTripUpdate} {st : MergeState}
    {items : List (Except PyException (Nat × StopTime))}
    (hitems : ∀ next ∈ items, Crashes next) :
    Crashes (mergeLoop db new st items) := by
  induction items generalizing st with
  | nil =>
      exact raisesOnly_ok _ _
  | cons next items ih =>
      rw [List.forall_mem_cons] at hitems
      refine raisesOnly_bind.2 ⟨hitems.1, fun p _ => ?_⟩
      refine raisesOnly_bind.2 ⟨mergeStop_crashes _ _ _ _ _, fun q _ => ?_⟩
      exact raisesOnly_bind.2 ⟨ih hitems.2, fun r _ => raisesOnly_pure _ _⟩

theorem yieldNextStopFrom_crashes
    {db : Option TripUpdate} {vjSts : List StopTime} {j : Nat}
    {stus : List StopTimeUpdate} :
    ∀ next ∈ yieldNextStopFrom db vjSts j stus, Crashes next := by
  intro next hnext
  obtain ⟨i, newStu, -, ⟨vjSt, -, rfl⟩ | ⟨-, -, rfl⟩⟩ :=
    mem_yieldNextStopFrom.1 hnext
  · exact raisesOnly_ok _ _
  · exact raisesOnly_map.2 (makeFakeRealtimeStopTime_crashes _ _ _ _)

/-- The loop of a feed, complete or not, raises no exception of Kirin. -/
theorem mergeStops_crashes
    (navitiaVj : NavitiaVj) (db : Option TripUpdate) (new : NewTripUpdate)
    (isNewComplete : Bool) :
    Crashes (mergeStops navitiaVj db new isNewComplete) := by
  cases isNewComplete with
  | true =>
      exact mergeLoop_crashes yieldNextStopFrom_crashes
  | false =>
      refine mergeLoop_crashes (fun next hnext => ?_)
      obtain ⟨i, hi, rfl⟩ := List.mem_mapIdx.1 hnext
      exact raisesOnly_ok _ _

/-- Neither does the processing of a trip update. -/
theorem processTripUpdate_crashes
    {b : Builder} {old : Option TripUpdate} {new : NewTripUpdate}
    {e : PyException} (h : (processTripUpdate b old new).linked = .error e) :
    isKirinException e = false := by
  by_cases hstatus : new.status = .delete
  · rw [processTripUpdate_cancelled hstatus] at h
    cases h
  cases hstops : mergeStops new.navitiaVj old new b.isNewComplete with
  | ok r =>
      rw [processTripUpdate_linked hstatus hstops] at h
      cases h
  | error e' =>
      rw [processTripUpdate_error hstatus hstops] at h
      cases h
      exact mergeStops_crashes _ _ _ _ e hstops

end Loop

section CompleteFeed

variable {new : NewTripUpdate} {db : Option TripUpdate}

/-- The loop over a complete feed returns when its stops can be gone through. -/
theorem mergeStops_ok_iff
    (navitiaVj : NavitiaVj) (hindexed : Indexed new.stopTimeUpdates)
    (hdelays : FeedCarriesDelays new) :
    (∃ r, mergeStops navitiaVj db new true = .ok r) ↔
      ∀ next ∈ yieldNextStopFromTripUpdate new db, ∃ p, next = .ok p := by
  constructor
  · rintro ⟨r, hr⟩
    exact mergeLoop_items_ok hr
  · intro hok
    obtain ⟨fs, hfs, hin⟩ :=
      yieldNextStopFrom_resolves hindexed new.navitiaVj.stopTimes List.drop_zero
        hok
    have hcarries : ∀ f ∈ fs, CarriesDelays f.newSt := by
      intro f hf
      exact hdelays f.newSt (List.mem_of_getElem? (hin.newSt_eq f hf))
    rw [mergeStops, if_pos rfl, yieldNextStopFromTripUpdate,
      mergeLoop_eq db _ hfs, tryTurns_of_delays _ _ hcarries]
    exact ⟨_, rfl⟩

/-- All the stops can be gone through when none that is kept is without times. -/
theorem yieldNextStopFromTripUpdate_ok_iff :
    (∀ next ∈ yieldNextStopFromTripUpdate new db, ∃ p, next = .ok p) ↔
      ∀ (order : Nat) (newStu : StopTimeUpdate),
        new.stopTimeUpdates[order]? = some newStu →
        findStInVj newStu.stopId new.navitiaVj.stopTimes = none →
        isKept db order newStu = true → ¬Timeless db order newStu := by
  constructor
  · intro h order newStu hget hvj hkept
    have hmem := mem_yieldNextStopFrom (j := 0).2
      ⟨order, newStu, hget, Or.inr ⟨hvj, by rwa [Nat.zero_add], rfl⟩⟩
    obtain ⟨p, hp⟩ := h _ hmem
    obtain ⟨fake, hfake, -⟩ := map_eq_ok.1 hp
    rw [Nat.zero_add] at hfake
    exact makeFakeRealtimeStopTime_ok_iff.1 ⟨fake, hfake⟩
  · intro h next hnext
    obtain ⟨i, newStu, hget, ⟨vjSt, -, rfl⟩ | ⟨hvj, hkept, rfl⟩⟩ :=
      mem_yieldNextStopFrom.1 hnext
    · exact ⟨_, rfl⟩
    · rw [Nat.zero_add] at hkept
      obtain ⟨fake, hfake⟩ :=
        makeFakeRealtimeStopTime_ok_iff.2 (h i newStu hget hvj hkept)
      rw [Nat.zero_add, hfake]
      exact ⟨_, rfl⟩

end CompleteFeed

end Core
end Kirin
