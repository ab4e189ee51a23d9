import Kirin.Core.MergeRaises

/-!
# Kirin: the additions of the merge

The datetimes of the language lie between the years 1 and 9999, and an addition that
leaves them raises.  The merge adds the delays of a feed to the times of a stop
outside the vehicle journey, to the base datetime of an updated event and to the
times of day that it compares, and a day to its date after midnight.

* `mergeInRange`: what a call of `merge` does when these additions raise.
* `mergeInRange_eq_or`: it does what `merge` does, or an addition raises.
* `AdditionsFit`: the additions made over the stops of a complete feed.
* `mergeInRange_handled_iff`: a merge returns or raises an exception of Kirin
  exactly when it keeps no stop without times and its additions fit.
-/

namespace Kirin
namespace Core

open Checked

/-- `if delay: time += delay` stays within the datetimes of the language. -/
def DelayFits (time : Option Datetime) (delay : Option Timedelta) : Prop :=
  ∀ t ∈ time, ∀ d ∈ delay, d ≠ 0 → Datetime.InRange (t + d)

/-- The additions of `makeFakeRealtimeStopTime` to the times of a feed. -/
def FakeFits (newStu : StopTimeUpdate) : Prop :=
  DelayFits (newStu.departure <|> newStu.arrival) newStu.departureDelay ∧
    DelayFits (newStu.arrival <|> newStu.departure) newStu.arrivalDelay

/-- The additions of `getUpdateInfoOfStopEvent`, from the base datetime of an event. -/
def UpdateFits
    (baseTime : Option Datetime) (inputSt : StopTimeUpdate) (e : StopEvent) :
    Prop :=
  (inputSt.getStopEventStatus e = .update →
      DelayFits baseTime (inputSt.getStopEventDelay e)) ∧
    (inputSt.isStopEventAdded e = true →
      DelayFits (inputSt.getStopEventTime e) (inputSt.getStopEventDelay e))

/-- The first of January 2000, the day on which times of day are compared. -/
def comparisonDate : Date :=
  10957

/-- The additions of `isPastMidnight`, which it makes when the time of day falls. -/
def ComparisonFits (prev next : TimeDelayTuple TimeOfDay) : Prop :=
  ∀ p ∈ prev.time, ∀ n ∈ next.time, n.micros < p.micros →
    Datetime.InRange (combine comparisonDate p + prev.delay) ∧
      Datetime.InRange (combine comparisonDate n + next.delay)

/-- The additions made for one event: those of the comparison, and the next day. -/
def Calendar.EventFits
    (c : Calendar) (served : Bool) (navTime : Option TimeOfDay)
    (delay : Timedelta) : Prop :=
  let event : TimeDelayTuple TimeOfDay := { time := navTime, delay := delay }
  served = true →
    ComparisonFits c.previousStopEvent event ∧
      (isPastMidnight c.previousStopEvent event = true →
        Datetime.InRange (combine (c.circulationDate + 1) midnight))

/-- The additions of one turn, given the events that are served. -/
def TurnFits
    (c : Calendar) (navitiaStop : StopTime) (served : StopEvent → Bool)
    (newSt : Option StopTimeUpdate) : Prop :=
  let delay := fun e => (newSt.bind (fun st => st.getStopEventDelay e)).getD 0
  let arrival :=
    c.stopEvent (served .arrival) navitiaStop.utcArrivalTime (delay .arrival)
  let departure :=
    arrival.2.stopEvent (served .departure) navitiaStop.utcDepartureTime
      (delay .departure)
  c.EventFits (served .arrival) navitiaStop.utcArrivalTime (delay .arrival) ∧
    arrival.2.EventFits (served .departure) navitiaStop.utcDepartureTime
      (delay .departure) ∧
    ∀ st ∈ newSt, UpdateFits departure.1 st .departure ∧
      UpdateFits arrival.1 st .arrival

section Decidable

instance (time : Option Datetime) (delay : Option Timedelta) :
    Decidable (DelayFits time delay) :=
  inferInstanceAs (Decidable (∀ t ∈ time, ∀ d ∈ delay, d ≠ 0 → _))

instance (newStu : StopTimeUpdate) : Decidable (FakeFits newStu) :=
  inferInstanceAs (Decidable (_ ∧ _))

instance (baseTime : Option Datetime) (inputSt : StopTimeUpdate) (e : StopEvent) :
    Decidable (UpdateFits baseTime inputSt e) :=
  inferInstanceAs (Decidable ((_ → _) ∧ (_ → _)))

instance (prev next : TimeDelayTuple TimeOfDay) :
    Decidable (ComparisonFits prev next) :=
  inferInstanceAs (Decidable (∀ p ∈ prev.time, ∀ n ∈ next.time, _ → _ ∧ _))

instance (c : Calendar) (served : Bool) (navTime : Option TimeOfDay)
    (delay : Timedelta) : Decidable (c.EventFits served navTime delay) :=
  inferInstanceAs (Decidable (served = true → _ ∧ (_ → _)))

instance (c : Calendar) (navitiaStop : StopTime) (served : StopEvent → Bool)
    (newSt : Option StopTimeUpdate) :
    Decidable (TurnFits c navitiaStop served newSt) :=
  inferInstanceAs (Decidable (_ ∧ _ ∧ ∀ st ∈ newSt, _ ∧ _))

end Decidable

/-- A base stop time for a stop outside the schedule, when its additions raise. -/
def makeFakeInRange
    (order : Nat) (spId : String) (newStu : StopTimeUpdate)
    (dbTripUpdate : Option TripUpdate) : Except PyException StopTime :=
  if FakeFits newStu then
    makeFakeRealtimeStopTime order spId newStu dbTripUpdate
  else .error .overflowError

/-- The stops of a complete feed, when the additions on them raise. -/
def yieldNextStopInRange
    (dbTripUpdate : Option TripUpdate) (vjSts : List StopTime) :
    Nat → List StopTimeUpdate →
    List (Except PyException (Nat × StopTime))
  | _, [] => []
  | order, newStu :: rest =>
      let next := yieldNextStopInRange dbTripUpdate vjSts (order + 1) rest
      match findStInVj newStu.stopId vjSts with
      | some vjSt => .ok (order, vjSt) :: next
      | none =>
          if isKept dbTripUpdate order newStu then
            (makeFakeInRange order newStu.stopId newStu dbTripUpdate).map
              (fun fake => (order, fake)) :: next
          else next

/-- One turn of the loop, when its additions raise. -/
def mergeStopInRange
    (db : Option TripUpdate) (new : NewTripUpdate)
    (st : MergeState) (navOrder : Nat) (navitiaStop : StopTime) :
    Except PyException (MergedStop × MergeState) :=
  let stopId := navitiaStop.stopId
  let newSt := new.findStop stopId navOrder
  let served := fun e =>
    isStopEventServed e stopId navOrder (some navitiaStop) db newSt
  if TurnFits st.calendar navitiaStop served newSt then
    mergeStop db new st navOrder navitiaStop
  else .error .overflowError

/-- The loop of `merge`, when its additions raise. -/
def mergeLoopInRange
    (db : Option TripUpdate) (new : NewTripUpdate) :
    MergeState → List (Except PyException (Nat × StopTime)) →
    Except PyException (List MergedStop × Bool)
  | st, [] => .ok ([], st.hasChanges)
  | st, next :: rest => do
      let (navOrder, navitiaStop) ← next
      let (stop, st) ← mergeStopInRange db new st navOrder navitiaStop
      let (stops, hasChanges) ← mergeLoopInRange db new st rest
      return (stop :: stops, hasChanges)

/-- The whole loop of `merge`, when its additions raise. -/
def mergeStopsInRange
    (navitiaVj : NavitiaVj) (db : Option TripUpdate) (new : NewTripUpdate)
    (isNewComplete : Bool) :
    Except PyException (List MergedStop × Bool) :=
  mergeLoopInRange db new (initialMergeState new.vj)
    (if isNewComplete then
      yieldNextStopInRange db new.navitiaVj.stopTimes 0 new.stopTimeUpdates
    else yieldNextStopFromBaseScheduleVj navitiaVj)

/-- What a call of `merge` does, when its additions raise. -/
def mergeInRange
    (navitiaVj : NavitiaVj) (dbTripUpdate : Option TripUpdate)
    (newTripUpdate : NewTripUpdate) (isNewComplete : Bool) :
    Except PyException Bool :=
  if newTripUpdate.status = .delete then .ok true
  else
    (mergeStopsInRange navitiaVj dbTripUpdate newTripUpdate isNewComplete).map
      Prod.snd

section Loop

variable {db : Option TripUpdate} {new : NewTripUpdate}

/-- A step does what it does without bounds, or an addition raises. -/
abbrev EqOrOverflows {α : Type} (x y : Except PyException α) : Prop :=
  x = y ∨ x = .error .overflowError

theorem makeFakeInRange_eq_or
    (order : Nat) (spId : String) (newStu : StopTimeUpdate)
    (db : Option TripUpdate) :
    EqOrOverflows (makeFakeInRange order spId newStu db)
      (makeFakeRealtimeStopTime order spId newStu db) :=
  ite_eq_or_eq _ _ _

theorem mergeStopInRange_eq_or
    (db : Option TripUpdate) (new : NewTripUpdate) (st : MergeState)
    (navOrder : Nat) (navitiaStop : StopTime) :
    EqOrOverflows (mergeStopInRange db new st navOrder navitiaStop)
      (mergeStop db new st navOrder navitiaStop) :=
  ite_eq_or_eq _ _ _

theorem yieldNextStopInRange_eq_or
    (db : Option TripUpdate) (vjSts : List StopTime) (j : Nat)
    (stus : List StopTimeUpdate) :
    List.Forall₂ EqOrOverflows (yieldNextStopInRange db vjSts j stus)
      (yieldNextStopFrom db vjSts j stus) := by
  induction stus generalizing j with
  | nil =>
      exact List.Forall₂.nil
  | cons newStu rest ih =>
      rw [yieldNextStopInRange]
      cases hvj : findStInVj newStu.stopId vjSts with
      | some vjSt =>
          rw [yieldNextStopFrom_found hvj]
          exact List.Forall₂.cons (Or.inl rfl) (ih (j + 1))
      | none =>
          cases hkept : isKept db j newStu with
          | true =>
              rw [yieldNextStopFrom_kept hvj hkept]
              refine List.Forall₂.cons ?_ (ih (j + 1))
              refine (makeFakeInRange_eq_or j newStu.stopId newStu db).imp ?_ ?_
              · exact fun heq => congrArg _ heq
              · exact fun heq => congrArg _ heq
          | false =>
              rw [yieldNextStopFrom_dropped hvj hkept]
              exact ih (j + 1)

/-- The loop does what it does without bounds, or an addition raises. -/
theorem mergeLoopInRange_eq_or
    {st : MergeState} {items items' : List (Except PyException (Nat × StopTime))}
    (h : List.Forall₂ EqOrOverflows items' items) :
    EqOrOverflows (mergeLoopInRange db new st items')
      (mergeLoop db new st items) := by
  induction h generalizing st with
  | nil =>
      exact Or.inl rfl
  | @cons next' next items' items hnext _ ih =>
      rcases hnext with rfl | rfl
      · cases next' with
        | error e =>
            exact Or.inl rfl
        | ok p =>
            rcases mergeStopInRange_eq_or db new st p.1 p.2 with hturn | hturn
            · cases hstop : mergeStop db new st p.1 p.2 with
              | error e =>
                  refine Or.inl ?_
                  simp [mergeLoopInRange, mergeLoop, hturn, hstop, bind, Except.bind]
              | ok q =>
                  have hrest : EqOrOverflows (mergeLoopInRange db new q.2 items')
                      (mergeLoop db new q.2 items) := ih
                  refine hrest.imp (fun hrest => ?_) (fun hrest => ?_)
                  · simp [mergeLoopInRange, mergeLoop, hturn, hstop, hrest, bind,
                      Except.bind]
                  · simp [mergeLoopInRange, hturn, hstop, hrest, bind, Except.bind]
            · exact Or.inr (by simp [mergeLoopInRange, hturn, bind, Except.bind])
      · exact Or.inr rfl

theorem mergeStopsInRange_eq_or
    (navitiaVj : NavitiaVj) (db : Option TripUpdate) (new : NewTripUpdate)
    (isNewComplete : Bool) :
    EqOrOverflows (mergeStopsInRange navitiaVj db new isNewComplete)
      (mergeStops navitiaVj db new isNewComplete) := by
  refine mergeLoopInRange_eq_or ?_
  cases isNewComplete with
  | true =>
      exact yieldNextStopInRange_eq_or db new.navitiaVj.stopTimes 0 _
  | false =>
      exact List.forall₂_same.2 (fun _ _ => Or.inl rfl)

/-- A call of `merge` does what it does without bounds, or an addition raises. -/
theorem mergeInRange_eq_or
    (navitiaVj : NavitiaVj) (db : Option TripUpdate) (new : NewTripUpdate)
    (isNewComplete : Bool) :
    EqOrOverflows (mergeInRange navitiaVj db new isNewComplete)
      (merge navitiaVj db new isNewComplete).returned := by
  have hheader : (mergeHeader db new isNewComplete).status = new.status := rfl
  unfold mergeInRange merge
  simp only [hheader]
  split
  · exact Or.inl rfl
  · rcases mergeStopsInRange_eq_or navitiaVj db new isNewComplete with heq | heq
    · refine Or.inl ?_
      rw [heq]
      cases mergeStops navitiaVj db new isNewComplete with
      | error e =>
          rfl
      | ok r =>
          obtain ⟨stops, hasChanges⟩ := r
          cases hasChanges <;> rfl
    · refine Or.inr ?_
      rw [heq]
      rfl

end Loop

/-- The additions of one turn over a stop about which the feed says something. -/
abbrev FeedTurnFits (c : Calendar) (navitiaStop : StopTime) (stu : StopTimeUpdate) :
    Prop :=
  TurnFits c navitiaStop (fun e => !stu.isStopEventDeleted e) (some stu)

/-- The calendar after a stop about which the feed says something. -/
def Calendar.afterStop
    (c : Calendar) (navitiaStop : StopTime) (stu : StopTimeUpdate) : Calendar :=
  let event := fun e (c : Calendar) =>
    c.stopEvent (!stu.isStopEventDeleted e) (navitiaStop.utcTime e)
      ((stu.getStopEventDelay e).getD 0)
  (event .departure (event .arrival c).2).2

/-- The additions made over the stops of a complete feed, from an order on. -/
def AdditionsFit (db : Option TripUpdate) (vjSts : List StopTime) :
    Nat → Calendar → List StopTimeUpdate → Prop
  | _, _, [] => True
  | order, c, stu :: rest =>
      match findStInVj stu.stopId vjSts with
      | some vjSt =>
          FeedTurnFits c vjSt stu ∧
            AdditionsFit db vjSts (order + 1) (c.afterStop vjSt stu) rest
      | none =>
          if isKept db order stu then
            FakeFits stu ∧
              ∀ fake,
                makeFakeRealtimeStopTime order stu.stopId stu db = .ok fake →
                FeedTurnFits c fake stu ∧
                  AdditionsFit db vjSts (order + 1) (c.afterStop fake stu) rest
          else AdditionsFit db vjSts (order + 1) c rest

section CompleteFeed

variable {db : Option TripUpdate} {new : NewTripUpdate} {st : MergeState}
variable {order : Nat} {s : StopTime} {stu : StopTimeUpdate}

/-- A turn over a stop of the feed, whose update carries its delays. -/
theorem mergeStop_of_delays
    (db : Option TripUpdate) (st : MergeState)
    (hindexed : Indexed new.stopTimeUpdates)
    (hget : new.stopTimeUpdates[order]? = some stu)
    (hid : s.stopId = some stu.stopId) (hdelays : CarriesDelays stu) :
    ∃ m st', mergeStop db new st order s = .ok (m, st') ∧
      st'.calendar = st.calendar.afterStop s stu := by
  obtain ⟨f, hf, rfl, rfl, -⟩ := resolves_of_stopId hindexed hget hid
  have hs : f.navitiaStop = s := by
    have hnext := hf.next_eq
    cases hnext
    rfl
  subst hs
  rw [mergeStop_eq db st hf, makeStopTimeUpdate_of_delays _ _ _ hdelays]
  exact ⟨_, _, rfl, rfl⟩

/-- A turn over a stop of the feed raises when its additions do not fit. -/
theorem mergeStopInRange_of_feed
    (db : Option TripUpdate) (st : MergeState)
    (hindexed : Indexed new.stopTimeUpdates)
    (hget : new.stopTimeUpdates[order]? = some stu)
    (hid : s.stopId = some stu.stopId) :
    mergeStopInRange db new st order s =
      if FeedTurnFits st.calendar s stu then mergeStop db new st order s
      else .error .overflowError := by
  obtain ⟨f, hf, rfl, rfl, hfid⟩ := resolves_of_stopId hindexed hget hid
  have hnew : new.findStop s.stopId f.order = some f.newSt := by
    rw [hid, ← hfid]
    exact hf.newSt_eq
  simp only [mergeStopInRange, hnew, isStopEventServed]

/-- Both loops go on after a turn, one of them when its additions fit. -/
theorem loops_after_turn
    (db : Option TripUpdate) (st : MergeState)
    {items items' : List (Except PyException (Nat × StopTime))}
    (hindexed : Indexed new.stopTimeUpdates)
    (hget : new.stopTimeUpdates[order]? = some stu)
    (hid : s.stopId = some stu.stopId) (hdelays : CarriesDelays stu) :
    ∃ st' : MergeState, st'.calendar = st.calendar.afterStop s stu ∧
      ((∃ r, mergeLoop db new st (.ok (order, s) :: items) = .ok r) ↔
        ∃ r, mergeLoop db new st' items = .ok r) ∧
      ((∃ r, mergeLoopInRange db new st (.ok (order, s) :: items') = .ok r) ↔
        FeedTurnFits st.calendar s stu ∧
          ∃ r, mergeLoopInRange db new st' items' = .ok r) := by
  obtain ⟨m, st', hturn, hcalendar⟩ :=
    mergeStop_of_delays db st hindexed hget hid hdelays
  refine ⟨st', hcalendar, ?_, ?_⟩
  · have hloop : mergeLoop db new st (.ok (order, s) :: items) =
        mergeLoop db new st' items >>= fun r => pure (m :: r.1, r.2) := by
      simp only [mergeLoop, hturn, bind, Except.bind]
    rw [hloop]
    exact exists_bind_pure_eq_ok
  · have hcheck := mergeStopInRange_of_feed db st hindexed hget hid
    by_cases hfits : FeedTurnFits st.calendar s stu
    · rw [if_pos hfits, hturn] at hcheck
      have hloop : mergeLoopInRange db new st (.ok (order, s) :: items') =
          mergeLoopInRange db new st' items' >>= fun r => pure (m :: r.1, r.2) := by
        simp only [mergeLoopInRange, hcheck, bind, Except.bind]
      rw [hloop, and_iff_right hfits]
      exact exists_bind_pure_eq_ok
    · rw [if_neg hfits] at hcheck
      refine iff_of_false ?_ (fun h => hfits h.1)
      rintro ⟨r, hr⟩
      simp only [mergeLoopInRange, hcheck, bind, Except.bind] at hr
      cases hr

/-- The loop over a complete feed returns when its additions fit. -/
theorem mergeLoopInRange_ok_iff
    (db : Option TripUpdate) (st : MergeState)
    (hindexed : Indexed new.stopTimeUpdates) (hdelays : FeedCarriesDelays new)
    (vjSts : List StopTime) {j : Nat} {stus : List StopTimeUpdate}
    (hstus : new.stopTimeUpdates.drop j = stus) :
    (∃ r, mergeLoopInRange db new st (yieldNextStopInRange db vjSts j stus) =
        .ok r) ↔
      (∃ r, mergeLoop db new st (yieldNextStopFrom db vjSts j stus) = .ok r) ∧
        AdditionsFit db vjSts j st.calendar stus := by
  induction stus generalizing j st with
  | nil =>
      simp [yieldNextStopInRange, yieldNextStopFrom, mergeLoopInRange, mergeLoop,
        AdditionsFit]
  | cons stu rest ih =>
      obtain ⟨hget, hrest⟩ := drop_eq_cons hstus
      have hstu := hdelays stu (List.mem_of_getElem? hget)
      have hturn : ∀ s : StopTime, s.stopId = some stu.stopId →
          ((∃ r, mergeLoopInRange db new st
              (.ok (j, s) :: yieldNextStopInRange db vjSts (j + 1) rest) = .ok r) ↔
            (∃ r, mergeLoop db new st
              (.ok (j, s) :: yieldNextStopFrom db vjSts (j + 1) rest) = .ok r) ∧
            FeedTurnFits st.calendar s stu ∧
              AdditionsFit db vjSts (j + 1) (st.calendar.afterStop s stu) rest) := by
        intro s hid
        obtain ⟨st', hcalendar, hloop, hchecked⟩ :=
          loops_after_turn db st hindexed hget hid hstu
        rw [hloop, hchecked, ih _ hrest, hcalendar]
        exact and_left_comm
      rw [yieldNextStopInRange, AdditionsFit]
      cases hvj : findStInVj stu.stopId vjSts with
      | some vjSt =>
          rw [yieldNextStopFrom_found hvj]
          exact hturn vjSt (findStInVj_stopId hvj)
      | none =>
          cases hkept : isKept db j stu with
          | true =>
              simp only [if_true, yieldNextStopFrom_kept hvj hkept, makeFakeInRange]
              by_cases hfits : FakeFits stu
              · rw [if_pos hfits, and_iff_right hfits]
                cases hfake : makeFakeRealtimeStopTime j stu.stopId stu db with
                | error e =>
                    refine iff_of_false ?_ (fun h => ?_)
                    · rintro ⟨r, hr⟩
                      cases hr
                    · obtain ⟨⟨r, hr⟩, -⟩ := h
                      cases hr
                | ok fake =>
                    refine (hturn fake (makeFakeRealtimeStopTime_stopId hfake)).trans ?_
                    refine and_congr_right' ⟨fun h fake' heq => ?_, fun h => h fake rfl⟩
                    cases heq
                    exact h
              · rw [if_neg hfits]
                refine iff_of_false ?_ (fun h => hfits h.2.1)
                rintro ⟨r, hr⟩
                cases hr
          | false =>
              rw [yieldNextStopFrom_dropped hvj hkept]
              exact ih st hrest

/-- A merge that raises nothing but its own exceptions is handled when it returns. -/
theorem handled_iff_of_crashes
    {α : Type} {x : Except PyException α} (h : Crashes x) :
    Handled x ↔ ∃ a, x = .ok a := by
  cases x with
  | error e =>
      simp [h e rfl]
  | ok a =>
      simp

theorem mergeStopsInRange_crashes
    (navitiaVj : NavitiaVj) (db : Option TripUpdate) (new : NewTripUpdate)
    (isNewComplete : Bool) :
    Crashes (mergeStopsInRange navitiaVj db new isNewComplete) := by
  rcases mergeStopsInRange_eq_or navitiaVj db new isNewComplete with heq | heq
  · rw [heq]
    exact mergeStops_crashes _ _ _ _
  · rw [heq]
    exact raisesOnly_error.2 rfl

/--
The merge of a complete feed whose updates carry their delays returns or raises
an exception of Kirin when it keeps no stop without times and its additions fit.
-/
theorem mergeInRange_handled_iff
    (navitiaVj : NavitiaVj) (hstatus : new.status ≠ .delete)
    (hindexed : Indexed new.stopTimeUpdates) (hdelays : FeedCarriesDelays new) :
    Handled (mergeInRange navitiaVj db new true) ↔
      (∀ (order : Nat) (newStu : StopTimeUpdate),
        new.stopTimeUpdates[order]? = some newStu →
        findStInVj newStu.stopId new.navitiaVj.stopTimes = none →
        isKept db order newStu = true → ¬Timeless db order newStu) ∧
      AdditionsFit db new.navitiaVj.stopTimes 0 (initialMergeState new.vj).calendar
        new.stopTimeUpdates := by
  have hreturns := mergeLoopInRange_ok_iff db (initialMergeState new.vj) hindexed
    hdelays new.navitiaVj.stopTimes List.drop_zero
  have hcrashes := mergeStopsInRange_crashes navitiaVj db new true
  rw [← yieldNextStopFromTripUpdate_ok_iff,
    ← mergeStops_ok_iff navitiaVj hindexed hdelays, mergeInRange, if_neg hstatus,
    Handled, raisesOnly_map]
  exact (handled_iff_of_crashes hcrashes).trans hreturns

end CompleteFeed

end Core
end Kirin
