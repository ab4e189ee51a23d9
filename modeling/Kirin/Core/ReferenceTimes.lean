import Kirin.Core.KeptStops

/-!
# Kirin: the reference times of the recorded stops

An event that the feed does not add is recorded at its reference time, moved by
its delay and by its push, and the delay that is recorded counts both.  The
reference time of an event can therefore be read back from the stop that is
recorded for it, and runs that leave the same stops have read the same reference
times.

* `recorded_time`: the recorded time less the recorded delay is the reference.
* `StoredAs`: a recorded stop is stored, as it is or with its delays filled.
* `reference_unique`: two runs that are stored alike read the same references.
* `makeFakeRealtimeStopTime_stored`: the reference times of a stop outside the
  vehicle journey are those of the stored stop when the feed gives none.
-/

namespace Kirin
namespace Core

open FeedStop

section Recorded

theorem pushed_by_delay
    (f t d : Int) :
    f = t - d + (d + (f - t)) := by
  omega

/-- A push that succeeds moves the time as it moves the delay. -/
theorem pushToFloor_time
    {floor t' : Option Datetime} {t : Datetime}
    {delay d' : Option Timedelta}
    (h : pushToFloor floor (some t) delay = .ok (t', d')) :
    t' = some (t - delay.getD 0 + d'.getD 0) := by
  cases floor with
  | none =>
      cases h
      rw [Int.sub_add_cancel]
  | some f =>
      simp only [pushToFloor] at h
      split at h
      · cases delay with
        | none =>
            cases h
        | some d =>
            cases h
            exact congrArg some (pushed_by_delay f t d)
      · cases h
        rw [Int.sub_add_cancel]

/-- An event that is neither added nor removed is planned at its base datetime. -/
theorem eventInfo_time
    {st : StopTimeUpdate} {e : StopEvent}
    (hadded : st.isStopEventAdded e = false)
    (hserved : st.isStopEventDeleted e = false) (base : Option Datetime) :
    (eventInfo st base e).time =
      base.map (fun t => t + (eventInfo st base e).delay.getD 0) := by
  cases hstatus : st.getStopEventStatus e with
  | none =>
      rw [eventInfo_of_none hstatus]
      cases base <;> simp
  | update =>
      rw [eventInfo_of_update hstatus]
  | add | addedForDetour =>
      simp [StopTimeUpdate.isStopEventAdded, hstatus,
        ModificationType.isAdded] at hadded
  | delete | deletedForDetour =>
      simp [StopTimeUpdate.isStopEventDeleted, hstatus,
        ModificationType.isDeleted] at hserved

variable {f : FeedStop} {c : Calendar} {last : Option Datetime}
variable {resSt : StopTimeUpdate}

/-- The base datetime of a served event has its time of day. -/
theorem event_served
    {e : StopEvent} {t : TimeOfDay}
    (hserved : f.newSt.isStopEventDeleted e = false)
    (ht : f.navitiaStop.utcTime e = some t) (c : Calendar) :
    ∃ d : Date, (f.event e c).1 = some (combine d t) := by
  simp only [FeedStop.event, Calendar.stopEvent, hserved, ht, Bool.not_false,
    if_true]
  exact ⟨_, rfl⟩

/-- The recorded time of an event less its recorded delay is its reference. -/
theorem recorded_time
    (hmake : makeStopTimeUpdate (f.baseArrival c) (f.baseDeparture c) last
      f.newSt f.stopPoint f.order = .ok resSt)
    {e : StopEvent} (hadded : f.newSt.isStopEventAdded e = false)
    (hserved : f.newSt.isStopEventDeleted e = false) {t : TimeOfDay}
    (ht : f.navitiaStop.utcTime e = some t) :
    ∃ d : Date, resSt.getStopEventTime e =
      some (combine d t + (resSt.getStopEventDelay e).getD 0) := by
  obtain ⟨⟨arrTime, arrDelay⟩, harr, hrest⟩ := Checked.bind_eq_ok.1 hmake
  obtain ⟨⟨depTime, depDelay⟩, hdep, hmade⟩ := Checked.bind_eq_ok.1 hrest
  rw [Checked.pure_eq_ok] at hmade
  subst hmade
  have hplanned := eventInfo_time hadded hserved
  cases e with
  | arrival =>
      obtain ⟨d, hbase⟩ := event_served hserved ht c
      have htime := hplanned (f.baseArrival c)
      simp only [FeedStop.baseArrival, eventInfo, hbase, Option.map_some]
        at htime harr
      simp only [htime, Option.orElse_eq_orElse, Option.orElse_some] at harr
      refine ⟨d, ?_⟩
      simp only [StopTimeUpdate.getStopEventTime,
        StopTimeUpdate.getStopEventDelay, pushToFloor_time harr]
      rw [Int.add_sub_cancel]
  | departure =>
      obtain ⟨d, hbase⟩ := event_served hserved ht (f.event .arrival c).2
      have htime := hplanned (f.baseDeparture c)
      simp only [FeedStop.baseDeparture, eventInfo, hbase, Option.map_some]
        at htime hdep
      simp only [htime, Option.orElse_eq_orElse, Option.orElse_some] at hdep
      refine ⟨d, ?_⟩
      simp only [StopTimeUpdate.getStopEventTime,
        StopTimeUpdate.getStopEventDelay, pushToFloor_time hdep]
      rw [Int.add_sub_cancel]

/-- A run that does not raise records each of its stops. -/
theorem tryTurns_makes
    {fs : List FeedStop} {stops : List MergedStop}
    (h : tryTurns c last fs = .ok stops) (hf : f ∈ fs) :
    ∃ c' last', ∃ resSt ∈ stops.map MergedStop.resSt,
      makeStopTimeUpdate (f.baseArrival c') (f.baseDeparture c') last' f.newSt
        f.stopPoint f.order = .ok resSt := by
  induction fs generalizing c last stops with
  | nil =>
      cases hf
  | cons g fs ih =>
      obtain ⟨made, hmake, htail⟩ := Checked.bind_eq_ok.1 h
      obtain ⟨rest, hrest, hstops⟩ := Checked.bind_eq_ok.1 htail
      rw [Checked.pure_eq_ok] at hstops
      subst hstops
      rcases List.mem_cons.1 hf with rfl | hlater
      · exact ⟨c, last, made, List.mem_cons_self, hmake⟩
      · obtain ⟨c', last', resSt, hmem, hmake'⟩ := ih hrest hlater
        exact ⟨c', last', resSt, List.mem_cons_of_mem _ hmem, hmake'⟩

end Recorded

section Stored

/-- A recorded stop is stored, as it is or with its delays filled. -/
def StoredAs (r : TripUpdate) (st : StopTimeUpdate) : Prop :=
  ∃ o, r.findStop (some st.stopId) st.order = some o ∧
    (o = st ∨ o = fillDelays st)

variable {r : TripUpdate}

/-- A stop that is stored has its order there. -/
theorem StoredAs.order_mem
    {st : StopTimeUpdate} (h : StoredAs r st) :
    st.order ∈ r.stopTimeUpdates.map StopTimeUpdate.order := by
  obtain ⟨o, ho, hsame⟩ := h
  refine List.mem_map.2 ⟨o, findStopIn_mem ho, ?_⟩
  rcases hsame with rfl | rfl
  · rfl
  · rfl

/-- The stops that the consistency leaves are stored as they were recorded. -/
theorem storedAs_managed
    {stus : List StopTimeUpdate} (hchain : Chained none stus)
    (hincreasing : stus.Pairwise (fun a b => a.order < b.order))
    (hr : r.stopTimeUpdates = (manageConsistency stus).2)
    {st : StopTimeUpdate} (hst : st ∈ stus) :
    StoredAs r st := by
  obtain ⟨o, ho, hsame⟩ := RelatedLists.exists_of_mem_left
    (manageConsistency_filled hchain) hst
  have hfound := findStopIn_of_increasing
    (manageConsistency_increasing hchain hincreasing) ho
  rw [← hr] at hfound
  refine ⟨o, ?_, hsame⟩
  rcases hsame with rfl | rfl
  · exact hfound
  · exact hfound

variable {c c' : Calendar} {last last' : Option Datetime}
variable {fs gs : List FeedStop} {stops stops' : List MergedStop}
variable {f g : FeedStop} {e : StopEvent} {t t' : TimeOfDay}

/-- What is stored for a stop of a run gives the reference times of the run. -/
theorem stored_time
    (hrun : tryTurns c last fs = .ok stops)
    (hstored : ∀ st ∈ stops.map MergedStop.resSt, StoredAs r st)
    (hf : f ∈ fs) (hadded : f.newSt.isStopEventAdded e = false)
    (hserved : f.newSt.isStopEventDeleted e = false)
    (ht : f.navitiaStop.utcTime e = some t) :
    ∃ o, r.findStop (some f.stopPoint.id) f.order = some o ∧
      ∃ d : Date, o.getStopEventTime e =
        some (combine d t + (o.getStopEventDelay e).getD 0) := by
  obtain ⟨_, _, resSt, hmem, hmake⟩ := tryTurns_makes hrun hf
  obtain ⟨o, ho, hsame⟩ := hstored resSt hmem
  obtain ⟨d, htime⟩ := recorded_time hmake hadded hserved ht
  have hplace : resSt.stopId = f.stopPoint.id ∧ resSt.order = f.order := by
    rw [makeStopTimeUpdate_ok hmake]
    exact ⟨rfl, rfl⟩
  rw [hplace.1, hplace.2] at ho
  refine ⟨o, ho, d, ?_⟩
  rcases hsame with rfl | rfl
  · exact htime
  · rw [show (fillDelays resSt).getStopEventTime e = resSt.getStopEventTime e by
        cases e <;> rfl, htime]
    cases e <;> rfl

/-- Two runs that are stored alike read the same reference times. -/
theorem reference_unique
    (hrun : tryTurns c last fs = .ok stops)
    (hstored : ∀ st ∈ stops.map MergedStop.resSt, StoredAs r st)
    (hrun' : tryTurns c' last' gs = .ok stops')
    (hstored' : ∀ st ∈ stops'.map MergedStop.resSt, StoredAs r st)
    (hf : f ∈ fs) (hg : g ∈ gs) (horder : f.order = g.order)
    (hid : f.stopPoint.id = g.stopPoint.id) (hnew : f.newSt = g.newSt)
    (hadded : f.newSt.isStopEventAdded e = false)
    (hserved : f.newSt.isStopEventDeleted e = false)
    (ht : f.navitiaStop.utcTime e = some t)
    (ht' : g.navitiaStop.utcTime e = some t') :
    t = t' := by
  obtain ⟨o, ho, d, htime⟩ := stored_time hrun hstored hf hadded hserved ht
  rw [hnew] at hadded hserved
  obtain ⟨o', ho', d', htime'⟩ :=
    stored_time hrun' hstored' hg hadded hserved ht'
  rw [← horder, ← hid, ho] at ho'
  cases ho'
  rw [htime, Option.some.injEq] at htime'
  have hbase : combine d t = combine d' t' := (Int.add_left_inj _).1 htime'
  rw [← time_combine d t, hbase, time_combine]

end Stored

theorem timeOf_eq_ok
    {time : Option Datetime} {c : TimeOfDay} (h : timeOf time = .ok c) :
    ∃ t, time = some t ∧ Datetime.time t = c := by
  cases time with
  | none =>
      cases h
  | some t =>
      exact ⟨t, rfl, Except.ok.inj h⟩

/-- A missing time stays so, or raises, when a delay is added to it. -/
theorem addTruthyDelay_none
    {time : Option Datetime} {delay : Option Timedelta}
    (h : addTruthyDelay none delay = .ok time) :
    time = none := by
  unfold addTruthyDelay at h
  split at h
  · exact (Except.ok.inj h).symm
  · split at h
    · exact (Except.ok.inj h).symm
    · cases h

/--
When the feed gives no datetime, the reference times of a stop outside the
vehicle journey are the times of day of the stored stop.
-/
theorem makeFakeRealtimeStopTime_stored
    {order : Nat} {spId : String} {newStu : StopTimeUpdate}
    {db : Option TripUpdate} {s : StopTime}
    (hundated : (newStu.departure.isNone && newStu.arrival.isNone) = true)
    (h : makeFakeRealtimeStopTime order spId newStu db = .ok s) :
    ∃ o, db.bind (fun db => db.findStop (some spId) order) = some o ∧
      ∀ e, ∃ t, o.getStopEventTime e = some t ∧
        s.utcTime e = some (Datetime.time t) := by
  obtain ⟨⟨departure, arrival⟩, hfake, htimes⟩ := Checked.bind_eq_ok.1 h
  obtain ⟨utcDeparture, hdeparture, htail⟩ := Checked.bind_eq_ok.1 htimes
  obtain ⟨utcArrival, harrival, hmade⟩ := Checked.bind_eq_ok.1 htail
  rw [Checked.pure_eq_ok] at hmade
  subst hmade
  cases hstored : db.bind (fun db => db.findStop (some spId) order) with
  | none =>
      -- there is no datetime to start from
      simp only [Bool.and_eq_true, Option.isNone_iff_eq_none] at hundated
      simp only [hstored, fakeDatetimes, hundated.1, hundated.2] at hfake
      obtain ⟨departure', hadd, hrest⟩ := Checked.bind_eq_ok.1 hfake
      obtain ⟨arrival', -, hpair⟩ := Checked.bind_eq_ok.1 hrest
      cases hpair
      rw [addTruthyDelay_none hadd] at hdeparture
      cases hdeparture
  | some o =>
      simp only [hstored, fakeDatetimes, hundated, if_true, Except.ok.injEq,
        Prod.mk.injEq] at hfake
      obtain ⟨rfl, rfl⟩ := hfake
      refine ⟨o, rfl, fun e => ?_⟩
      obtain ⟨d, hd, rfl⟩ := timeOf_eq_ok hdeparture
      obtain ⟨a, ha, rfl⟩ := timeOf_eq_ok harrival
      cases e with
      | arrival =>
          exact ⟨a, ha, rfl⟩
      | departure =>
          exact ⟨d, hd, rfl⟩

/-- A stop outside the vehicle journey that is kept has its turn in the run. -/
theorem exists_outside_turn
    {new : NewTripUpdate} {db : Option TripUpdate} {vjSts : List StopTime}
    {fs : List FeedStop}
    (hfs : List.Forall₂ (Resolves new)
      (yieldNextStopFrom db vjSts 0 new.stopTimeUpdates) fs)
    (hgrounded : Grounded new fs) {k : Nat} {st : StopTimeUpdate}
    (hget : new.stopTimeUpdates[k]? = some st)
    (hvj : findStInVj st.stopId vjSts = none) (hk : isKept db k st = true) :
    ∃ f ∈ fs, f.order = k ∧ f.newSt = st ∧ f.stopPoint.id = st.stopId ∧
      makeFakeRealtimeStopTime k st.stopId st db = .ok f.navitiaStop := by
  have hmem : (makeFakeRealtimeStopTime k st.stopId st db).map
      (fun fake => (k, fake)) ∈
        yieldNextStopFrom db vjSts 0 new.stopTimeUpdates := by
    refine mem_yieldNextStopFrom.2 ⟨k, st, hget, ?_⟩
    rw [Nat.zero_add]
    exact Or.inr ⟨hvj, hk, rfl⟩
  obtain ⟨f, hf, hresolves⟩ := RelatedLists.exists_of_mem_left hfs hmem
  obtain ⟨fake, hfake, hresolves⟩ := resolves_fake hresolves
  have halone : Grounded new [f] := by
    intro g hg
    rw [List.mem_singleton.1 hg]
    exact hgrounded f hf
  obtain ⟨horder, hnav, hnew, hid⟩ := resolves_head hresolves halone hget
  exact ⟨f, hf, horder, hnew, hid, by rw [hfake, hnav]⟩

end Core
end Kirin
