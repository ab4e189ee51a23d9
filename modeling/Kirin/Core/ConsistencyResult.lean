import Kirin.Core.BuildWrapper

/-!
# Kirin: what `manageConsistency` leaves

The loop compares each event that is not deleted with the last one it has kept,
and pushes it when it comes before.  The event to compare with is always the
last one that is left in the list, which is why a second pass finds nothing to
do.

* `EventFollows`: how an event is left after the previous one.
* `adjustEvent_adjusted`: what becomes of one event.
* `adjustStop_adjusted`: what becomes of one stop.
* `consistencyLoop_managed`: what becomes of the stops of an accepted trip.
* `manageConsistency_managed`: the same for the whole trip.
-/

namespace Kirin
namespace Core

/--
An event does not come before the previous one, or it has the same delay and was
scheduled before it.
-/
def EventFollows (p q : Datetime × Timedelta) : Prop :=
  p.1 ≤ q.1 ∨ p.2 = q.2 ∧ q.1 - q.2 < p.1 - p.2

instance (p q : Datetime × Timedelta) : Decidable (EventFollows p q) :=
  inferInstanceAs (Decidable (_ ∨ _))

/-- The time and the delay of an event, unless it is deleted. -/
def StopTimeUpdate.keptEvent (stu : StopTimeUpdate) (e : StopEvent) :
    Option (Datetime × Timedelta) :=
  if stu.isStopEventDeleted e then none
  else
    match stu.getStopEventTime e, stu.getStopEventDelay e with
    | some t, some d => some (t, d)
    | _, _ => none

/-- The events of some stops that are not deleted, one after the other. -/
def keptEvents (stus : List StopTimeUpdate) : List (Datetime × Timedelta) :=
  stus.flatMap (fun stu => [.arrival, .departure].filterMap stu.keptEvent)

/--
A stop as it is left: it has its times and delays, the times of its deleted
events are kept, and the other events are moved with their delay.
-/
structure Managed (stu out : StopTimeUpdate) : Prop where
  statuses : ∀ e, out.getStopEventStatus e = stu.getStopEventStatus e
  timed : ∀ e, (out.getStopEventTime e).isSome ∧
    (out.getStopEventDelay e).isSome
  deleted : ∀ e t, stu.isStopEventDeleted e = true →
    stu.getStopEventTime e = some t → out.getStopEventTime e = some t
  scheduled : ∀ e t d, stu.isStopEventDeleted e = false →
    stu.getStopEventTime e = some t → stu.getStopEventDelay e = some d →
    ∃ t' d', out.getStopEventTime e = some t' ∧
      out.getStopEventDelay e = some d' ∧ t' - d' = t - d

/-- What the loop carries from the last event that is not deleted. -/
def carried (last : Option (Datetime × Timedelta)) :
    TimeDelayTuple Datetime where
  time := last.map Prod.fst
  delay := (last.map Prod.snd).getD 0

/-- The last event that is not deleted, after one more event. -/
def nextLast
    (last : Option (Datetime × Timedelta)) (deleted : Bool)
    (q : Datetime × Timedelta) : Option (Datetime × Timedelta) :=
  if deleted then last else some q

/-- One event `e` as it is left, `q`. -/
structure Adjusted
    (last : Option (Datetime × Timedelta)) (deleted : Bool)
    (e q : Datetime × Timedelta) : Prop where
  scheduled : q.1 - q.2 = e.1 - e.2
  kept : deleted = true → q = e
  follows : deleted = false → ∀ p ∈ last, EventFollows p q
  again : adjustEvent (carried last) deleted q.1 q.2 =
    (q, carried (nextLast last deleted q))

theorem keptEvents_cons
    (stu : StopTimeUpdate) (stus : List StopTimeUpdate) :
    keptEvents (stu :: stus) = keptEvents [stu] ++ keptEvents stus := by
  simp [keptEvents]

section Event

variable {last : Option (Datetime × Timedelta)}

theorem pushed_delay
    (own previous : Int) :
    own + (previous - own) = previous := by
  omega

theorem pushed_schedule
    (time own previous : Int) :
    time + (previous - own) - previous = time - own := by
  omega

/-- A pushed event gets the delay of the previous one and keeps its schedule. -/
theorem pushEvent_carried
    (last : Option (Datetime × Timedelta)) (t : Datetime) (d : Timedelta) :
    ∃ q : Datetime × Timedelta, pushEvent (carried last) t d = q ∧
      q.1 - q.2 = t - d ∧ (∀ p ∈ last, EventFollows p q) ∧
      pushEvent (carried last) q.1 q.2 = q := by
  cases last with
  | none =>
      exact ⟨(t, d), rfl, rfl, by simp, rfl⟩
  | some p =>
      rcases p with ⟨tp, dp⟩
      by_cases hlt : t < tp
      · -- the event is pushed, and a second push adds no delay
        have hpush : ∀ u : Datetime,
            pushEvent (carried (some (tp, dp))) u dp = (u, dp) := by
          intro u
          simp [pushEvent, carried]
        refine ⟨(t + (dp - d), dp), ?_, pushed_schedule t d dp, ?_, hpush _⟩
        · simp [pushEvent, carried, hlt, pushed_delay d dp]
        · intro p hp
          cases hp
          by_cases hle : tp ≤ t + (dp - d)
          · exact Or.inl hle
          · have hbefore : t + (dp - d) < tp := not_le.1 hle
            exact Or.inr ⟨rfl, Int.sub_lt_sub_right hbefore dp⟩
      · have hstay : pushEvent (carried (some (tp, dp))) t d = (t, d) := by
          simp [pushEvent, carried, hlt]
        refine ⟨(t, d), hstay, rfl, ?_, hstay⟩
        intro p hp
        cases hp
        exact Or.inl (not_lt.1 hlt)

/-- What becomes of one event. -/
theorem adjustEvent_adjusted
    (last : Option (Datetime × Timedelta)) (deleted : Bool)
    (t : Datetime) (d : Timedelta) :
    ∃ q, adjustEvent (carried last) deleted t d =
        (q, carried (nextLast last deleted q)) ∧
      Adjusted last deleted (t, d) q := by
  cases deleted with
  | true =>
      refine ⟨(t, d), rfl, ?_⟩
      exact
        { scheduled := rfl
          kept := fun _ => rfl
          follows := nofun
          again := rfl }
  | false =>
      obtain ⟨q, hpush, hscheduled, hfollows, hagain⟩ :=
        pushEvent_carried last t d
      have hadjust : ∀ u e, pushEvent (carried last) u e = q →
          adjustEvent (carried last) false u e =
            (q, carried (nextLast last false q)) := by
        intro u e hq
        simp only [adjustEvent, Bool.false_eq_true, if_false, hq]
        rfl
      refine ⟨q, hadjust t d hpush, ?_⟩
      exact
        { scheduled := hscheduled
          kept := nofun
          follows := fun _ => hfollows
          again := hadjust q.1 q.2 hagain }

/-- An event that follows the last one starts what comes after it. -/
theorem isChain_nextLast
    {deleted : Bool} {q : Datetime × Timedelta}
    {tail : List (Datetime × Timedelta)}
    (hfollows : deleted = false → ∀ p ∈ last, EventFollows p q)
    (hchain : ((nextLast last deleted q).toList ++ tail).IsChain EventFollows) :
    (last.toList ++ ((if deleted then [] else [q]) ++ tail)).IsChain
      EventFollows := by
  cases deleted with
  | true =>
      exact hchain
  | false =>
      cases last with
      | none =>
          exact hchain
      | some p =>
          exact List.isChain_cons_cons.2 ⟨hfollows rfl p rfl, hchain⟩

end Event

section Stop

variable {last : Option (Datetime × Timedelta)}
variable {stu out : StopTimeUpdate} {next : TimeDelayTuple Datetime}

/-- The times and delays that a stop is left with, after a given event. -/
structure StopAdjusted
    (last : Option (Datetime × Timedelta)) (stu out : StopTimeUpdate)
    (next : TimeDelayTuple Datetime)
    (a d : Datetime × Timedelta) : Prop where
  out_eq : out =
    { stu with
      arrival := some a.1
      arrivalDelay := some a.2
      departure := some d.1
      departureDelay := some d.2 }
  next_eq : next = carried
    (nextLast (nextLast last (stu.isStopEventDeleted .arrival) a)
      (stu.isStopEventDeleted .departure) d)
  arrival : ∃ e, Adjusted last (stu.isStopEventDeleted .arrival) e a ∧
    (∀ t, stu.arrival = some t → e.1 = t) ∧
    ∀ t d, stu.arrival = some t → stu.arrivalDelay = some d → e.2 = d
  departure : ∃ e,
    Adjusted (nextLast last (stu.isStopEventDeleted .arrival) a)
      (stu.isStopEventDeleted .departure) e d ∧
    (∀ t, stu.departure = some t → e.1 = t) ∧
    ∀ t d, stu.departure = some t → stu.departureDelay = some d → e.2 = d

/-- What becomes of the two events of a stop that is not rejected. -/
theorem adjustStop_adjusted
    (h : adjustStop (carried last) stu = some (out, next)) :
    ∃ a d, StopAdjusted last stu out next a d := by
  simp only [adjustStop] at h
  split at h
  · cases h
  · rename_i arrival hfirst
    have harrival : ∀ t, stu.arrival = some t → arrival = t := by
      intro t ht
      rw [ht] at hfirst
      cases hfirst
      rfl
    generalize hda : (if stu.arrival.isNone then
      fillDelay stu.arrivalDelay stu.departureDelay
      else stu.arrivalDelay) = da at h
    obtain ⟨⟨a, ea⟩, ha, hadja⟩ := adjustEvent_adjusted last
      (stu.isStopEventDeleted .arrival) arrival (da.getD 0)
    simp only [ha] at h
    generalize hdd : (if stu.departure.isNone then
      fillDelay stu.departureDelay da else stu.departureDelay) = dd at h
    obtain ⟨⟨d, ed⟩, hd, hadjd⟩ := adjustEvent_adjusted
      (nextLast last (stu.isStopEventDeleted .arrival) (a, ea))
      (stu.isStopEventDeleted .departure) (stu.departure.getD arrival)
      (dd.getD 0)
    simp only [hd, Option.some.injEq, Prod.mk.injEq] at h
    refine ⟨(a, ea), (d, ed), ?_⟩
    exact
      { out_eq := h.1.symm
        next_eq := h.2.symm
        arrival := by
          refine ⟨_, hadja, harrival, ?_⟩
          intro t delay ht hdelay
          rw [ht, hdelay] at hda
          rw [← hda]
          rfl
        departure := by
          refine ⟨_, hadjd, ?_, ?_⟩
          · intro t ht
            rw [ht]
            rfl
          · intro t delay ht hdelay
            rw [ht, hdelay] at hdd
            rw [← hdd]
            rfl }

variable {a d : Datetime × Timedelta}

/-- The stop is left with its times and delays, as they should be. -/
theorem StopAdjusted.managed
    (h : StopAdjusted last stu out next a d) :
    Managed stu out := by
  obtain ⟨ea, hadja, hta, hda⟩ := h.arrival
  obtain ⟨ed, hadjd, htd, hdd⟩ := h.departure
  rw [h.out_eq]
  constructor
  · intro e
    cases e <;> rfl
  · intro e
    cases e <;> exact ⟨rfl, rfl⟩
  · intro e t hdeleted ht
    cases e with
    | arrival =>
        rw [hadja.kept hdeleted]
        exact congrArg some (hta t ht)
    | departure =>
        rw [hadjd.kept hdeleted]
        exact congrArg some (htd t ht)
  · intro e t delay _ ht hdelay
    cases e with
    | arrival =>
        refine ⟨a.1, a.2, rfl, rfl, ?_⟩
        rw [hadja.scheduled, hta t ht, hda t delay ht hdelay]
    | departure =>
        refine ⟨d.1, d.2, rfl, rfl, ?_⟩
        rw [hadjd.scheduled, htd t ht, hdd t delay ht hdelay]

/-- A second pass leaves the stop, and what it carries, as they are. -/
theorem StopAdjusted.again
    (h : StopAdjusted last stu out next a d) :
    adjustStop (carried last) out = some (out, next) := by
  obtain ⟨ea, hadja, -, -⟩ := h.arrival
  obtain ⟨ed, hadjd, -, -⟩ := h.departure
  have hagain := hadja.again
  have hagain' := hadjd.again
  rw [h.out_eq, h.next_eq]
  have hfirst : (some a.1 <|> some d.1 <|> (carried last).time) = some a.1 :=
    rfl
  have hdeleted : ∀ e, StopTimeUpdate.isStopEventDeleted
      { stu with
        arrival := some a.1, arrivalDelay := some a.2
        departure := some d.1, departureDelay := some d.2 } e =
      stu.isStopEventDeleted e := by
    intro e
    cases e <;> rfl
  simp only [adjustStop, hfirst, Option.isNone_some, Bool.false_eq_true,
    if_false, Option.getD_some, hdeleted, hagain, hagain']

/-- The events of the stop follow the last one that is not deleted. -/
theorem StopAdjusted.chain
    (h : StopAdjusted last stu out next a d)
    {tail : List (Datetime × Timedelta)}
    (hchain : ((nextLast (nextLast last (stu.isStopEventDeleted .arrival) a)
      (stu.isStopEventDeleted .departure) d).toList ++ tail).IsChain
        EventFollows) :
    (last.toList ++ (keptEvents [out] ++ tail)).IsChain EventFollows := by
  obtain ⟨ea, hadja, -, -⟩ := h.arrival
  obtain ⟨ed, hadjd, -, -⟩ := h.departure
  have hevents : keptEvents [out] =
      (if stu.isStopEventDeleted .arrival then [] else [a]) ++
        if stu.isStopEventDeleted .departure then [] else [d] := by
    have harrival : out.keptEvent .arrival =
        if stu.isStopEventDeleted .arrival then none else some a := by
      rw [h.out_eq]
      rfl
    have hdeparture : out.keptEvent .departure =
        if stu.isStopEventDeleted .departure then none else some d := by
      rw [h.out_eq]
      rfl
    simp only [keptEvents, List.flatMap_cons, List.flatMap_nil,
      List.append_nil, List.filterMap_cons, harrival, hdeparture,
      List.filterMap_nil]
    cases stu.isStopEventDeleted .arrival <;>
      cases stu.isStopEventDeleted .departure <;> rfl
  rw [hevents, List.append_assoc]
  exact isChain_nextLast hadja.follows
    (isChain_nextLast hadjd.follows hchain)

end Stop

section Loop

variable {stus out : List StopTimeUpdate}

/-- What becomes of the stops of an accepted trip, from one of them on. -/
theorem consistencyLoop_managed
    {k : Nat} {last : Option (Datetime × Timedelta)}
    (h : consistencyLoop k (carried last) stus = (true, out)) :
    out.map StopTimeUpdate.order = List.range' k out.length ∧
      List.Forall₂ Managed stus out ∧
      (last.toList ++ keptEvents out).IsChain EventFollows ∧
      consistencyLoop k (carried last) out = (true, out) := by
  induction stus generalizing k last out with
  | nil =>
      cases h
      refine ⟨rfl, List.Forall₂.nil, ?_, rfl⟩
      cases last <;> simp [keptEvents]
  | cons stu rest ih =>
      simp only [consistencyLoop] at h
      split at h
      · cases h
      · rename_i horder
        split at h
        · cases h
        · rename_i first next hadjust
          obtain ⟨a, d, hstop⟩ := adjustStop_adjusted hadjust
          cases hloop : consistencyLoop (k + 1) next rest with
          | mk accepted out' =>
              simp only [hloop, Prod.mk.injEq] at h
              obtain ⟨rfl, rfl⟩ := h
              rw [hstop.next_eq] at hloop
              obtain ⟨horders, hmanaged, hchain, hagain⟩ := ih hloop
              have hfirst : first.order = k := by
                rw [hstop.out_eq]
                exact not_not.1 horder
              refine ⟨?_, List.Forall₂.cons hstop.managed hmanaged, ?_, ?_⟩
              · rw [List.map_cons, List.length_cons, List.range'_succ, hfirst,
                  horders]
              · rw [keptEvents_cons]
                exact hstop.chain hchain
              · have hstep := hstop.again
                rw [hstop.next_eq] at hstep
                simp only [consistencyLoop, hfirst, ne_eq, not_true, if_false,
                  hstep, hagain]

/--
A trip that is accepted has its stops indexed and timed, with their deleted
times and their schedules kept.  Each of its events follows the previous one
that is not deleted, and a second pass changes nothing.
-/
theorem manageConsistency_managed
    (h : manageConsistency stus = (true, out)) :
    Indexed out ∧ List.Forall₂ Managed stus out ∧
      (keptEvents out).IsChain EventFollows ∧
      manageConsistency out = (true, out) := by
  have hloop : consistencyLoop 0 (carried none) stus = (true, out) := h
  obtain ⟨horders, hmanaged, hchain, hagain⟩ := consistencyLoop_managed hloop
  refine ⟨?_, hmanaged, hchain, hagain⟩
  rw [Indexed, horders, List.range_eq_range']

end Loop

namespace Sample

/-- A number of minutes. -/
def minutes (n : Int) : Timedelta :=
  n * (60 * second)

/--
Three stops of which the second one is left before it is reached, the third one
having its arrival deleted.
-/
def lateStops : List StopTimeUpdate :=
  [{ unchanged "sa:1" 0 with
      departure := some (clock 8 10) },
    { unchanged "sa:2" 1 with
      arrival := some (clock 10 15), arrivalDelay := some (minutes 70)
      departure := some (clock 9 20), departureDelay := some (minutes 10) },
    { unchanged "sa:3" 2 with
      arrivalStatus := .delete, arrival := some (clock 10 5)
      departure := some (clock 10 5) }]

/-- The delay of the second arrival is passed on to the following events. -/
def managedStops : List StopTimeUpdate :=
  [{ unchanged "sa:1" 0 with
      arrival := some (clock 8 10), arrivalDelay := some 0
      departure := some (clock 8 10), departureDelay := some 0 },
    { unchanged "sa:2" 1 with
      arrival := some (clock 10 15), arrivalDelay := some (minutes 70)
      departure := some (clock 10 20), departureDelay := some (minutes 70) },
    { unchanged "sa:3" 2 with
      arrivalStatus := .delete
      arrival := some (clock 10 5), arrivalDelay := some 0
      departure := some (clock 11 15), departureDelay := some (minutes 70) }]

end Sample

/-- The stops are accepted, and left as a second pass leaves them. -/
theorem manageConsistency_lateStops :
    manageConsistency Sample.lateStops = (true, Sample.managedStops) ∧
      Indexed Sample.managedStops ∧
      List.Forall₂ Managed Sample.lateStops Sample.managedStops ∧
      (keptEvents Sample.managedStops).IsChain EventFollows ∧
      manageConsistency Sample.managedStops = (true, Sample.managedStops) := by
  have h : manageConsistency Sample.lateStops = (true, Sample.managedStops) := by
    decide
  exact ⟨h, manageConsistency_managed h⟩

end Core
end Kirin
