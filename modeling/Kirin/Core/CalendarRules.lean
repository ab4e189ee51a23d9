import Kirin.Core.FeedRun
import Mathlib.Data.List.Chain
import Mathlib.Data.List.ReduceOption

/-!
# Kirin: dates of the events of a trip

The loop of the merge rebuilds the dates of a trip from its times of day.  This
module says what it finds for a feed without delays: `Passage` lists what such
a feed can say about an event, `targets` the datetimes aimed at, `runningMax`
the datetimes recorded.

* `Calendar.stopEvent_undelayed`: the date advances when the time of day falls.
* `recorded_wanted_iff`: the recorded stops have the wanted datetimes exactly
  when the running maximum of the targets is the list of these datetimes.
* `recorded_onTime`: when the targets are the wanted datetimes, in order, the
  recorded stops have them with zero delays.
-/

namespace Kirin
namespace Core

/-- One when the time of day falls, zero otherwise. -/
abbrev falls (r r' : TimeOfDay) : Int :=
  DayClock.descent r.micros r'.micros

/-- Across a gap shorter than a day, the date advances as the time falls. -/
theorem date_of_gap
    {t t' : Datetime} (h : t ≤ t') (hgap : t' - t < day) :
    Datetime.date t' =
      Datetime.date t + falls (Datetime.time t) (Datetime.time t') :=
  DayClock.dayOf_of_gap day_pos h hgap

/-- A datetime is rebuilt from its date and its time of day only. -/
theorem combine_eq_iff
    (d : Date) (r : TimeOfDay) (t : Datetime) :
    combine d r = t ↔ d = Datetime.date t ∧ r = Datetime.time t := by
  constructor
  · rintro rfl
    simp
  · rintro ⟨rfl, rfl⟩
    exact combine_date_time t

/-- Datetimes with the same time of day are ordered by their dates. -/
theorem combine_le_iff
    (d : Date) (t : Datetime) :
    combine d (Datetime.time t) ≤ t ↔ d ≤ Datetime.date t := by
  conv_lhs => rw [← combine_date_time t]
  rw [time_combine]
  exact DayClock.instant_le_instant_iff day_pos

/-- First datetime from `t` on at the time of day `r`. -/
def nextAt (t : Datetime) (r : TimeOfDay) : Datetime :=
  combine (Datetime.date t + falls (Datetime.time t) r) r

theorem le_nextAt
    (t : Datetime) (r : TimeOfDay) :
    t ≤ nextAt t r :=
  DayClock.le_next day_pos r.nonneg

theorem nextAt_eq_iff
    {t t' : Datetime} (h : t ≤ t') (r : TimeOfDay) :
    nextAt t r = t' ↔ r = Datetime.time t' ∧ t' - t < day := by
  have hnext :
      nextAt t r = t' ↔ r.micros = (Datetime.time t').micros ∧ t' - t < day :=
    DayClock.next_eq_iff day_pos r.nonneg r.lt_day h
  rw [hnext]
  refine and_congr_left' ?_
  cases r
  simp [Datetime.time]

/-- A value for each of the two events of a stop. -/
structure Events (α : Type) where
  arrival : α
  departure : α
deriving DecidableEq, Repr

namespace Events

variable {α : Type}

def get (x : Events α) : StopEvent → α
  | .arrival => x.arrival
  | .departure => x.departure

def map {β : Type} (g : α → β) (x : Events α) : Events β where
  arrival := g x.arrival
  departure := g x.departure

@[simp] theorem get_map
    {β : Type} (g : α → β) (x : Events α) (e : StopEvent) :
    (x.map g).get e = g (x.get e) := by
  cases e <;> rfl

/-- The values of a list of stops, event by event. -/
def list : List (Events α) → List α
  | [] => []
  | x :: xs => x.arrival :: x.departure :: list xs

theorem forall_mem_list
    {P : α → Prop} (xs : List (Events α)) :
    (∀ a ∈ list xs, P a) ↔ ∀ x ∈ xs, ∀ e, P (x.get e) := by
  induction xs with
  | nil =>
      simp [list]
  | cons x xs ih =>
      rw [list, List.forall_mem_cons, List.forall_mem_cons, ih,
        List.forall_mem_cons, StopEvent.forall_iff, and_assoc]
      exact Iff.rfl

theorem list_map
    {β : Type} (g : α → β) (xs : List (Events α)) :
    list (xs.map (map g)) = (list xs).map g := by
  induction xs with
  | nil =>
      rfl
  | cons x xs ih =>
      simp [list, map, ih]

theorem list_sublist
    {xs ys : List (Events α)} (h : xs.Sublist ys) :
    (list xs).Sublist (list ys) := by
  induction h with
  | slnil =>
      exact List.Sublist.slnil
  | cons y _ ih =>
      exact (ih.cons y.departure).cons y.arrival
  | cons_cons y _ ih =>
      exact (ih.cons_cons y.departure).cons_cons y.arrival

end Events

namespace Calendar

/-- Date of the next event, when no event is delayed. -/
def dateOf (c : Calendar) (r : TimeOfDay) : Date :=
  match c.previousStopEvent.time with
  | none => c.circulationDate
  | some p => c.circulationDate + falls p r

/-- A calendar whose last event was not delayed. -/
def Undelayed (c : Calendar) : Prop :=
  c.previousStopEvent.delay = 0

/-- Without delays the date advances when the time of day falls. -/
theorem stopEvent_undelayed
    {c : Calendar} (hc : c.Undelayed) (r : TimeOfDay) :
    c.stopEvent true (some r) 0 =
      (some (combine (c.dateOf r) r),
        { previousStopEvent := { time := some r, delay := 0 }
          circulationDate := c.dateOf r }) := by
  rcases c with ⟨⟨time, delay⟩, date⟩
  simp only [Undelayed] at hc
  subst hc
  cases time with
  | none =>
      simp [stopEvent, isPastMidnight, dateOf]
  | some p =>
      by_cases hlt : r.micros < p.micros
      · simp [stopEvent, isPastMidnight, dateOf, DayClock.descent, hlt]
      · simp [stopEvent, isPastMidnight, dateOf, DayClock.descent, hlt]

/-- The last event of the calendar is at a given datetime, with a given delay. -/
structure At (c : Calendar) (t : Datetime) (delay : Timedelta) : Prop where
  previous : c.previousStopEvent =
    { time := some (Datetime.time t), delay := delay }
  date : c.circulationDate = Datetime.date t

variable {c : Calendar} {t : Datetime}

theorem At.undelayed
    (h : c.At t 0) :
    c.Undelayed := by
  rw [Undelayed, h.previous]

theorem At.dateOf
    (h : c.At t 0) (r : TimeOfDay) :
    c.dateOf r = Datetime.date t + falls (Datetime.time t) r := by
  simp only [Calendar.dateOf, h.previous, h.date]

end Calendar

/--
The datetimes of the stop times of a vehicle journey that starts on a given
date: chronological, with less than a day between consecutive events.
-/
structure Timetable
    (start : Date) (stopTimes : List StopTime) (base : List (Events Datetime)) :
    Prop where
  clocks : List.Forall₂
    (fun s x => ∀ e, s.utcTime e = some (Datetime.time (x.get e)))
    stopTimes base
  chain : (Events.list base).IsChain (fun t t' => t ≤ t' ∧ t' - t < day)
  starts : ∀ t ∈ (Events.list base).head?, Datetime.date t = start

/-- What a feed without delays can say about an event of a stop. -/
inductive Passage
  | skipped
  | untimed
  | scheduled (reading : TimeOfDay) (base : Datetime)
  | added (reading : TimeOfDay) (time : Datetime)
deriving DecidableEq, Repr

/-- The datetime at which an event should be recorded. -/
def Passage.wanted : Passage → Option Datetime
  | .skipped | .untimed => none
  | .scheduled _ base => some base
  | .added _ time => some time

namespace Calendar

/-- The calendar after an event. -/
def after (c : Calendar) : Passage → Calendar
  | .skipped => c
  | .untimed => (c.stopEvent true none 0).2
  | .scheduled r _ | .added r _ => (c.stopEvent true (some r) 0).2

/-- The datetime the merge aims at for an event. -/
def target (c : Calendar) : Passage → Option Datetime
  | .skipped | .untimed => none
  | .scheduled r _ => (c.stopEvent true (some r) 0).1
  | .added _ time => some time

@[simp] theorem after_skipped
    (c : Calendar) :
    c.after .skipped = c :=
  rfl

@[simp] theorem target_skipped
    (c : Calendar) :
    c.target .skipped = none :=
  rfl

theorem target_isSome
    (c : Calendar) (p : Passage) :
    (c.target p).isSome = p.wanted.isSome := by
  cases p <;> rfl

/-- A feed without delays leaves no delay in the calendar. -/
theorem Undelayed.after
    {c : Calendar} (hc : c.Undelayed) (p : Passage) :
    (c.after p).Undelayed := by
  cases p with
  | skipped =>
      exact hc
  | untimed =>
      rfl
  | scheduled r base =>
      rfl
  | added r time =>
      rfl

end Calendar

section Scheduled

variable {c : Calendar} {t b : Datetime} {delay d : Timedelta}

/-- After an event, the merge aims at the next datetime with the same clock. -/
theorem Calendar.At.target
    (h : c.At t 0) (r : TimeOfDay) (b : Datetime) :
    c.target (.scheduled r b) = some (nextAt t r) := by
  rw [Calendar.target, Calendar.stopEvent_undelayed h.undelayed, h.dateOf]
  rfl

theorem Calendar.At.after
    (h : c.At t 0) (r : TimeOfDay) (b : Datetime) :
    (c.after (.scheduled r b)).At (nextAt t r) 0 := by
  rw [Calendar.after, Calendar.stopEvent_undelayed h.undelayed, h.dateOf]
  exact ⟨by simp [nextAt], by simp [nextAt]⟩

/-- A calendar before any event. -/
abbrev Calendar.atStart (start : Date) : Calendar where
  previousStopEvent := { time := none, delay := 0 }
  circulationDate := start

theorem Calendar.atStart_after
    (start : Date) (r : TimeOfDay) (b : Datetime) :
    ((Calendar.atStart start).after (.scheduled r b)).At (combine start r) 0 :=
  ⟨by simp [Calendar.after, Calendar.stopEvent],
    by simp [Calendar.after, Calendar.stopEvent, isPastMidnight]⟩

/-- The next event is dated right unless its delay hides a midnight. -/
theorem Calendar.At.stopEvent
    (h : c.At t delay) (hle : t ≤ b) (hgap : b - t < day)
    (hmidnight : Datetime.date t ≠ Datetime.date b →
      d - delay < day - (b - t)) :
    c.stopEvent true (some (Datetime.time b)) d =
      (some b,
        { previousStopEvent := { time := some (Datetime.time b), delay := d }
          circulationDate := Datetime.date b }) := by
  rcases c with ⟨previous, date⟩
  rcases h with ⟨hprevious, hdate⟩
  simp only at hprevious hdate
  subst hprevious hdate
  have hdates := date_of_gap hle hgap
  have hdate :
      (if isPastMidnight { time := some (Datetime.time t), delay := delay }
          { time := some (Datetime.time b), delay := d }
        then Datetime.date t + 1 else Datetime.date t) = Datetime.date b := by
    by_cases hlt : (Datetime.time b).micros < (Datetime.time t).micros
    · have hnext : Datetime.date b = Datetime.date t + 1 := by
        rw [hdates]
        simp [DayClock.descent, hlt]
      have hne : Datetime.date t ≠ Datetime.date b := by
        rw [hnext]
        exact (Int.lt_succ _).ne
      have hdelayed :
          (Datetime.time b).micros + d < (Datetime.time t).micros + delay :=
        DayClock.shifted_reading_lt hnext (hmidnight hne)
      simp [isPastMidnight, hlt, hdelayed, hnext]
    · have hsame : Datetime.date b = Datetime.date t := by
        rw [hdates]
        simp [DayClock.descent, hlt]
      simp [isPastMidnight, hlt, hsame]
  simp only [Calendar.stopEvent, if_true, hdate, combine_date_time]

theorem Calendar.atStart_stopEvent
    (b : Datetime) (d : Timedelta) :
    (Calendar.atStart (Datetime.date b)).stopEvent true
        (some (Datetime.time b)) d =
      (some b,
        { previousStopEvent := { time := some (Datetime.time b), delay := d }
          circulationDate := Datetime.date b }) := by
  simp [Calendar.stopEvent, isPastMidnight]

end Scheduled

/-- The datetimes the merge aims at for a list of events. -/
def targets : Calendar → List Passage → List (Option Datetime)
  | _, [] => []
  | c, p :: ps => c.target p :: targets (c.after p) ps

/-- The datetimes recorded for events that have a target. -/
def runningMax :
    Option Datetime → List (Option Datetime) → List (Option Datetime)
  | _, [] => []
  | last, t :: ts => t.map (atLeast last) :: runningMax (floorAfter last t) ts

@[simp] theorem runningMax_none
    (last : Option Datetime) (ts : List (Option Datetime)) :
    runningMax last (none :: ts) = none :: runningMax last ts :=
  rfl

@[simp] theorem runningMax_some
    (last : Option Datetime) (t : Datetime) (ts : List (Option Datetime)) :
    runningMax last (some t :: ts) =
      some (atLeast last t) :: runningMax (some (atLeast last t)) ts :=
  rfl

/-- The times of a list, after a given one, are in chronological order. -/
def InOrder (last : Option Datetime) (ts : List (Option Datetime)) :
    Prop :=
  (last.toList ++ ts.reduceOption).IsChain (fun t t' => t ≤ t')

theorem inOrder_map_some
    (ts : List Datetime) :
    InOrder none (ts.map some) ↔ ts.IsChain (fun t t' => t ≤ t') := by
  simp [InOrder, List.reduceOption]

/-- The head of a list in chronological order is not pushed. -/
theorem InOrder.head
    {last time : Option Datetime} {ts : List (Option Datetime)}
    (h : InOrder last (time :: ts)) :
    (∀ t, time = some t → atLeast last t = t) ∧
      InOrder (floorAfter last time) ts := by
  cases time with
  | none =>
      exact ⟨by simp, by simpa [InOrder, floorAfter] using h⟩
  | some t =>
      cases last with
      | none =>
          exact ⟨by simp, by simpa [InOrder, floorAfter] using h⟩
      | some l =>
          simp only [InOrder, Option.toList_some, List.cons_append,
            List.nil_append, List.reduceOption_cons_of_some,
            List.isChain_cons_cons] at h
          have hmax : max l t = t := max_eq_right h.1
          refine ⟨?_, by simpa [InOrder, floorAfter, hmax] using h.2⟩
          rintro t' ⟨⟩
          exact hmax

/-- Times in chronological order are recorded as they are. -/
theorem InOrder.runningMax_eq
    {last : Option Datetime} {ts : List (Option Datetime)}
    (h : InOrder last ts) :
    runningMax last ts = ts := by
  induction ts generalizing last with
  | nil =>
      rfl
  | cons time ts ih =>
      obtain ⟨ht, hts⟩ := h.head
      have hhead : time.map (atLeast last) = time := by
        cases time with
        | none =>
            rfl
        | some t =>
            simp [ht t rfl]
      rw [runningMax, hhead, ih hts]

namespace FeedStop

/-- What the feed says about an event of the stop. -/
def Says (f : FeedStop) (e : StopEvent) : Passage → Prop
  | .skipped => f.newSt.isStopEventDeleted e = true
  | .untimed =>
      f.newSt.getStopEventStatus e = .none ∧
        (f.newSt.getStopEventDelay e).getD 0 = 0 ∧
        f.navitiaStop.utcTime e = none
  | .scheduled r _ =>
      f.newSt.getStopEventStatus e = .none ∧
        (f.newSt.getStopEventDelay e).getD 0 = 0 ∧
        f.navitiaStop.utcTime e = some r
  | .added r time =>
      f.newSt.isStopEventAdded e = true ∧
        (f.newSt.getStopEventDelay e).getD 0 = 0 ∧
        f.navitiaStop.utcTime e = some r ∧
        f.newSt.getStopEventTime e = some time

variable {f : FeedStop} {e : StopEvent} {p : Passage}

/-- The calendar follows what the feed says. -/
theorem Says.event
    (h : f.Says e p) (c : Calendar) :
    (f.event e c).2 = c.after p ∧
      (eventInfo f.newSt (f.event e c).1 e).time = c.target p ∧
      (eventInfo f.newSt (f.event e c).1 e).delay = some 0 := by
  cases p with
  | skipped =>
      obtain ⟨htime, hdelay⟩ := eventInfo_of_deleted h (f.event e c).1
      refine ⟨?_, htime, hdelay⟩
      simp only [Says] at h
      simp [FeedStop.event, h, Calendar.stopEvent, Calendar.after]
  | untimed =>
      rcases h with ⟨hstatus, hdelay, hread⟩
      rw [eventInfo_of_none hstatus]
      simp [FeedStop.event, StopTimeUpdate.isStopEventDeleted, hstatus, hdelay,
        hread, ModificationType.isDeleted, Calendar.after, Calendar.target,
        Calendar.stopEvent]
  | scheduled r base =>
      rcases h with ⟨hstatus, hdelay, hread⟩
      rw [eventInfo_of_none hstatus]
      simp [FeedStop.event, StopTimeUpdate.isStopEventDeleted, hstatus, hdelay,
        hread, ModificationType.isDeleted, Calendar.after, Calendar.target]
  | added r time =>
      rcases h with ⟨hadded, hdelay, hread, htime⟩
      rw [eventInfo_of_added hadded, hdelay, htime]
      simp [FeedStop.event, not_isStopEventDeleted_of_added hadded, hdelay,
        hread, Calendar.after, Calendar.target]

end FeedStop

/-- A stop recorded at the wanted datetimes. -/
def RecordedAt (w : Events (Option Datetime)) (st : StopTimeUpdate) : Prop :=
  ∀ e, ∀ t ∈ w.get e, st.getStopEventTime e = some t

/-- A stop recorded at the wanted datetimes, without delay. -/
def RecordedOnTime (w : Events (Option Datetime)) (st : StopTimeUpdate) :
    Prop :=
  ∀ e, ∀ t ∈ w.get e,
    st.getStopEventTime e = some t ∧ st.getStopEventDelay e = some 0

instance (w : Events (Option Datetime)) (st : StopTimeUpdate) :
    Decidable (RecordedAt w st) :=
  inferInstanceAs (Decidable (∀ e, ∀ t ∈ w.get e, _))

instance (w : Events (Option Datetime)) (st : StopTimeUpdate) :
    Decidable (RecordedOnTime w st) :=
  inferInstanceAs (Decidable (∀ e, ∀ t ∈ w.get e, _))

theorem RecordedOnTime.recordedAt
    {w : Events (Option Datetime)} {st : StopTimeUpdate}
    (h : RecordedOnTime w st) :
    RecordedAt w st :=
  fun e t ht => (h e t ht).1

section Turns

variable {f : FeedStop} {p : Events Passage}

/-- What is recorded at a stop about which the feed says `p`. -/
theorem FeedStop.recorded_of_says
    (h : ∀ e, f.Says e (p.get e)) (c : Calendar) (last : Option Datetime) :
    f.nextCalendar c = (c.after p.arrival).after p.departure ∧
      (f.recorded c last).departure =
        floorAfter (floorAfter last (c.target p.arrival))
          ((c.after p.arrival).target p.departure) ∧
      (∀ t, c.target p.arrival = some t →
        (f.recorded c last).arrival = some (atLeast last t) ∧
          (f.recorded c last).arrivalDelay = some (atLeast last t - t)) ∧
      (∀ t, (c.after p.arrival).target p.departure = some t →
        (f.recorded c last).departure =
            some (atLeast (floorAfter last (c.target p.arrival)) t) ∧
          (f.recorded c last).departureDelay =
            some (atLeast (floorAfter last (c.target p.arrival)) t - t)) := by
  obtain ⟨hafter, hta, hda⟩ := (h .arrival).event c
  obtain ⟨hafter', htd, hdd⟩ := (h .departure).event (c.after p.arrival)
  have hta' :
      (eventInfo f.newSt (f.baseArrival c) .arrival).time =
        c.target p.arrival := hta
  have htd' :
      (eventInfo f.newSt (f.baseDeparture c) .departure).time =
        (c.after p.arrival).target p.departure := by
    rw [FeedStop.baseDeparture, hafter]
    exact htd
  have hdd' :
      (eventInfo f.newSt (f.baseDeparture c) .departure).delay = some 0 := by
    rw [FeedStop.baseDeparture, hafter]
    exact hdd
  have hdeparture :
      (f.recorded c last).departure =
        floorAfter (floorAfter last (c.target p.arrival))
          ((c.after p.arrival).target p.departure) := by
    rw [FeedStop.recorded, builtStop_departure_eq, hta', htd']
  refine ⟨?_, hdeparture, fun t ht => ?_, fun t ht => ?_⟩
  · rw [FeedStop.nextCalendar, hafter]
    exact hafter'
  · rw [← hta'] at ht
    obtain ⟨ha, hd⟩ :=
      builtStop_arrival_of_target (f.baseArrival c) (f.baseDeparture c) last
        f.newSt f.stopPoint f.order ht
    refine ⟨ha, ?_⟩
    rw [FeedStop.recorded, hd, FeedStop.baseArrival, hda]
    simp
  · have hfloor :
        (f.recorded c last).departure =
          some (atLeast (floorAfter last (c.target p.arrival)) t) := by
      rw [hdeparture, ht]
      rfl
    rw [← htd'] at ht
    obtain ⟨a, -, hd, hdelay⟩ :=
      builtStop_departure_of_target (f.baseArrival c) (f.baseDeparture c) last
        f.newSt f.stopPoint f.order ht
    rw [FeedStop.recorded, hd, Option.some.injEq] at hfloor
    rw [hdd', hfloor] at hdelay
    rw [FeedStop.recorded, hd, hdelay, hfloor]
    simp

/-- The first stop has times when one of its events has a datetime. -/
theorem FeedStop.recorded_arrival_isSome_iff
    (h : ∀ e, f.Says e (p.get e)) (c : Calendar) :
    (f.recorded c none).arrival.isSome ↔ ∃ e, (p.get e).wanted.isSome := by
  obtain ⟨-, hdeparture, -, -⟩ := FeedStop.recorded_of_says h c none
  have htimes :
      (f.recorded c none).arrival.isSome ↔
        (f.recorded c none).departure.isSome := by
    cases ha : (f.recorded c none).arrival with
    | none =>
        have hd : (f.recorded c none).departure = none :=
          builtStop_departure_eq_none _ _ _ _ _ _ ha
        simp [hd]
    | some a =>
        obtain ⟨d, hd, -⟩ := builtStop_departure_isSome _ _ _ _ _ _ ha
        have hdeparture : (f.recorded c none).departure = some d := hd
        simp [hdeparture]
  have hevents :
      (∃ e, (p.get e).wanted.isSome) ↔
        p.arrival.wanted.isSome ∨ p.departure.wanted.isSome :=
    StopEvent.exists_iff
  rw [htimes, hdeparture, hevents, ← Calendar.target_isSome c p.arrival,
    ← Calendar.target_isSome (c.after p.arrival) p.departure]
  cases c.target p.arrival <;>
    cases (c.after p.arrival).target p.departure <;>
    simp [floorAfter]

/-- A recorded event with a target has the wanted datetime if it is its own. -/
theorem wanted_of_target
    {target wanted time floor : Option Datetime}
    (hsome : target.isSome = wanted.isSome)
    (htime : ∀ t, target = some t → time = some (atLeast floor t)) :
    (∀ t, wanted = some t → time = some t) ↔
      target.map (atLeast floor) = wanted := by
  cases target with
  | none =>
      cases wanted with
      | none =>
          simp
      | some t =>
          cases hsome
  | some t =>
      cases wanted with
      | none =>
          cases hsome
      | some t' =>
          rw [htime t rfl]
          simp

/--
The recorded stops have the wanted datetimes exactly when these are the running
maximum of the targets.
-/
theorem recorded_wanted_iff
    {fs : List FeedStop} {ps : List (Events Passage)}
    (h : List.Forall₂ (fun f p => ∀ e, f.Says e (p.get e)) fs ps)
    (c : Calendar) (last : Option Datetime) :
    List.Forall₂ RecordedAt (ps.map (Events.map Passage.wanted))
        ((turns c last fs).map MergedStop.resSt) ↔
      runningMax last (targets c (Events.list ps)) =
        (Events.list ps).map Passage.wanted := by
  induction h generalizing c last with
  | nil =>
      simp [turns, Events.list, targets, runningMax]
  | @cons f p fs ps hf hrest ih =>
      obtain ⟨hnext, hdeparture, harr, hdep⟩ :=
        FeedStop.recorded_of_says hf c last
      have ha :=
        wanted_of_target (c.target_isSome p.arrival)
          (fun t ht => (harr t ht).1)
      have hd :=
        wanted_of_target ((c.after p.arrival).target_isSome p.departure)
          (fun t ht => (hdep t ht).1)
      have hstop :
          RecordedAt (p.map Passage.wanted) (f.recorded c last) ↔
            (c.target p.arrival).map (atLeast last) = p.arrival.wanted ∧
              ((c.after p.arrival).target p.departure).map
                  (atLeast (floorAfter last (c.target p.arrival))) =
                p.departure.wanted := by
        rw [← ha, ← hd]
        exact StopEvent.forall_iff
      have htail := ih (f.nextCalendar c) (f.recorded c last).departure
      rw [hnext, hdeparture] at htail
      have hrecorded : (f.turn c last).resSt = f.recorded c last := rfl
      rw [turns, List.map_cons, List.map_cons, List.forall₂_cons, hrecorded,
        hstop, hnext, hdeparture, htail]
      simp only [Events.list, targets, runningMax, List.map_cons,
        List.cons.injEq, and_assoc]

/--
When the merge aims at the wanted datetimes, in chronological order, they are
recorded with zero delays.
-/
theorem recorded_onTime
    {fs : List FeedStop} {ps : List (Events Passage)}
    (h : List.Forall₂ (fun f p => ∀ e, f.Says e (p.get e)) fs ps)
    {c : Calendar} {last : Option Datetime}
    (hchron : InOrder last ((Events.list ps).map Passage.wanted))
    (htargets : targets c (Events.list ps) =
      (Events.list ps).map Passage.wanted) :
    List.Forall₂ RecordedOnTime (ps.map (Events.map Passage.wanted))
      ((turns c last fs).map MergedStop.resSt) := by
  induction h generalizing c last with
  | nil =>
      exact List.Forall₂.nil
  | @cons f p fs ps hf hrest ih =>
      simp only [Events.list, targets, List.map_cons, List.cons.injEq]
        at htargets hchron
      rcases htargets with ⟨hta, htd, hts⟩
      obtain ⟨harrLe, hchron⟩ := hchron.head
      obtain ⟨hdepLe, hchron⟩ := hchron.head
      obtain ⟨hnext, hdeparture, harr, hdep⟩ :=
        FeedStop.recorded_of_says hf c last
      have hrecorded : (f.turn c last).resSt = f.recorded c last := rfl
      rw [turns, List.map_cons, List.map_cons, List.forall₂_cons, hrecorded,
        hnext, hdeparture, hta, htd]
      refine ⟨fun e t ht => ?_, ih hchron hts⟩
      cases e with
      | arrival =>
          obtain ⟨htime, hdelay⟩ := harr t (hta.trans ht)
          rw [harrLe t ht] at htime hdelay
          rw [Int.sub_self] at hdelay
          exact ⟨htime, hdelay⟩
      | departure =>
          obtain ⟨htime, hdelay⟩ := hdep t (htd.trans ht)
          rw [hta, hdepLe t ht] at htime hdelay
          rw [Int.sub_self] at hdelay
          exact ⟨htime, hdelay⟩

/-- The merge records the wanted datetimes on time when it aims at them. -/
theorem recordedOnTime_iff
    {fs : List FeedStop} {ps : List (Events Passage)}
    (h : List.Forall₂ (fun f p => ∀ e, f.Says e (p.get e)) fs ps)
    {c : Calendar} {last : Option Datetime}
    (hforward : InOrder last (targets c (Events.list ps)))
    (hchron : InOrder last ((Events.list ps).map Passage.wanted)) :
    List.Forall₂ RecordedOnTime (ps.map (Events.map Passage.wanted))
        ((turns c last fs).map MergedStop.resSt) ↔
      targets c (Events.list ps) = (Events.list ps).map Passage.wanted := by
  constructor
  · intro hrecorded
    rw [← hforward.runningMax_eq]
    exact (recorded_wanted_iff h c last).1
      (hrecorded.imp (fun _ _ => RecordedOnTime.recordedAt))
  · exact recorded_onTime h hchron

end Turns

end Core
end Kirin
