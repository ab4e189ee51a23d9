import Kirin.Core.AcceptedChronology
import Kirin.Core.EncodedRows
import Kirin.Core.TouchedRows
import Kirin.Library.Runs

/-!
# Kirin: the trips that can be encoded

The delays of a merged trip are those of its feed, and what the merge pushes its
events by.  A push always leads to the latest of the times planned so far, so
that the feed alone tells which delays are recorded.

* `PlanFits`: the delays of a feed fit, with what its earlier events push them by.
* `turns_delaysFit_iff`: the run of a feed records delays that fit exactly then.
* `accepted_delaysFit_iff`: so does an accepted trip.
* `processed_delaysFit`: a feed whose plan fits leaves rows whose delays fit.
-/

namespace Kirin
namespace Core

open FeedStop

/-- A stop event as the feed plans it, before any push. -/
structure PlannedEvent where
  time : Option Datetime
  delay : Option Timedelta
deriving DecidableEq, Repr

/-- The two events of a stop, each one being at the other when it has no time. -/
def FeedStop.planned (f : FeedStop) (c : Calendar) : List PlannedEvent :=
  let arrival := eventInfo f.newSt (f.baseArrival c) .arrival
  let departure := eventInfo f.newSt (f.baseDeparture c) .departure
  [{ time := arrival.time <|> departure.time, delay := arrival.delay },
    { time := departure.time <|> arrival.time, delay := departure.delay }]

/-- The events of the stops of a feed. -/
def plannedEvents : Calendar → List FeedStop → List PlannedEvent
  | _, [] => []
  | c, f :: fs => f.planned c ++ plannedEvents (f.nextCalendar c) fs

/-- The latest time of some events. -/
def latest (events : List PlannedEvent) : Option Datetime :=
  events.foldl (fun last e => floorAfter last e.time) none

/--
The delay of every event fits, with the amount by which the latest of the
earlier events comes after it.
-/
def PlanFits (events : List PlannedEvent) : Prop :=
  ∀ before e after, events = before ++ e :: after →
    ∀ d ∈ e.delay, FitsInt32 (d + pushAmount (latest before) e.time)

/-- The same, from a given latest time on. -/
def planFitsFrom : Option Datetime → List PlannedEvent → Prop
  | _, [] => True
  | last, e :: rest =>
      (∀ d ∈ e.delay, FitsInt32 (d + pushAmount last e.time)) ∧
        planFitsFrom (floorAfter last e.time) rest

instance planFitsFrom.decidable
    (last : Option Datetime) (events : List PlannedEvent) :
    Decidable (planFitsFrom last events) :=
  match events with
  | [] => isTrue trivial
  | e :: rest =>
      have := planFitsFrom.decidable (floorAfter last e.time) rest
      inferInstanceAs (Decidable (_ ∧ _))

/-- The events that fit after some others. -/
theorem planFitsFrom_iff
    {before events : List PlannedEvent} :
    planFitsFrom (latest before) events ↔
      ∀ middle e after, events = middle ++ e :: after →
        ∀ d ∈ e.delay,
          FitsInt32 (d + pushAmount (latest (before ++ middle)) e.time) := by
  induction events generalizing before with
  | nil =>
      refine iff_of_true trivial (fun middle e after h => ?_)
      simp at h
  | cons e rest ih =>
      have hlatest : floorAfter (latest before) e.time =
          latest (before ++ [e]) := by
        simp [latest]
      rw [planFitsFrom, hlatest, ih]
      constructor
      · rintro ⟨he, hrest⟩ middle e' after h
        cases middle with
        | nil =>
            cases h
            simpa using he
        | cons m middle =>
            cases h
            simpa using hrest middle e' after rfl
      · intro h
        refine ⟨by simpa using h [] e rest rfl, fun middle e' after hsplit => ?_⟩
        simpa using h (e :: middle) e' after (by rw [hsplit]; rfl)

theorem planFits_iff
    {events : List PlannedEvent} :
    PlanFits events ↔ planFitsFrom none events :=
  (@planFitsFrom_iff [] events).symm

instance (events : List PlannedEvent) : Decidable (PlanFits events) :=
  decidable_of_iff _ planFits_iff.symm

section Push

variable (last arrival departure : Option Datetime)

/-- An event that is put at the last departure is not pushed by it. -/
theorem pushAmount_arrival :
    pushAmount last (arrival <|> departure <|> last) =
      pushAmount last (arrival <|> departure) := by
  cases arrival <;> cases departure <;> cases last <;> simp [pushAmount]

/-- A departure is pushed by the arrival of its stop and by the earlier ones. -/
theorem pushAmount_departure :
    pushAmount (pushedTime last (arrival <|> departure <|> last))
        (departure <|> arrival <|> departure <|> last) =
      pushAmount (floorAfter last (arrival <|> departure))
        (departure <|> arrival) := by
  cases arrival <;> cases departure <;> cases last <;>
    simp [pushAmount, pushedTime, floorAfter]

/-- An event that is put at the other one of its stop is not a later one. -/
theorem floorAfter_planned :
    floorAfter (floorAfter last (arrival <|> departure))
        (departure <|> arrival) =
      floorAfter (floorAfter last arrival) departure := by
  cases arrival <;> cases departure <;> cases last <;> simp [floorAfter]

end Push

section Recorded

variable (f : FeedStop) (c : Calendar) (last : Option Datetime)

/-- The delays of a recorded stop, and the floor it leaves to the next one. -/
theorem recorded_planFits
    (events : List PlannedEvent) :
    planFitsFrom last (f.planned c ++ events) ↔
      StopFits (f.recorded c last) ∧
        planFitsFrom (f.recorded c last).departure events := by
  have harrival : (f.recorded c last).arrivalDelay =
      (eventInfo f.newSt (f.baseArrival c) .arrival).delay.map
        (fun d => d + pushAmount last
          ((eventInfo f.newSt (f.baseArrival c) .arrival).time <|>
            (eventInfo f.newSt (f.baseDeparture c) .departure).time)) := by
    rw [← pushAmount_arrival]
    rfl
  have hdeparture : (f.recorded c last).departureDelay =
      (eventInfo f.newSt (f.baseDeparture c) .departure).delay.map
        (fun d => d + pushAmount
          (floorAfter last
            ((eventInfo f.newSt (f.baseArrival c) .arrival).time <|>
              (eventInfo f.newSt (f.baseDeparture c) .departure).time))
          ((eventInfo f.newSt (f.baseDeparture c) .departure).time <|>
            (eventInfo f.newSt (f.baseArrival c) .arrival).time)) := by
    rw [← pushAmount_departure]
    rfl
  have hfloor : (f.recorded c last).departure =
      floorAfter (floorAfter last
          ((eventInfo f.newSt (f.baseArrival c) .arrival).time <|>
            (eventInfo f.newSt (f.baseDeparture c) .departure).time))
        ((eventInfo f.newSt (f.baseDeparture c) .departure).time <|>
          (eventInfo f.newSt (f.baseArrival c) .arrival).time) := by
    rw [floorAfter_planned]
    exact builtStop_departure_eq _ _ _ _ _ _
  rw [StopFits, harrival, hdeparture, hfloor]
  simp only [planned, List.cons_append, List.nil_append, planFitsFrom,
    Option.mem_map, forall_exists_index, and_imp, forall_apply_eq_imp_iff₂,
    and_assoc]

end Recorded

/-- The run of a feed records delays that fit exactly when its plan fits. -/
theorem turns_delaysFit_iff
    (c : Calendar) (last : Option Datetime) (fs : List FeedStop) :
    DelaysFit ((turns c last fs).map MergedStop.resSt) ↔
      planFitsFrom last (plannedEvents c fs) := by
  induction fs generalizing c last with
  | nil =>
      exact iff_of_true (fun st hst => nomatch hst) trivial
  | cons f fs ih =>
      rw [plannedEvents, recorded_planFits, ← ih, turns, List.map_cons,
        DelaysFit, List.forall_mem_cons]
      exact Iff.rfl

/-- The stops of a list of computations about which a feed says something. -/
def resolvedStops (new : NewTripUpdate)
    (items : List (Except PyException (Nat × StopTime))) : List FeedStop :=
  items.filterMap (fun next =>
    match next with
    | .error _ => none
    | .ok (order, navitiaStop) => do
        let stopPoint ← navitiaStop.stopPoint
        let newSt ← new.findStop (some stopPoint.id) order
        return {
          order := order
          navitiaStop := navitiaStop
          stopPoint := stopPoint
          newSt := newSt })

theorem resolvedStops_eq
    {new : NewTripUpdate}
    {items : List (Except PyException (Nat × StopTime))} {fs : List FeedStop}
    (h : List.Forall₂ (Resolves new) items fs) :
    resolvedStops new items = fs := by
  induction h with
  | nil =>
      rfl
  | @cons next f items fs hnext hrest ih =>
      rw [resolvedStops] at ih ⊢
      rw [List.filterMap_cons, ih, hnext.next_eq]
      simp [hnext.stopPoint_eq, hnext.newSt_eq]

/-- The events that a feed plans, the stored trip being given. -/
def planOf (b : Builder) (old : Option TripUpdate) (new : NewTripUpdate) :
    List PlannedEvent :=
  plannedEvents (startCalendar new.vj)
    (resolvedStops new
      (stopsToGoThrough new.navitiaVj old new b.isNewComplete))

/-- The delays of a trip update that is not a cancellation fit. -/
def FeedFits (b : Builder) (old : Option TripUpdate) (new : NewTripUpdate) :
    Prop :=
  new.status ≠ .delete → PlanFits (planOf b old new)

instance (b : Builder) (old : Option TripUpdate) (new : NewTripUpdate) :
    Decidable (FeedFits b old new) :=
  inferInstanceAs (Decidable (_ → _))

section Managed

variable {stus : List StopTimeUpdate} {st : StopTimeUpdate}

/-- Filling the missing delays of a stop adds nothing that does not fit. -/
theorem stopFits_fillDelays :
    StopFits (fillDelays st) ↔ StopFits st := by
  have hfill : ∀ delay : Option Timedelta,
      (∀ d ∈ some (delay.getD 0), FitsInt32 d) ↔ ∀ d ∈ delay, FitsInt32 d := by
    intro delay
    cases delay with
    | none =>
        refine iff_of_true (fun d hd => ?_) (fun d hd => nomatch hd)
        cases hd
        decide
    | some d =>
        exact Iff.rfl
  exact and_congr (hfill st.arrivalDelay) (hfill st.departureDelay)

theorem delaysFit_map_fillDelays :
    DelaysFit (stus.map fillDelays) ↔ DelaysFit stus := by
  simp only [DelaysFit, List.forall_mem_map, stopFits_fillDelays]

/-- The consistency leaves delays that fit. -/
theorem manageConsistency_delaysFit
    (hchain : Chained none stus) (h : DelaysFit stus) :
    DelaysFit (manageConsistency stus).2 := by
  intro out hout
  obtain ⟨st, hst, rfl | rfl⟩ := RelatedLists.exists_of_mem_right
    (manageConsistency_filled hchain) hout
  · exact h _ hst
  · exact stopFits_fillDelays.2 (h st hst)

theorem dropRepeatedStops_sublist
    (stus : List StopTimeUpdate) :
    (dropRepeatedStops stus).Sublist stus := by
  induction stus with
  | nil =>
      exact List.Sublist.slnil
  | cons st rest ih =>
      exact (List.filter_sublist.trans ih).cons_cons st

/-- The stops that are read back are among those that were written. -/
theorem mem_of_mem_reloadStops
    (h : st ∈ reloadStops stus) :
    st ∈ stus := by
  rw [reloadStops, List.mem_insertionSort] at h
  exact (dropRepeatedStops_sublist stus).subset h

end Managed

section Process

variable {b : Builder} {old : Option TripUpdate} {new : NewTripUpdate}

/-- The run of a feed that is not a cancellation, and whether its plan fits. -/
theorem feedFits_iff
    (hstatus : new.status ≠ .delete) {fs : List FeedStop}
    (hfs : List.Forall₂ (Resolves new)
      (stopsToGoThrough new.navitiaVj old new b.isNewComplete) fs) :
    FeedFits b old new ↔
      DelaysFit ((turns (startCalendar new.vj) none fs).map
        MergedStop.resSt) := by
  rw [turns_delaysFit_iff, ← planFits_iff, FeedFits, planOf,
    resolvedStops_eq hfs]
  exact ⟨fun h => h hstatus, fun h _ => h⟩

/-- The delays of an accepted trip fit exactly when those of its feed do. -/
theorem accepted_delaysFit_iff
    (hfits : FitsBuilder b new)
    (hlinked : (processTripUpdate b old new).linked = .ok true) :
    DelaysFit (processTripUpdate b old new).tripUpdate.stopTimeUpdates ↔
      FeedFits b old new := by
  by_cases hstatus : new.status = .delete
  · rw [processTripUpdate_cancelled hstatus]
    exact iff_of_true (fun st hst => nomatch hst)
      (fun hne => absurd hstatus hne)
  · obtain ⟨fs, hfs, -, -, hleft⟩ :=
      processTripUpdate_run hfits hstatus hlinked
    rw [hleft, delaysFit_map_fillDelays, feedFits_iff hstatus hfs]

/-- A feed that fits leaves rows whose delays fit, accepted or not. -/
theorem processed_delaysFit
    (hfits : FitsBuilder b new) (hplan : FeedFits b old new)
    (hold : ∀ row ∈ old, DelaysFit row.stopTimeUpdates)
    (hstored : old.isSome ∨ (processTripUpdate b old new).linked = .ok true) :
    DelaysFit (processTripUpdate b old new).tripUpdate.stopTimeUpdates := by
  by_cases hlinked : (processTripUpdate b old new).linked = .ok true
  · exact (accepted_delaysFit_iff hfits hlinked).2 hplan
  · obtain ⟨row, rfl⟩ := Option.isSome_iff_exists.1 (hstored.resolve_right hlinked)
    have hrow := hold row rfl
    have hstatus : new.status ≠ .delete := by
      intro hstatus
      rw [processTripUpdate_cancelled hstatus] at hlinked
      exact hlinked rfl
    cases hstops : mergeStops new.navitiaVj (some row) new b.isNewComplete with
    | error e =>
        rw [processTripUpdate_error hstatus hstops]
        exact hrow
    | ok r =>
        obtain ⟨stops, changed⟩ := r
        cases changed with
        | false =>
            rw [processTripUpdate_unchanged hstatus hstops]
            exact hrow
        | true =>
            obtain ⟨fs, hfs, hin, rfl, -⟩ := fitsVj_turns hfits hstops
            rw [processTripUpdate_changed hstatus hstops]
            intro st hst
            exact manageConsistency_delaysFit (turns_chained _ none fs)
              ((feedFits_iff hstatus hfs).1 hplan) st
              (mem_of_mem_reloadStops hst)

end Process

section Loop

variable {b : Builder} {s s' : Session} {new : NewTripUpdate}
variable {ts : List NewTripUpdate} {r : Except PyException Unit}

/-- All the rows of a session have delays that fit. -/
def Session.DelaysFit (s : Session) : Prop :=
  ∀ row ∈ s.allRows, Core.DelaysFit row.stopTimeUpdates

/-- Each trip update of a feed fits, with the row that it finds in its turn. -/
def PlansFit (b : Builder) (s : Session) (ts : List NewTripUpdate) : Prop :=
  Runs.Along (fun s new => (handleTripUpdate b s new).1)
    (fun s new => FeedFits b (findByDatedVj s.rows new.vj) new) s ts

instance (b : Builder) (s : Session) (ts : List NewTripUpdate) :
    Decidable (PlansFit b s ts) :=
  inferInstanceAs (Decidable (Runs.Along _ _ s ts))

/-- One turn of the loop keeps delays that fit. -/
theorem handleTripUpdate_delaysFit
    (hfits : FitsBuilder b new)
    (hplan : FeedFits b (findByDatedVj s.rows new.vj) new)
    (h : s.DelaysFit) :
    (handleTripUpdate b s new).1.DelaysFit := by
  have hold : ∀ row ∈ findByDatedVj s.rows new.vj,
      Core.DelaysFit row.stopTimeUpdates := fun row hrow =>
    h row (List.mem_append_left _ (findByDatedVj_mem hrow))
  intro row hrow
  rcases List.mem_append.1 hrow with hrows | hcreated
  · cases hfind : findByDatedVj s.rows new.vj with
    | none =>
        rw [handleTripUpdate_rows_of_none b hfind] at hrows
        exact h row (List.mem_append_left _ hrows)
    | some old =>
        rw [hfind] at hplan hold
        rw [handleTripUpdate_rows_of_some b hfind] at hrows
        rcases KeyedStore.of_mem_replace hrows with rfl | hstored
        · exact processed_delaysFit hfits hplan hold (Or.inl rfl)
        · exact h row (List.mem_append_left _ hstored)
  · rw [handleTripUpdate_created] at hcreated
    split at hcreated
    · rename_i hnew
      rcases List.mem_append.1 hcreated with hstored | hlast
      · exact h row (List.mem_append_right _ hstored)
      · rw [hnew.1] at hplan hold
        obtain rfl := List.mem_singleton.1 hlast
        exact processed_delaysFit hfits hplan hold (Or.inr hnew.2)
    · exact h row (List.mem_append_right _ hcreated)

/-- The loop keeps delays that fit. -/
theorem handleLoop_delaysFit
    (hloop : handleLoop b s ts = (s', r))
    (hfits : ∀ new ∈ ts, FitsBuilder b new)
    (hplans : PlansFit b s ts)
    (h : s.DelaysFit) :
    s'.DelaysFit := by
  have hturn : ∀ (s1 : Session) (new : NewTripUpdate)
      (rest : List NewTripUpdate),
      ((∀ t ∈ new :: rest, FitsBuilder b t) ∧ PlansFit b s1 (new :: rest) ∧
        s1.DelaysFit) →
      (∀ t ∈ rest, FitsBuilder b t) ∧
        PlansFit b (handleTripUpdate b s1 new).1 rest ∧
        (handleTripUpdate b s1 new).1.DelaysFit := by
    rintro s1 new rest ⟨hfits1, hplans1, hdelays1⟩
    rw [List.forall_mem_cons] at hfits1
    exact ⟨hfits1.2, hplans1.2,
      handleTripUpdate_delaysFit hfits1.1 hplans1.1 hdelays1⟩
  obtain ⟨_, ⟨-, -, hleft⟩, -⟩ := handleLoop_invariant
    (P := fun s1 rest => (∀ t ∈ rest, FitsBuilder b t) ∧ PlansFit b s1 rest ∧
      s1.DelaysFit)
    hturn ⟨hfits, hplans, h⟩ hloop
  exact hleft

/-- The processing of a feed keeps delays that fit. -/
theorem FeedOutcome.delaysFit
    {network : Network} {db : Db} {rtu : RealTimeUpdate}
    {build : Except PyException BuiltFeed} {result : HandleResult}
    (houtcome : FeedOutcome b network db rtu build result)
    (hfits : ∀ built, build = .ok built →
      ∀ new ∈ built.tripUpdates, FitsBuilder b new)
    (hplans : ∀ built, build = .ok built →
      PlansFit b db.session built.tripUpdates)
    (h : ∀ row ∈ db.tripUpdates, Core.DelaysFit row.stopTimeUpdates) :
    ∀ row ∈ result.db.tripUpdates, Core.DelaysFit row.stopTimeUpdates := by
  rcases houtcome.rows with hsame | ⟨built, s, r, hbuilt, hloop, hrows, -⟩
  · rw [hsame.1]
    exact h
  · rw [hrows]
    refine handleLoop_delaysFit hloop (hfits built hbuilt)
      (hplans built hbuilt) (fun row hrow => h row ?_)
    simpa [Session.allRows, Db.session] using hrow

end Loop

end Core
end Kirin
