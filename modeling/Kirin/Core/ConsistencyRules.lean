import Kirin.Core.BuildWrapper
import Kirin.Core.MergeRun

/-!
# Kirin: consistency management after a merge

A run over the stops of a feed leaves its events in chronological order:
`turns_chained`.  On such a list `manageConsistency` has little to do.

* `manageConsistency_accepted`: when the list is accepted, every stop has its
  two times, the orders are the indexes, and only missing delays were filled.
* `manageConsistency_timed`: a list with all its times and with its indexes as
  orders is accepted.
* `manageConsistency_filled`: accepted or not, stops are left as they are or get
  their missing delays; so what does not depend on these is kept.
* `manageConsistency_delays`: when no delay is missing the list is left as it
  is, accepted or not.
* `reloadStops_of_increasing`: reading back stops whose orders increase changes
  nothing.
-/

namespace Kirin
namespace Core

/-- Both delays of a stop, zero for those that are missing. -/
def fillDelays (st : StopTimeUpdate) : StopTimeUpdate :=
  { st with
    arrivalDelay := some (st.arrivalDelay.getD 0)
    departureDelay := some (st.departureDelay.getD 0) }

@[simp] theorem fillDelays_arrival
    (st : StopTimeUpdate) :
    (fillDelays st).arrival = st.arrival :=
  rfl

@[simp] theorem fillDelays_departure
    (st : StopTimeUpdate) :
    (fillDelays st).departure = st.departure :=
  rfl

/-- A stop whose two delays are recorded. -/
def HasDelays (st : StopTimeUpdate) : Prop :=
  st.arrivalDelay.isSome ∧ st.departureDelay.isSome

/-- A stop is left as it is exactly when its two delays are recorded. -/
theorem fillDelays_eq_iff
    {st : StopTimeUpdate} :
    fillDelays st = st ↔ HasDelays st := by
  constructor
  · intro h
    rw [← h]
    exact ⟨rfl, rfl⟩
  · rintro ⟨harrival, hdeparture⟩
    obtain ⟨da, hda⟩ := Option.isSome_iff_exists.1 harrival
    obtain ⟨dd, hdd⟩ := Option.isSome_iff_exists.1 hdeparture
    cases st
    simp only at hda hdd
    subst hda hdd
    rfl

/-- A stop that has its two times, in order and not before a given one. -/
def TimedAfter (last : Option Datetime) (st : StopTimeUpdate) : Prop :=
  ∃ a d, st.arrival = some a ∧ st.departure = some d ∧
    (∀ l, last = some l → l ≤ a) ∧ a ≤ d

/-- All events of the stops have a time, in chronological order. -/
def TimedChain : Option Datetime → List StopTimeUpdate → Prop
  | _, [] => True
  | last, st :: rest => TimedAfter last st ∧ TimedChain st.departure rest

/--
The events of the stops are in chronological order, except that the first stops
may have no time at all.
-/
def Chained : Option Datetime → List StopTimeUpdate → Prop
  | _, [] => True
  | last, st :: rest =>
      (TimedAfter last st ∨
        last = none ∧ st.arrival = none ∧ st.departure = none) ∧
      Chained st.departure rest

theorem builtStop_chained
    (ba bd last : Option Datetime) (inputSt : StopTimeUpdate)
    (sp : StopPoint) (order : Nat) :
    TimedAfter last (builtStop ba bd last inputSt sp order) ∨
      last = none ∧ (builtStop ba bd last inputSt sp order).arrival = none ∧
        (builtStop ba bd last inputSt sp order).departure = none := by
  cases ha : (builtStop ba bd last inputSt sp order).arrival with
  | none =>
      refine Or.inr ⟨?_, rfl, builtStop_departure_eq_none ba bd last inputSt sp
        order ha⟩
      cases last with
      | none =>
          rfl
      | some l =>
          obtain ⟨a, ha', -⟩ :=
            builtStop_arrival_isSome ba bd (some l) inputSt sp order rfl
          rw [ha] at ha'
          cases ha'
  | some a =>
      obtain ⟨d, hd, had⟩ :=
        builtStop_departure_isSome ba bd last inputSt sp order ha
      refine Or.inl ⟨a, d, ha, hd, ?_, had⟩
      intro l hl
      obtain ⟨a', ha', hla⟩ :=
        builtStop_arrival_isSome ba bd last inputSt sp order hl
      rw [ha] at ha'
      cases ha'
      exact hla

/-- A run over the stops of a feed leaves its events in order. -/
theorem turns_chained
    (c : Calendar) (last : Option Datetime) (fs : List FeedStop) :
    Chained last ((turns c last fs).map MergedStop.resSt) := by
  induction fs generalizing c last with
  | nil =>
      trivial
  | cons f fs ih =>
      exact ⟨builtStop_chained _ _ _ _ _ _, ih _ _⟩

/-- An event that does not come before the previous one is not pushed. -/
theorem pushEvent_of_le
    {previous : TimeDelayTuple Datetime} {t : Datetime} (d : Timedelta)
    (h : ∀ p, previous.time = some p → p ≤ t) :
    pushEvent previous t d = (t, d) := by
  unfold pushEvent
  cases hp : previous.time with
  | none =>
      rfl
  | some p =>
      exact if_neg (not_lt.2 (h p hp))

theorem adjustEvent_of_le
    {previous : TimeDelayTuple Datetime} {t : Datetime} (deleted : Bool)
    (d : Timedelta) (h : ∀ p, previous.time = some p → p ≤ t) :
    ∃ next, adjustEvent previous deleted t d = ((t, d), next) ∧
      ∀ p, next.time = some p → p ≤ t := by
  cases deleted with
  | true =>
      exact ⟨previous, by simp [adjustEvent], h⟩
  | false =>
      refine ⟨{ time := some t, delay := d }, ?_, ?_⟩
      · simp [adjustEvent, pushEvent_of_le d h]
      · intro p hp
        cases hp
        exact le_refl t

/-- The event to compare the next ones with is not after a given time. -/
abbrev NotAfter
    (previous : TimeDelayTuple Datetime) (last : Option Datetime) : Prop :=
  ∀ p, previous.time = some p → ∃ l, last = some l ∧ p ≤ l

theorem NotAfter.time_eq_none
    {previous : TimeDelayTuple Datetime} (h : NotAfter previous none) :
    previous.time = none := by
  cases hp : previous.time with
  | none =>
      rfl
  | some p =>
      obtain ⟨l, hl, -⟩ := h p hp
      cases hl

/-- A stop that has its times in order only gets its missing delays. -/
theorem adjustStop_timed
    {previous : TimeDelayTuple Datetime} {last : Option Datetime}
    {st : StopTimeUpdate}
    (h : TimedAfter last st)
    (hprev : NotAfter previous last) :
    ∃ next, adjustStop previous st = some (fillDelays st, next) ∧
      NotAfter next st.departure := by
  rcases h with ⟨a, d, ha, hd, hla, had⟩
  have hpa : ∀ p, previous.time = some p → p ≤ a := by
    intro p hp
    obtain ⟨l, hl, hpl⟩ := hprev p hp
    exact le_trans hpl (hla l hl)
  obtain ⟨mid, hmid, hmidle⟩ :=
    adjustEvent_of_le (st.isStopEventDeleted .arrival)
      (st.arrivalDelay.getD 0) hpa
  obtain ⟨next, hnext, hnextle⟩ :=
    adjustEvent_of_le (t := d) (st.isStopEventDeleted .departure)
      (st.departureDelay.getD 0) (fun p hp => le_trans (hmidle p hp) had)
  refine ⟨next, ?_, fun p hp => ⟨d, hd, hnextle p hp⟩⟩
  cases st
  simp only at ha hd
  subst ha hd
  have hfirst : (some a <|> some d <|> previous.time) = some a := rfl
  simp only [adjustStop, hfirst, Option.isNone_some, Option.getD_some,
    Bool.false_eq_true, if_false, hmid, hnext]
  rfl

/-- A stop without any time is rejected when nothing comes before. -/
theorem adjustStop_untimed
    {previous : TimeDelayTuple Datetime} {st : StopTimeUpdate}
    (ha : st.arrival = none) (hd : st.departure = none)
    (hprev : previous.time = none) :
    adjustStop previous st = none := by
  simp [adjustStop, ha, hd, hprev]

section Loop

variable {k : Nat} {previous : TimeDelayTuple Datetime}
variable {last : Option Datetime} {stus : List StopTimeUpdate}

theorem consistencyLoop_timed
    (hchain : TimedChain last stus)
    (hprev : NotAfter previous last)
    (horders : stus.map StopTimeUpdate.order = List.range' k stus.length) :
    consistencyLoop k previous stus = (true, stus.map fillDelays) := by
  induction stus generalizing k previous last with
  | nil =>
      rfl
  | cons st rest ih =>
      rcases hchain with ⟨hst, hrest⟩
      rw [List.map_cons, List.length_cons, List.range'_succ,
        List.cons.injEq] at horders
      obtain ⟨next, hadjust, hnext⟩ := adjustStop_timed hst hprev
      simp only [consistencyLoop, horders.1, ne_eq, not_true, if_false,
        hadjust, ih hrest hnext horders.2]
      rfl

/-- The stops before the rejection, if any, only get their missing delays. -/
theorem consistencyLoop_accepted
    {result : List StopTimeUpdate}
    (hchain : Chained last stus)
    (hprev : NotAfter previous last)
    (h : consistencyLoop k previous stus = (true, result)) :
    TimedChain last stus ∧
      stus.map StopTimeUpdate.order = List.range' k stus.length ∧
      result = stus.map fillDelays := by
  induction stus generalizing k previous last result with
  | nil =>
      cases h
      exact ⟨trivial, rfl, rfl⟩
  | cons st rest ih =>
      rcases hchain with ⟨hst, hrest⟩
      simp only [consistencyLoop] at h
      split at h
      · cases h
      · rename_i horder
        rcases hst with hst | ⟨hlast, ha, hd⟩
        · obtain ⟨next, hadjust, hnext⟩ := adjustStop_timed hst hprev
          rw [hadjust] at h
          cases hloop : consistencyLoop (k + 1) next rest with
          | mk accepted result' =>
              simp only [hloop, Prod.mk.injEq] at h
              rcases h with ⟨rfl, rfl⟩
              obtain ⟨htimed, horders, hresult⟩ := ih hrest hnext hloop
              refine ⟨⟨hst, htimed⟩, ?_, ?_⟩
              · rw [List.map_cons, List.length_cons, List.range'_succ, horders,
                  not_not.1 horder]
              · rw [List.map_cons, hresult]
        · subst hlast
          rw [adjustStop_untimed ha hd hprev.time_eq_none] at h
          cases h

/-- Accepted or not, a stop is left as it is or gets its missing delays. -/
theorem consistencyLoop_filled
    (hchain : Chained last stus) (hprev : NotAfter previous last) :
    List.Forall₂ (fun st out => out = st ∨ out = fillDelays st) stus
      (consistencyLoop k previous stus).2 := by
  have hsame : ∀ stus : List StopTimeUpdate,
      List.Forall₂ (fun st out => out = st ∨ out = fillDelays st) stus stus :=
    fun stus => List.forall₂_same.2 (fun _ _ => Or.inl rfl)
  induction stus generalizing k previous last with
  | nil =>
      exact List.Forall₂.nil
  | cons st rest ih =>
      rcases hchain with ⟨hst, hrest⟩
      simp only [consistencyLoop]
      split
      · exact hsame _
      · rcases hst with hst | ⟨hlast, ha, hd⟩
        · obtain ⟨next, hadjust, hnext⟩ := adjustStop_timed hst hprev
          rw [hadjust]
          exact List.Forall₂.cons (Or.inr rfl) (ih hrest hnext)
        · subst hlast
          rw [adjustStop_untimed ha hd hprev.time_eq_none]
          exact hsame _

end Loop

section Managed

variable {stus : List StopTimeUpdate}

/-- What is accepted, and how it is left. -/
theorem manageConsistency_accepted
    {result : List StopTimeUpdate}
    (hchain : Chained none stus)
    (h : manageConsistency stus = (true, result)) :
    TimedChain none stus ∧ Indexed stus ∧ result = stus.map fillDelays := by
  obtain ⟨htimed, horders, hresult⟩ :=
    consistencyLoop_accepted hchain (by simp [NotAfter]) h
  rw [← List.range_eq_range'] at horders
  exact ⟨htimed, horders, hresult⟩

/-- A list with all its times, in order, is accepted. -/
theorem manageConsistency_timed
    (hchain : TimedChain none stus) (hindexed : Indexed stus) :
    manageConsistency stus = (true, stus.map fillDelays) := by
  apply consistencyLoop_timed hchain (by simp [NotAfter])
  rw [hindexed, List.range_eq_range']

/-- Accepted or not, the stops are left as they are or get their missing delays. -/
theorem manageConsistency_filled
    (hchain : Chained none stus) :
    List.Forall₂ (fun st out => out = st ∨ out = fillDelays st) stus
      (manageConsistency stus).2 :=
  consistencyLoop_filled hchain (by simp [NotAfter])

/-- What does not depend on the delays is kept. -/
theorem manageConsistency_map
    {α : Type} {g : StopTimeUpdate → α} (hg : ∀ st, g (fillDelays st) = g st)
    (hchain : Chained none stus) :
    (manageConsistency stus).2.map g = stus.map g := by
  refine (RelatedLists.map_eq_map_iff.2
    ((manageConsistency_filled hchain).imp ?_)).symm
  rintro st out (rfl | rfl)
  · rfl
  · exact (hg st).symm

/-- Increasing orders are kept. -/
theorem manageConsistency_increasing
    (hchain : Chained none stus)
    (h : stus.Pairwise (fun a b => a.order < b.order)) :
    (manageConsistency stus).2.Pairwise (fun a b => a.order < b.order) := by
  have horders : (stus.map StopTimeUpdate.order).Pairwise (fun i j => i < j) :=
    List.pairwise_map.2 h
  rw [← manageConsistency_map (fun _ => rfl) hchain] at horders
  exact List.pairwise_map.1 horders

/-- When no delay is missing the list is left as it is. -/
theorem manageConsistency_delays
    (hchain : Chained none stus) (hdelays : ∀ st ∈ stus, HasDelays st) :
    (manageConsistency stus).2 = stus := by
  have hsame : List.Forall₂ (fun st out => st = out) stus
      (manageConsistency stus).2 := by
    refine ((List.forall₂_and_left _ _).2
      ⟨hdelays, manageConsistency_filled hchain⟩).imp ?_
    rintro st out ⟨hst, rfl | rfl⟩
    · rfl
    · exact (fillDelays_eq_iff.2 hst).symm
  exact (List.forall₂_eq_eq_eq ▸ hsame : stus = _).symm

/-- Once a stop has its times, so do all the following ones. -/
theorem Chained.timed
    {last : Option Datetime} (h : Chained last stus)
    (hfirst : last.isSome ∨ ∀ st ∈ stus.head?, st.arrival.isSome) :
    TimedChain last stus := by
  induction stus generalizing last with
  | nil =>
      trivial
  | cons st rest ih =>
      rcases h with ⟨hst, hrest⟩
      have htimed : TimedAfter last st := by
        rcases hst with hst | ⟨hlast, harr, -⟩
        · exact hst
        · rcases hfirst with hfirst | hfirst
          · simp [hlast] at hfirst
          · simp [harr] at hfirst
      have hdeparture : st.departure.isSome := by
        rcases htimed with ⟨a, d, -, hd, -⟩
        simp [hd]
      exact ⟨htimed, ih hrest (Or.inl hdeparture)⟩

/-- A list is accepted when its first stop has a time and its orders follow. -/
theorem manageConsistency_accepts_iff
    (hchain : Chained none stus) (hindexed : Indexed stus) :
    (manageConsistency stus).1 = true ↔
      ∀ st ∈ stus.head?, st.arrival.isSome := by
  constructor
  · intro h
    obtain ⟨htimed, -, -⟩ :=
      manageConsistency_accepted hchain (Prod.ext h rfl)
    cases stus with
    | nil =>
        simp
    | cons st rest =>
        obtain ⟨a, -, ha, -⟩ := htimed.1
        simp [ha]
  · intro h
    rw [manageConsistency_timed (hchain.timed (Or.inr h)) hindexed]

end Managed

section Reload

variable {stus : List StopTimeUpdate}

theorem dropRepeatedStops_of_increasing
    (h : stus.Pairwise (fun a b => a.order < b.order)) :
    dropRepeatedStops stus = stus := by
  induction stus with
  | nil =>
      rfl
  | cons st rest ih =>
      rw [List.pairwise_cons] at h
      rw [dropRepeatedStops, ih h.2, List.cons.injEq, List.filter_eq_self]
      refine ⟨rfl, fun st' hst' => ?_⟩
      have hne : st'.order ≠ st.order := by
        have := h.1 st' hst'
        omega
      simp [hne]

/-- Stops whose orders increase are read back as they were written. -/
theorem reloadStops_of_increasing
    (h : stus.Pairwise (fun a b => a.order < b.order)) :
    reloadStops stus = stus := by
  rw [reloadStops, dropRepeatedStops_of_increasing h]
  exact List.Pairwise.insertionSort_eq
    (h.imp (fun hlt => Nat.le_of_lt hlt))

theorem Indexed.increasing
    (h : Indexed stus) :
    stus.Pairwise (fun a b => a.order < b.order) := by
  have hpair : (stus.map StopTimeUpdate.order).Pairwise (fun a b => a < b) := by
    rw [h]
    exact List.pairwise_lt_range
  exact List.pairwise_map.1 hpair

end Reload

end Core
end Kirin
