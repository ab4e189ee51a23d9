import Kirin.Library.Checked
import Mathlib.Order.Basic

/-!
# A local check of the order of a list

The elements of a list have an arrival and a departure, each of which may be
missing.  One pass compares the times of an element with the departure of the
last one only, or with an origin when this departure is missing.

* `Run`: the pass accepts every element.
* `chronological_iff`: the times of a list that is accepted are in order exactly
  when they resume in order after each missing departure.
* `run_of_foldlM`: a loop that makes this check.
-/

namespace LocalOrder

/-- The arrival and the departure of an element, if any. -/
abbrev Passage (τ : Type) := Option τ × Option τ

variable {τ : Type}

/-- The times of an element. -/
def timesOf (p : Passage τ) : List τ :=
  p.1.toList ++ p.2.toList

/-- The times of the elements, one after the other. -/
def times (ps : List (Passage τ)) : List τ :=
  ps.flatMap timesOf

section Definitions

variable [LE τ]

/-- The check of one element, a missing time being the one before it. -/
def Accepts (origin : τ) (last : Option τ) (p : Passage τ) : Prop :=
  let last := last.getD origin
  let arrival := p.1.getD last
  let departure := p.2.getD arrival
  last ≤ arrival ∧ arrival ≤ departure

/-- The check of the elements, with the departure of the one before. -/
def Run (origin : τ) : Option τ → List (Passage τ) → Prop
  | _, [] => True
  | last, p :: rest => Accepts origin last p ∧ Run origin p.2 rest

/-- No time of the elements is before an earlier one. -/
def Chronological (ps : List (Passage τ)) : Prop :=
  (times ps).Pairwise (fun t u => t ≤ u)

/--
After an element without departure, the times of the next one are not before the
earlier ones.
-/
def ResumesAfter : List τ → Option τ → List (Passage τ) → Prop
  | _, _, [] => True
  | earlier, last, p :: rest =>
      (last = none → ∀ t ∈ earlier, ∀ u ∈ timesOf p, t ≤ u) ∧
        ResumesAfter (earlier ++ timesOf p) p.2 rest

/-- The times of a list resume in order after each missing departure. -/
def ResumesInOrder (ps : List (Passage τ)) : Prop :=
  ResumesAfter [] none ps

variable [DecidableLE τ]

instance (ps : List (Passage τ)) : Decidable (Chronological ps) :=
  inferInstanceAs (Decidable ((times ps).Pairwise _))

instance ResumesAfter.decidable
    (earlier : List τ) (last : Option τ) (ps : List (Passage τ)) :
    Decidable (ResumesAfter earlier last ps) :=
  match ps with
  | [] => isTrue trivial
  | p :: rest =>
      have := ResumesAfter.decidable (earlier ++ timesOf p) p.2 rest
      have : Decidable (last = none → ∀ t ∈ earlier, ∀ u ∈ timesOf p, t ≤ u) :=
        match last with
        | none => decidable_of_iff (∀ t ∈ earlier, ∀ u ∈ timesOf p, t ≤ u)
            (by simp)
        | some _ => isTrue nofun
      inferInstanceAs (Decidable (_ ∧ _))

instance (ps : List (Passage τ)) : Decidable (ResumesInOrder ps) :=
  inferInstanceAs (Decidable (ResumesAfter _ _ _))

end Definitions

section Order

variable [Preorder τ] {origin : τ} {last : Option τ} {earlier : List τ}
variable {p : Passage τ} {ps : List (Passage τ)}

/-- The times of an element that is accepted are in order. -/
theorem Accepts.pairwise
    (h : Accepts origin last p) :
    (timesOf p).Pairwise (fun t u => t ≤ u) := by
  rcases p with ⟨arrival, departure⟩
  cases arrival with
  | none =>
      cases departure <;> simp [timesOf]
  | some a =>
      cases departure with
      | none =>
          simp [timesOf]
      | some d =>
          simpa [timesOf] using h.2

/-- They are not before the last departure. -/
theorem Accepts.le_of_mem
    {l u : τ} (h : Accepts origin (some l) p) (hu : u ∈ timesOf p) :
    l ≤ u := by
  rcases p with ⟨arrival, departure⟩
  obtain ⟨hfirst, hsecond⟩ := h
  have hdeparture : l ≤ departure.getD (arrival.getD l) :=
    le_trans hfirst hsecond
  rw [timesOf, List.mem_append, Option.mem_toList, Option.mem_toList] at hu
  rcases hu with hu | hu
  · cases hu
    exact hfirst
  · cases hu
    exact hdeparture

/-- No time of an element is after its departure. -/
theorem le_departure
    {d t : τ} (hsorted : (earlier ++ timesOf p).Pairwise (fun t u => t ≤ u))
    (hd : p.2 = some d) (ht : t ∈ earlier ++ timesOf p) :
    t ≤ d := by
  have hwhole : earlier ++ timesOf p = (earlier ++ p.1.toList) ++ [d] := by
    rw [timesOf, hd, List.append_assoc]
    rfl
  rw [hwhole] at hsorted ht
  rcases List.mem_append.1 ht with hbefore | hlast
  · exact (List.pairwise_append.1 hsorted).2.2 t hbefore d
      (List.mem_singleton.2 rfl)
  · exact le_of_eq (List.mem_singleton.1 hlast)

/--
After some earlier times, the times of a list that is accepted are in order
exactly when they resume in order.
-/
theorem pairwise_append_iff
    (hrun : Run origin last ps)
    (hsorted : earlier.Pairwise (fun t u => t ≤ u))
    (hlast : ∀ l ∈ last, ∀ t ∈ earlier, t ≤ l) :
    (earlier ++ times ps).Pairwise (fun t u => t ≤ u) ↔
      ResumesAfter earlier last ps := by
  induction ps generalizing last earlier with
  | nil =>
      simpa [times, ResumesAfter] using hsorted
  | cons p rest ih =>
      obtain ⟨haccepts, hrest⟩ := hrun
      have hwhole : earlier ++ times (p :: rest) =
          (earlier ++ timesOf p) ++ times rest := by
        rw [times, List.flatMap_cons, List.append_assoc]
        rfl
      have hnext : (earlier ++ timesOf p).Pairwise (fun t u => t ≤ u) →
          ((earlier ++ timesOf p ++ times rest).Pairwise (fun t u => t ≤ u) ↔
            ResumesAfter (earlier ++ timesOf p) p.2 rest) := fun h =>
        ih hrest h (fun d hd t ht => le_departure h hd ht)
      rw [hwhole, ResumesAfter]
      constructor
      · intro h
        have hfront := (List.pairwise_append.1 h).1
        exact ⟨fun _ => (List.pairwise_append.1 hfront).2.2, (hnext hfront).1 h⟩
      · rintro ⟨hresumes, hafter⟩
        -- the last departure, or else the condition, orders the next times
        have hcross : ∀ t ∈ earlier, ∀ u ∈ timesOf p, t ≤ u := by
          cases last with
          | none =>
              exact hresumes rfl
          | some l =>
              intro t ht u hu
              exact le_trans (hlast l rfl t ht) (haccepts.le_of_mem hu)
        have hfront : (earlier ++ timesOf p).Pairwise (fun t u => t ≤ u) :=
          List.pairwise_append.2 ⟨hsorted, haccepts.pairwise, hcross⟩
        exact (hnext hfront).2 hafter

/--
The times of a list that is accepted are in order exactly when they resume in
order after each missing departure.
-/
theorem chronological_iff
    (hrun : Run origin none ps) :
    Chronological ps ↔ ResumesInOrder ps := by
  have hnothing : ∀ l ∈ (none : Option τ), ∀ t ∈ ([] : List τ), t ≤ l := by
    simp
  exact pairwise_append_iff hrun List.Pairwise.nil hnothing

end Order

section Loop

variable [LE τ] {ε σ α : Type} {origin : τ}

/-- A loop that skips some elements and checks the other ones. -/
theorem run_of_foldlM
    {step : σ → α → Except ε σ} {memo : σ → Option τ}
    {passage : α → Option (Passage τ)}
    (hstep : ∀ s a s', step s a = .ok s' →
      (passage a = none ∧ memo s' = memo s) ∨
        ∃ p, passage a = some p ∧ Accepts origin (memo s) p ∧ memo s' = p.2)
    {s s' : σ} {as : List α} (h : as.foldlM step s = .ok s') :
    Run origin (memo s) (as.filterMap passage) := by
  induction as generalizing s with
  | nil =>
      trivial
  | cons a as ih =>
      rw [List.foldlM_cons, Checked.bind_eq_ok] at h
      obtain ⟨s1, hturn, hrest⟩ := h
      have hrun := ih hrest
      rcases hstep s a s1 hturn with ⟨hskip, hmemo⟩ | ⟨p, hp, haccepts, hmemo⟩
      · rw [List.filterMap_cons_none hskip, ← hmemo]
        exact hrun
      · rw [List.filterMap_cons_some hp]
        exact ⟨haccepts, hmemo ▸ hrun⟩

end Loop

end LocalOrder
