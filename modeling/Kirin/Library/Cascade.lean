import Mathlib.Data.List.Basic
import Mathlib.Logic.Relation
import Mathlib.Tactic.Common

/-!
# Cascades along links

What is deleted brings with it everything that its links lead to, directly or
not.  The links are a list of pairs, and the rows are found by following them
from the given ones, as many times as there are links.

* `Closed`: a list of rows that its links do not leave.
* `reached_closed`: following every link at most once is enough.
* `mem_closure_iff`: the rows found are those that the links lead to.
* `closure_induction`: what the links pass on holds of every row found.
-/

namespace Cascade

variable {α : Type} [DecidableEq α] (links : List (α × α))

/-- The rows found by following the links of some rows once, with these. -/
def spread (rows : List α) : List α :=
  rows ++ (links.filter (fun l => decide (l.1 ∈ rows ∧ l.2 ∉ rows))).map Prod.snd

/-- The rows found by following the links some number of times. -/
def reached : Nat → List α → List α
  | 0, rows => rows
  | n + 1, rows => reached n (spread links rows)

/-- The rows found by following the links as long as they lead somewhere. -/
def closure (rows : List α) : List α :=
  reached links links.length rows

/-- The links of the rows lead to some of the rows. -/
def Closed (rows : List α) : Prop :=
  ∀ l ∈ links, l.1 ∈ rows → l.2 ∈ rows

variable {links} {rows : List α} {x y : α}

theorem mem_spread_iff :
    x ∈ spread links rows ↔
      x ∈ rows ∨ ∃ y ∈ rows, (y, x) ∈ links ∧ x ∉ rows := by
  simp only [spread, List.mem_append, List.mem_map, List.mem_filter,
    decide_eq_true_eq]
  constructor
  · rintro (hx | ⟨l, ⟨hl, hfrom, hto⟩, rfl⟩)
    · exact Or.inl hx
    · exact Or.inr ⟨l.1, hfrom, hl, hto⟩
  · rintro (hx | ⟨y, hy, hl, hx⟩)
    · exact Or.inl hx
    · exact Or.inr ⟨(y, x), ⟨hl, hy, hx⟩, rfl⟩

/-- The links of closed rows lead nowhere else. -/
theorem spread_of_closed
    (h : Closed links rows) :
    spread links rows = rows := by
  have hnone : links.filter (fun l => decide (l.1 ∈ rows ∧ l.2 ∉ rows)) = [] := by
    rw [List.filter_eq_nil_iff]
    intro l hl hl'
    rw [decide_eq_true_eq] at hl'
    exact hl'.2 (h l hl hl'.1)
  rw [spread, hnone, List.map_nil, List.append_nil]

theorem reached_of_closed
    (h : Closed links rows) (n : Nat) :
    reached links n rows = rows := by
  induction n with
  | zero =>
      rfl
  | succ n ih =>
      rw [reached, spread_of_closed h, ih]

/-- The links that do not lead to one of the rows. -/
def leaving (links : List (α × α)) (rows : List α) : List (α × α) :=
  links.filter (fun l => decide (l.2 ∉ rows))

/-- A link that leaves the rows does not leave those it leads to. -/
theorem leaving_spread_lt
    {l : α × α} (hl : l ∈ links) (hfrom : l.1 ∈ rows) (hto : l.2 ∉ rows) :
    (leaving links (spread links rows)).length <
      (leaving links rows).length := by
  have hsub : leaving links (spread links rows) =
      (leaving links rows).filter
        (fun l => decide (l.2 ∉ spread links rows)) := by
    rw [leaving, leaving, List.filter_filter]
    refine List.filter_congr (fun l _ => ?_)
    by_cases hl : l.2 ∈ rows
    · have hspread : l.2 ∈ spread links rows := mem_spread_iff.2 (Or.inl hl)
      simp [hl, hspread]
    · simp [hl]
  rw [hsub, List.length_filter_lt_length_iff_exists]
  refine ⟨l, List.mem_filter.2 ⟨hl, by simpa using hto⟩, ?_⟩
  have hspread : l.2 ∈ spread links rows :=
    mem_spread_iff.2 (Or.inr ⟨l.1, hfrom, hl, hto⟩)
  simpa using hspread

/-- Rows that no more links leave than the times they are followed get closed. -/
theorem reached_closed
    {n : Nat} (h : (leaving links rows).length ≤ n) :
    Closed links (reached links n rows) := by
  induction n generalizing rows with
  | zero =>
      change Closed links rows
      intro l hl hfrom
      by_contra hto
      have hlt := leaving_spread_lt hl hfrom hto
      omega
  | succ n ih =>
      by_cases hclosed : Closed links rows
      · rw [reached_of_closed hclosed]
        exact hclosed
      · simp only [Closed, not_forall] at hclosed
        obtain ⟨l, hl, hfrom, hto⟩ := hclosed
        have hlt := leaving_spread_lt hl hfrom hto
        exact ih (by omega)

theorem closure_closed
    (links : List (α × α)) (rows : List α) :
    Closed links (closure links rows) :=
  reached_closed (List.length_filter_le _ _)

theorem subset_reached
    (n : Nat) (hx : x ∈ rows) :
    x ∈ reached links n rows := by
  induction n generalizing rows with
  | zero =>
      exact hx
  | succ n ih =>
      exact ih (mem_spread_iff.2 (Or.inl hx))

/-- What is found has the properties that the links pass on. -/
theorem reached_induction
    {P : α → Prop} (hlink : ∀ l ∈ links, P l.1 → P l.2) {n : Nat}
    (hrows : ∀ y ∈ rows, P y) (hx : x ∈ reached links n rows) :
    P x := by
  induction n generalizing rows with
  | zero =>
      exact hrows x hx
  | succ n ih =>
      refine ih (fun y hy => ?_) hx
      rcases mem_spread_iff.1 hy with hold | ⟨z, hz, hl, -⟩
      · exact hrows y hold
      · exact hlink (z, y) hl (hrows z hz)

/-- The rows found are those that the links lead to. -/
theorem mem_closure_iff :
    x ∈ closure links rows ↔
      ∃ y ∈ rows, Relation.ReflTransGen (fun a b => (a, b) ∈ links) y x := by
  constructor
  · intro hx
    refine reached_induction (P := fun x =>
      ∃ y ∈ rows, Relation.ReflTransGen (fun a b => (a, b) ∈ links) y x)
      ?_ (fun y hy => ⟨y, hy, Relation.ReflTransGen.refl⟩) hx
    rintro l hl ⟨y, hy, hpath⟩
    exact ⟨y, hy, hpath.tail hl⟩
  · rintro ⟨y, hy, hpath⟩
    induction hpath with
    | refl =>
        exact subset_reached _ hy
    | tail _ hlink ih =>
        exact closure_closed links rows _ hlink ih

/-- A property that the links pass on is one of all the rows found. -/
theorem closure_induction
    {P : α → Prop} (hlink : ∀ l ∈ links, P l.1 → P l.2)
    (hrows : ∀ y ∈ rows, P y) (hx : x ∈ closure links rows) :
    P x :=
  reached_induction hlink hrows hx

end Cascade
