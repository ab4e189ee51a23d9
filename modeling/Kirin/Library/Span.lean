import Mathlib.Data.List.Sort
import Mathlib.Tactic.Common

/-!
# The elements between an opening and a closing

Some elements of a list open it, some close it, others are left out.  One pass
keeps the elements from the first opening on, and stops at an element that does
not close when no closing follows.  What it keeps lies between an opening and a
closing, each of them included.

* `select`: the pass.
* `Between`: the place of an element between an opening and a closing.
* `select_eq_spanned`: the pass keeps the elements of these places.
* `head?_select`, `getLast?_select`: it keeps an opening first, a closing last.
* `select_select`: a second pass keeps everything.
* `filter_insertionSort`: elements of one rank are sorted in their order.
* `selects_of_select`: the pass, after a sort.
-/

namespace Span

variable {α : Type} (relevant opens closes : α → Bool)

/-- One pass over a list, with a flag that is set once an element is kept. -/
def select : Bool → List α → List α
  | _, [] => []
  | picked, p :: rest =>
      if !picked && !opens p then select picked rest
      else if !relevant p then select picked rest
      else if !opens p && !closes p then select picked rest
      else if !closes p &&
          !(p :: rest).any (fun q => closes q && relevant q) then
        []
      else p :: select true rest

/--
An element is at some place of a list, relevant and opening or closing it, with
a relevant opening at or before this place and a closing at or after it.
-/
def Between (l : List α) (p : α) (i : Nat) : Prop :=
  relevant p = true ∧ (opens p = true ∨ closes p = true) ∧
    (∃ q ∈ l.take (i + 1), relevant q = true ∧ opens q = true) ∧
    ∃ q ∈ l.drop i, relevant q = true ∧ closes q = true

instance (l : List α) (p : α) (i : Nat) :
    Decidable (Between relevant opens closes l p i) :=
  inferInstanceAs (Decidable (_ ∧ _))

/-- The elements of a list between an opening and a closing, in order. -/
def spanned (l : List α) : List α :=
  (l.zipIdx.filter
    (fun x => decide (Between relevant opens closes l x.1 x.2))).map Prod.fst

/-- The same elements, knowing whether an opening comes before the list. -/
def spannedFrom : Bool → List α → List α
  | _, [] => []
  | opened, p :: rest =>
      let opened := opened || relevant p && opens p
      if relevant p && (opens p || closes p) && opened &&
          (p :: rest).any (fun q => closes q && relevant q) then
        p :: spannedFrom opened rest
      else spannedFrom opened rest

variable {relevant opens closes} {l : List α} {opened : Bool}

/-- Nothing is kept before no closing. -/
theorem spannedFrom_of_none
    (h : l.any (fun q => closes q && relevant q) = false) :
    spannedFrom relevant opens closes opened l = [] := by
  induction l generalizing opened with
  | nil =>
      rfl
  | cons p rest ih =>
      have hrest : rest.any (fun q => closes q && relevant q) = false := by
        rw [List.any_cons, Bool.or_eq_false_iff] at h
        exact h.2
      simp [spannedFrom, h, ih hrest]

/-- The pass keeps what lies between an opening and a closing. -/
theorem select_eq_spannedFrom
    (picked : Bool) (l : List α) :
    select relevant opens closes picked l =
      spannedFrom relevant opens closes picked l := by
  induction l generalizing picked with
  | nil =>
      rfl
  | cons p rest ih =>
      rw [select, spannedFrom]
      by_cases hskip : (!picked && !opens p) = true
      · -- no opening so far
        rw [if_pos hskip, ih]
        rw [Bool.and_eq_true, Bool.not_eq_true', Bool.not_eq_true'] at hskip
        simp [hskip.1, hskip.2]
      · have hopen : picked = true ∨ opens p = true := by
          by_contra hnone
          rw [not_or, Bool.not_eq_true, Bool.not_eq_true] at hnone
          exact hskip (by rw [hnone.1, hnone.2]; rfl)
        rw [if_neg hskip]
        cases hrelevant : relevant p with
        | false =>
            simp [ih]
        | true =>
            by_cases hempty : (!opens p && !closes p) = true
            · rw [Bool.and_eq_true, Bool.not_eq_true', Bool.not_eq_true']
                at hempty
              simp [hempty.1, hempty.2, ih]
            · have hused : (opens p || closes p) = true := by
                by_contra hnone
                rw [Bool.not_eq_true, Bool.or_eq_false_iff] at hnone
                exact hempty (by rw [hnone.1, hnone.2]; rfl)
              have hopened : (picked || true && opens p) = true := by
                simpa using hopen
              rw [if_neg (by simp), if_neg hempty, hopened, hused]
              cases hclosed : (p :: rest).any
                  (fun q => closes q && relevant q) with
              | true =>
                  simp [ih]
              | false =>
                  -- neither this element nor a following one closes the list
                  rw [List.any_cons, Bool.or_eq_false_iff, hrelevant,
                    Bool.and_true] at hclosed
                  simp [hclosed.1, spannedFrom_of_none hclosed.2]

/-- What is kept of the end of a list, told by the places in the whole list. -/
theorem spannedFrom_eq_filter
    (front l : List α) :
    spannedFrom relevant opens closes
        (front.any (fun q => relevant q && opens q)) l =
      ((l.zipIdx front.length).filter (fun x => decide
        (Between relevant opens closes (front ++ l) x.1 x.2))).map
        Prod.fst := by
  induction l generalizing front with
  | nil =>
      rfl
  | cons p rest ih =>
      have hnext : (front.any (fun q => relevant q && opens q) ||
          relevant p && opens p) =
          (front ++ [p]).any (fun q => relevant q && opens q) := by
        simp
      have hwhole : front ++ p :: rest = (front ++ [p]) ++ rest := by
        simp
      have hlength : front.length + 1 = (front ++ [p]).length := by
        simp
      have hbetween : Between relevant opens closes (front ++ p :: rest) p
          front.length ↔
          (relevant p && (opens p || closes p) &&
            (front ++ [p]).any (fun q => relevant q && opens q) &&
            (p :: rest).any (fun q => closes q && relevant q)) = true := by
        have htake : (front ++ p :: rest).take (front.length + 1) =
            front ++ [p] := by
          rw [hwhole, hlength, List.take_left]
        rw [Between, htake, List.drop_left]
        simp only [Bool.and_eq_true, Bool.or_eq_true, List.any_eq_true,
          and_assoc, and_comm (a := closes _ = true)]
      rw [spannedFrom, List.zipIdx_cons, List.filter_cons, hnext]
      simp only [decide_eq_true_eq]
      rw [hlength, hwhole, ih (front ++ [p])]
      by_cases h : Between relevant opens closes (front ++ p :: rest) p
          front.length
      · rw [if_pos (hbetween.1 h), ← hwhole, if_pos h, List.map_cons]
      · rw [if_neg (fun hc => h (hbetween.2 hc)), ← hwhole, if_neg h]

/-- The pass keeps the elements between an opening and a closing. -/
theorem select_eq_spanned
    (l : List α) :
    select relevant opens closes false l = spanned relevant opens closes l := by
  rw [select_eq_spannedFrom]
  exact spannedFrom_eq_filter [] l

/-- What the pass keeps is a part of the list, in its order. -/
theorem select_sublist
    (picked : Bool) (l : List α) :
    (select relevant opens closes picked l).Sublist l := by
  induction l generalizing picked with
  | nil =>
      exact List.Sublist.slnil
  | cons p rest ih =>
      rw [select]
      split
      · exact (ih picked).cons p
      · split
        · exact (ih picked).cons p
        · split
          · exact (ih picked).cons p
          · split
            · exact List.nil_sublist _
            · exact (ih true).cons_cons p

/-- The first element that is kept is an opening. -/
theorem head?_select
    (l : List α) :
    ∀ p ∈ (select relevant opens closes false l).head?, opens p = true := by
  induction l with
  | nil =>
      simp [select]
  | cons p rest ih =>
      rw [select]
      split
      · exact ih
      · rename_i hskip
        split
        · exact ih
        · split
          · exact ih
          · split
            · simp
            · intro q hq
              cases hq
              simpa using hskip

/-- When an opening comes before the list, a closing of it is kept. -/
theorem any_of_spannedFrom_eq_nil
    (h : spannedFrom relevant opens closes true l = []) :
    l.any (fun q => closes q && relevant q) = false := by
  induction l with
  | nil =>
      rfl
  | cons p rest ih =>
      rw [spannedFrom] at h
      simp only [Bool.true_or, Bool.and_true] at h
      split at h
      · cases h
      · rename_i hnot
        have hrest := ih h
        rw [List.any_cons, hrest, Bool.or_false] at hnot ⊢
        cases hrelevant : relevant p <;> cases hcloses : closes p <;>
          simp [hrelevant, hcloses] at hnot ⊢

/-- The last element that is kept is a closing. -/
theorem getLast?_spannedFrom
    (opened : Bool) (l : List α) :
    ∀ p ∈ (spannedFrom relevant opens closes opened l).getLast?,
      closes p = true := by
  induction l generalizing opened with
  | nil =>
      simp [spannedFrom]
  | cons p rest ih =>
      rw [spannedFrom]
      split
      · rename_i hkept
        simp only [Bool.and_eq_true, List.any_cons] at hkept
        obtain ⟨⟨-, hopened⟩, hclosed⟩ := hkept
        rw [hopened]
        intro q hq
        cases hrest : spannedFrom relevant opens closes true rest with
        | nil =>
            rw [hrest] at hq
            cases hq
            rw [any_of_spannedFrom_eq_nil hrest, Bool.or_false,
              Bool.and_eq_true] at hclosed
            exact hclosed.1
        | cons r kept =>
            rw [hrest, List.getLast?_cons_cons, ← hrest] at hq
            exact ih true q hq
      · exact ih _

theorem getLast?_select
    (l : List α) :
    ∀ p ∈ (select relevant opens closes false l).getLast?, closes p = true := by
  rw [select_eq_spannedFrom]
  exact getLast?_spannedFrom false l

/-- The elements that are kept are relevant, and open or close the list. -/
theorem of_mem_spannedFrom
    {p : α} (hp : p ∈ spannedFrom relevant opens closes opened l) :
    relevant p = true ∧ (opens p || closes p) = true := by
  induction l generalizing opened with
  | nil =>
      cases hp
  | cons q rest ih =>
      rw [spannedFrom] at hp
      split at hp
      · rename_i hkept
        simp only [Bool.and_eq_true] at hkept
        rcases List.mem_cons.1 hp with rfl | hrest
        · exact hkept.1.1
        · exact ih hrest
      · exact ih hp

/-- A list that begins with an opening and ends with a closing is all kept. -/
theorem spannedFrom_eq_self
    (hused : ∀ p ∈ l, relevant p = true ∧ (opens p || closes p) = true)
    (hfirst : opened = true ∨ ∀ p ∈ l.head?, opens p = true)
    (hlast : ∀ p ∈ l.getLast?, closes p = true) :
    spannedFrom relevant opens closes opened l = l := by
  induction l generalizing opened with
  | nil =>
      rfl
  | cons p rest ih =>
      rw [List.forall_mem_cons] at hused
      have hopened : (opened || relevant p && opens p) = true := by
        rcases hfirst with hopen | hopen
        · rw [hopen, Bool.true_or]
        · rw [hused.1.1, hopen p rfl, Bool.and_true, Bool.or_true]
      have hclosed : (p :: rest).any (fun q => closes q && relevant q) =
          true := by
        have hne := List.cons_ne_nil p rest
        have hmem : (p :: rest).getLast hne ∈ p :: rest := List.getLast_mem hne
        have hrelevant : ∀ q ∈ p :: rest, relevant q = true :=
          List.forall_mem_cons.2 ⟨hused.1.1, fun q hq => (hused.2 q hq).1⟩
        refine List.any_eq_true.2 ⟨_, hmem, ?_⟩
        rw [hlast _ (List.getLast?_eq_getLast_of_ne_nil hne),
          hrelevant _ hmem, Bool.and_true]
      have hrest : ∀ q ∈ rest.getLast?, closes q = true := by
        intro q hq
        cases rest with
        | nil =>
            cases hq
        | cons r kept =>
            exact hlast q (by rw [List.getLast?_cons_cons]; exact hq)
      rw [spannedFrom, hopened, hclosed, hused.1.1, hused.1.2]
      simp only [Bool.and_true, if_true]
      rw [ih hused.2 (Or.inl rfl) hrest]

/-- A second pass keeps everything. -/
theorem select_select
    (l : List α) :
    select relevant opens closes false
        (select relevant opens closes false l) =
      select relevant opens closes false l := by
  have hused : ∀ p ∈ select relevant opens closes false l,
      relevant p = true ∧ (opens p || closes p) = true := by
    rw [select_eq_spannedFrom]
    exact fun p hp => of_mem_spannedFrom hp
  rw [select_eq_spannedFrom false (select relevant opens closes false l)]
  exact spannedFrom_eq_self hused (Or.inr (head?_select l)) (getLast?_select l)

section Stable

variable {β : Type} [LinearOrder β] (rank : α → β)

/-- Elements of one rank are inserted in front of the others of this rank. -/
theorem filter_orderedInsert
    (r : β) (p : α) (l : List α) :
    (l.orderedInsert (fun a b => rank a ≤ rank b) p).filter
        (fun a => decide (rank a = r)) =
      (p :: l).filter (fun a => decide (rank a = r)) := by
  induction l with
  | nil =>
      rfl
  | cons q rest ih =>
      rw [List.orderedInsert_cons]
      split
      · rfl
      · rename_i hlt
        rw [List.filter_cons, ih]
        by_cases hp : rank p = r
        · have hq : rank q ≠ r := by
            rintro rfl
            exact hlt (le_of_eq hp)
          simp [hp, hq]
        · simp [List.filter_cons, hp]

/-- Elements of one rank are sorted in their order. -/
theorem filter_insertionSort
    (r : β) (l : List α) :
    (l.insertionSort (fun a b => rank a ≤ rank b)).filter
        (fun a => decide (rank a = r)) =
      l.filter (fun a => decide (rank a = r)) := by
  induction l with
  | nil =>
      rfl
  | cons p rest ih =>
      rw [List.insertionSort_cons, filter_orderedInsert, List.filter_cons, ih,
        List.filter_cons]

/-- A sort by rank leaves the elements in the order of their ranks. -/
theorem pairwise_insertionSort
    (l : List α) :
    (l.insertionSort (fun a b => rank a ≤ rank b)).Pairwise
      (fun a b => rank a ≤ rank b) := by
  have : IsTrans α (fun a b => rank a ≤ rank b) :=
    ⟨fun _ _ _ => le_trans⟩
  have : Std.Total (fun a b : α => rank a ≤ rank b) :=
    ⟨fun _ _ => le_total _ _⟩
  exact List.pairwise_insertionSort _ l

/--
A function that keeps the elements between an opening and a closing, once they
are sorted by rank in a stable way.
-/
structure Selects
    (relevant opens closes : α → Bool) (f : List α → List α) (l : List α) :
    Prop where
  spanned : ∃ sorted : List α, sorted.Perm l ∧
    sorted.Pairwise (fun a b => rank a ≤ rank b) ∧
    (∀ r, sorted.filter (fun a => decide (rank a = r)) =
      l.filter (fun a => decide (rank a = r))) ∧
    f l = Span.spanned relevant opens closes sorted
  first : ∀ p ∈ (f l).head?, opens p = true
  last : ∀ p ∈ (f l).getLast?, closes p = true
  again : f (f l) = f l

/-- A sort followed by the pass. -/
theorem selects_of_select
    {f : List α → List α}
    (hf : ∀ l, f l = select relevant opens closes false
      (l.insertionSort (fun a b => rank a ≤ rank b)))
    (l : List α) :
    Selects rank relevant opens closes f l where
  spanned :=
    ⟨_, List.perm_insertionSort _ l, pairwise_insertionSort rank l,
      fun r => filter_insertionSort rank r l,
      (hf l).trans (select_eq_spanned _)⟩
  first := by
    rw [hf]
    exact head?_select _
  last := by
    rw [hf]
    exact getLast?_select _
  again := by
    -- what is kept of a sorted list is sorted
    have hsorted : (f l).Pairwise (fun a b => rank a ≤ rank b) := by
      rw [hf]
      exact (pairwise_insertionSort rank l).sublist (select_sublist _ _)
    rw [hf (f l), hsorted.insertionSort_eq, hf l, select_select]

end Stable

end Span
