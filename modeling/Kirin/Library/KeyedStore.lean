import Mathlib.Data.List.Nodup
import Mathlib.Tactic.Common

/-!
# Keyed rows and their replicas

A store is a list of rows with pairwise distinct keys.  A replica maps keys to
values and follows the store through a stream of keyed updates, the last update
of a key being the one that counts.

* `find?_eq_some_of_key`: a search by key.
* `replace`: overwrite the row of the same key.
* `replace_eq_self_iff`: overwriting a row changes nothing exactly when the row
  is already there.
* `filter_replace`: overwriting a row and selecting rows commute.
* `apply`: a replica after a list of updates.
* `apply_of_mem`, `apply_of_not_mem`: what the updates leave in the replica.
-/

namespace KeyedStore

section Rows

variable {κ α : Type} {key : α → κ} {rows : List α} {old r : α}

/-- Rows with distinct keys are determined by their key. -/
theorem eq_of_key_eq
    (hnodup : (rows.map key).Nodup)
    {a b : α} (ha : a ∈ rows) (hb : b ∈ rows) (h : key a = key b) :
    a = b :=
  List.inj_on_of_nodup_map hnodup ha hb h

/-- A search by key finds the only row of the key. -/
theorem find?_eq_some_of_key
    {p : α → Bool} (hnodup : (rows.map key).Nodup)
    (hp : ∀ row ∈ rows, p row = true ↔ key row = key old)
    (hold : old ∈ rows) :
    rows.find? p = some old := by
  cases hfind : rows.find? p with
  | none =>
      exact absurd ((hp old hold).2 rfl) (List.find?_eq_none.1 hfind old hold)
  | some row =>
      have hrow : row ∈ rows := List.mem_of_find?_eq_some hfind
      have hkey : key row = key old := (hp row hrow).1 (List.find?_some hfind)
      rw [eq_of_key_eq hnodup hrow hold hkey]

variable [DecidableEq κ]

/-- Overwrite the row of the same key. -/
def replace (key : α → κ) (rows : List α) (r : α) : List α :=
  rows.map (fun row => if key row = key r then r else row)

/-- A field that the new row shares with the old one is unchanged everywhere. -/
theorem replace_map
    {γ : Type} {f : α → γ}
    (hnodup : (rows.map key).Nodup) (hold : old ∈ rows)
    (hkey : key r = key old) (hf : f r = f old) :
    (replace key rows r).map f = rows.map f := by
  rw [replace, List.map_map]
  apply List.map_congr_left
  intro row hrow
  by_cases h : key row = key r
  · have hrow_eq : row = old :=
      eq_of_key_eq hnodup hrow hold (h.trans hkey)
    simp [hkey, hrow_eq, hf]
  · simp [h]

theorem mem_replace
    (hold : old ∈ rows) (hkey : key r = key old) :
    r ∈ replace key rows r := by
  refine List.mem_map.2 ⟨old, hold, ?_⟩
  simp [hkey]

/-- The rows of another key are kept. -/
theorem mem_replace_of_ne
    {row : α} (hne : key row ≠ key r) :
    row ∈ replace key rows r ↔ row ∈ rows := by
  simp only [replace, List.mem_map]
  constructor
  · rintro ⟨row', hrow', heq⟩
    by_cases h : key row' = key r
    · rw [if_pos h] at heq
      exact absurd (by rw [heq]) hne
    · rw [if_neg h] at heq
      exact heq ▸ hrow'
  · intro hrow
    exact ⟨row, hrow, if_neg hne⟩

/-- Overwriting a row brings in no other row than the new one. -/
theorem of_mem_replace
    {row : α} (h : row ∈ replace key rows r) :
    row = r ∨ row ∈ rows := by
  obtain ⟨row', hrow', heq⟩ := List.mem_map.1 h
  by_cases hkey : key row' = key r
  · rw [if_pos hkey] at heq
    exact Or.inl heq.symm
  · rw [if_neg hkey] at heq
    exact Or.inr (heq ▸ hrow')

theorem replace_eq_self_iff
    (hnodup : (rows.map key).Nodup) (hold : old ∈ rows)
    (hkey : key r = key old) :
    replace key rows r = rows ↔ r = old := by
  constructor
  · intro h
    have hr : r ∈ rows := by
      rw [← h]
      exact mem_replace hold hkey
    exact eq_of_key_eq hnodup hr hold hkey
  · rintro rfl
    rw [replace]
    conv_rhs => rw [← List.map_id rows]
    apply List.map_congr_left
    intro row hrow
    by_cases h : key row = key r
    · rw [if_pos h, eq_of_key_eq hnodup hrow hold h]
      rfl
    · rw [if_neg h]
      rfl

/-- The last overwriting of a row is the one that stays. -/
theorem replace_replace
    {r' : α} (hkey : key r = key r') :
    replace key (replace key rows r) r' = replace key rows r' := by
  rw [replace, replace, List.map_map, replace]
  refine List.map_congr_left (fun row _ => ?_)
  by_cases h : key row = key r'
  · simp [h, hkey]
  · simp [h, hkey]

/-- Only the last row is overwritten when it is the one of the key. -/
theorem replace_concat
    (hkey : key r = key old) (hnew : key old ∉ rows.map key) :
    replace key (rows ++ [old]) r = rows ++ [r] := by
  have hrows : rows.map (fun row => if key row = key r then r else row) =
      rows := by
    conv_rhs => rw [← List.map_id rows]
    refine List.map_congr_left (fun row hrow => ?_)
    rw [if_neg, id]
    intro heq
    exact hnew (List.mem_map.2 ⟨row, hrow, heq.trans hkey⟩)
  rw [replace, List.map_append, hrows, List.map_singleton, if_pos hkey.symm]

/-- A selection that does not tell the new row from the old one commutes. -/
theorem filter_replace
    {p : α → Bool}
    (hp : ∀ row ∈ rows, key row = key r → p row = p r) :
    (replace key rows r).filter p = replace key (rows.filter p) r := by
  induction rows with
  | nil =>
      rfl
  | cons row rest ih =>
      rw [List.forall_mem_cons] at hp
      have htail := ih hp.2
      simp only [replace] at htail ⊢
      rw [List.map_cons, List.filter_cons, List.filter_cons, htail]
      by_cases h : key row = key r
      · rw [if_pos h, ← hp.1 h]
        cases p row with
        | true =>
            simp [h]
        | false =>
            rfl
      · rw [if_neg h]
        cases p row with
        | true =>
            simp [h]
        | false =>
            rfl

/-- Overwriting a row that is not selected does not change the selection. -/
theorem filter_replace_of_not
    {p : α → Bool}
    (hp : ∀ row ∈ rows, key row = key r → p row = false) (hr : p r = false) :
    (replace key rows r).filter p = rows.filter p := by
  rw [filter_replace (fun row hrow h => (hp row hrow h).trans hr.symm), replace]
  conv_rhs => rw [← List.map_id (rows.filter p)]
  apply List.map_congr_left
  intro row hrow
  rw [List.mem_filter] at hrow
  rw [if_neg]
  · rfl
  · intro h
    rw [hp row hrow.1 h] at hrow
    cases hrow.2

end Rows

section Replica

variable {κ β : Type} [DecidableEq κ]

/-- A replica after a list of keyed updates. -/
def apply (replica : κ → Option β) : List (κ × β) → κ → Option β
  | [] => replica
  | (k, v) :: rest => apply (fun k' => if k' = k then some v else replica k') rest

/-- The updates of an append come one list after the other. -/
theorem apply_append
    (replica : κ → Option β) (updates updates' : List (κ × β)) :
    apply replica (updates ++ updates') =
      apply (apply replica updates) updates' := by
  induction updates generalizing replica with
  | nil =>
      rfl
  | cons u rest ih =>
      rw [List.cons_append, apply, apply, ih]

theorem apply_of_not_mem
    {replica : κ → Option β} {updates : List (κ × β)} {k : κ}
    (h : k ∉ updates.map Prod.fst) :
    apply replica updates k = replica k := by
  induction updates generalizing replica with
  | nil =>
      rfl
  | cons u rest ih =>
      rcases u with ⟨k', v⟩
      simp only [List.map_cons, List.mem_cons, not_or] at h
      rw [apply, ih h.2]
      simp [h.1]

theorem apply_of_mem
    {replica : κ → Option β} {updates : List (κ × β)} {k : κ} {v : β}
    (hnodup : (updates.map Prod.fst).Nodup) (h : (k, v) ∈ updates) :
    apply replica updates k = some v := by
  induction updates generalizing replica with
  | nil =>
      cases h
  | cons u rest ih =>
      rcases u with ⟨k', v'⟩
      rw [List.map_cons, List.nodup_cons] at hnodup
      rcases List.mem_cons.1 h with heq | hrest
      · obtain ⟨rfl, rfl⟩ := Prod.mk.inj heq
        rw [apply, apply_of_not_mem hnodup.1]
        simp
      · rw [apply, ih hnodup.2 hrest]

end Replica

end KeyedStore
