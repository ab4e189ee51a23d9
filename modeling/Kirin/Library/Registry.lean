import Mathlib.Data.List.Basic
import Mathlib.Data.List.Induction
import Mathlib.Tactic.Common

/-!
# Registries

A registry has at most one row under each key.  A row is created, updated field by
field and dropped, and may be created again.  The journal of a run has the writes
that were accepted, each with its key.

* `Write.on`: what a write makes of the row of its key.
* `Registers`: a table is a registry, whose actions are accepted as writes.
* `rowOf_run`: a row is that of its last creation with the updates since then.
* `created_unique`: there is one last creation.
* `IsField.foldl`: a field of a row has the last value that was given for it.
-/

namespace Registry

/-- A write on the row of a key. -/
inductive Write (ρ υ : Type)
  | create (row : ρ)
  | update (u : υ)
  | drop
deriving DecidableEq, Repr

section Definitions

variable {κ ρ υ τ α : Type}

/-- What a write makes of the row of its key. -/
def Write.on (apply : ρ → υ → ρ) (row : Option ρ) : Write ρ υ → Option ρ
  | .create new => some new
  | .update u => row.map (fun r => apply r u)
  | .drop => none

/-- A write can be accepted: a row is created once, and updated while it exists. -/
def Write.Fits (row : Option ρ) : Write ρ υ → Prop
  | .create _ => row = none
  | .update _ => row ≠ none
  | .drop => row ≠ none

/-- The writes of a run that were accepted, each with its key. -/
def journal (step : τ → α → τ) (entry : τ → α → Option (κ × Write ρ υ)) :
    τ → List α → List (κ × Write ρ υ)
  | _, [] => []
  | t, a :: as => (entry t a).toList ++ journal step entry (step t a) as

/-- The writes on a key. -/
def writesOf [DecidableEq κ] (k : κ) (entries : List (κ × Write ρ υ)) :
    List (Write ρ υ) :=
  (entries.filter (fun e => e.1 = k)).map Prod.snd

/-- The actions on a table are refused, or accepted as writes that fit it. -/
structure Registers (apply : ρ → υ → ρ) (lookup : τ → κ → Option ρ)
    (step : τ → α → τ) (entry : τ → α → Option (κ × Write ρ υ)) : Prop where
  refused : ∀ t a, entry t a = none → ∀ k, lookup (step t a) k = lookup t k
  fits : ∀ t a k w, entry t a = some (k, w) → w.Fits (lookup t k)
  written : ∀ t a k w, entry t a = some (k, w) →
    lookup (step t a) k = w.on apply (lookup t k)
  others : ∀ t a k w, entry t a = some (k, w) → ∀ k', k' ≠ k →
    lookup (step t a) k' = lookup t k'

/-- A field of the rows, with the value that an update gives for it. -/
def IsField {β : Type} (apply : ρ → υ → ρ) (field : ρ → β)
    (given : υ → Option β) : Prop :=
  ∀ row u, field (apply row u) = (given u).getD (field row)

/-- A row is that of a creation, with the updates that come after it. -/
structure RowOf (apply : ρ → υ → ρ) (writes : List (Write ρ υ)) (row : ρ)
    (created : ρ) (updates : List υ) : Prop where
  writes : ∃ before,
    writes = before ++ .create created :: updates.map Write.update
  row : row = updates.foldl apply created

end Definitions

section Creation

variable {ρ υ : Type} {created created' : ρ} {updates updates' : List υ}

/-- After a creation and its updates, there is no other creation. -/
theorem created_of_suffix
    {mid : List (Write ρ υ)}
    (h : .create created :: updates.map Write.update =
      mid ++ .create created' :: updates'.map Write.update) :
    created = created' ∧ updates = updates' := by
  have hinjective : Function.Injective (Write.update : υ → Write ρ υ) := by
    intro u u' heq
    cases heq
    rfl
  cases mid with
  | nil =>
      obtain ⟨hcreate, hrest⟩ := List.cons.inj h
      cases hcreate
      exact ⟨rfl, hinjective.list_map hrest⟩
  | cons w mid =>
      obtain ⟨-, hrest⟩ := List.cons.inj h
      have hmem : Write.create created' ∈ updates.map (Write.update (ρ := ρ)) := by
        rw [hrest]
        exact List.mem_append_right _ List.mem_cons_self
      obtain ⟨u, -, hu⟩ := List.mem_map.1 hmem
      cases hu

/-- The last creation of a row and its updates are determined by the writes. -/
theorem created_unique
    {before before' : List (Write ρ υ)}
    (h : before ++ .create created :: updates.map Write.update =
      before' ++ .create created' :: updates'.map Write.update) :
    created = created' ∧ updates = updates' := by
  rcases List.append_eq_append_iff.1 h with ⟨mid, -, htail⟩ | ⟨mid, -, htail⟩
  · exact created_of_suffix htail
  · obtain ⟨hcreated, hupdates⟩ := created_of_suffix htail
    exact ⟨hcreated.symm, hupdates.symm⟩

end Creation

section Fields

variable {ρ υ β : Type} {apply : ρ → υ → ρ} {field : ρ → β}
variable {given : υ → Option β}

/-- A field has the last value that is given, or the one that it had. -/
theorem IsField.foldl
    (h : IsField apply field given) (row : ρ) (us : List υ) :
    field (us.foldl apply row) =
      (us.filterMap given).getLast?.getD (field row) := by
  induction us generalizing row with
  | nil =>
      rfl
  | cons u us ih =>
      rw [List.foldl_cons, ih, h row u, List.filterMap_cons]
      cases given u with
      | none =>
          rfl
      | some x =>
          rw [List.getLast?_cons]
          cases (us.filterMap given).getLast? <;> rfl

end Fields

section Run

variable {κ ρ υ τ α : Type} [DecidableEq κ] {apply : ρ → υ → ρ}
variable {lookup : τ → κ → Option ρ} {step : τ → α → τ}
variable {entry : τ → α → Option (κ × Write ρ υ)} {t : τ} {k : κ}

theorem mem_writesOf
    {entries : List (κ × Write ρ υ)} {w : Write ρ υ}
    (hw : w ∈ writesOf k entries) :
    (k, w) ∈ entries := by
  obtain ⟨e, he, rfl⟩ := List.mem_map.1 hw
  obtain ⟨hmem, hk⟩ := List.mem_filter.1 he
  rw [← of_decide_eq_true hk]
  exact hmem

theorem writesOf_append
    (entries entries' : List (κ × Write ρ υ)) :
    writesOf k (entries ++ entries') =
      writesOf k entries ++ writesOf k entries' := by
  rw [writesOf, List.filter_append, List.map_append]
  rfl

omit [DecidableEq κ] in
theorem journal_concat
    (t : τ) (as : List α) (a : α) :
    journal step entry t (as ++ [a]) =
      journal step entry t as ++ (entry (as.foldl step t) a).toList := by
  induction as generalizing t with
  | nil =>
      simp [journal]
  | cons b as ih =>
      rw [List.cons_append, journal, journal, ih, List.append_assoc,
        List.foldl_cons]

omit [DecidableEq κ] in
/-- An accepted write is that of some action. -/
theorem exists_entry_of_mem_journal
    {as : List α} {e : κ × Write ρ υ} (he : e ∈ journal step entry t as) :
    ∃ t' a, entry t' a = some e := by
  induction as generalizing t with
  | nil =>
      cases he
  | cons a as ih =>
      rw [journal, List.mem_append, Option.mem_toList] at he
      rcases he with hnow | hlater
      · exact ⟨t, a, hnow⟩
      · exact ih hlater

/--
After every run from a table without the row of a key, the table has its row exactly
when its last creation has not been dropped, with the updates since then.
-/
theorem rowOf_run
    (h : Registers apply lookup step entry) (hnone : lookup t k = none)
    (as : List α) :
    (lookup (as.foldl step t) k = none ∧
        (writesOf k (journal step entry t as) = [] ∨ ∃ before,
          writesOf k (journal step entry t as) = before ++ [.drop])) ∨
      ∃ row created updates, lookup (as.foldl step t) k = some row ∧
        RowOf apply (writesOf k (journal step entry t as)) row created
          updates := by
  induction as using List.reverseRecOn with
  | nil =>
      exact Or.inl ⟨hnone, Or.inl rfl⟩
  | append_singleton as a ih =>
      rw [List.foldl_concat, journal_concat, writesOf_append]
      generalize as.foldl step t = t' at ih ⊢
      generalize writesOf k (journal step entry t as) = ws at ih ⊢
      cases hentry : entry t' a with
      | none =>
          rw [h.refused t' a hentry k]
          simpa [writesOf] using ih
      | some e =>
          obtain ⟨k', w⟩ := e
          by_cases hk : k' = k
          · subst hk
            have hfits := h.fits t' a k' w hentry
            have hwrites : writesOf k' (Option.toList (some (k', w))) = [w] := by
              simp [writesOf]
            rw [h.written t' a k' w hentry, hwrites]
            cases w with
            | create row =>
                exact Or.inr ⟨row, row, [], rfl, ⟨ws, by simp⟩, rfl⟩
            | drop =>
                exact Or.inl ⟨rfl, Or.inr ⟨ws, rfl⟩⟩
            | update u =>
                rcases ih with ⟨hlost, -⟩ |
                  ⟨row, created, updates, hrow, ⟨before, hws⟩, heq⟩
                · exact absurd hlost hfits
                · refine Or.inr ⟨apply row u, created, updates ++ [u], ?_,
                    ⟨before, ?_⟩, ?_⟩
                  · rw [hrow]
                    rfl
                  · rw [hws, List.map_append, List.append_assoc]
                    rfl
                  · rw [List.foldl_concat, heq]
          · rw [h.others t' a k' w hentry k (Ne.symm hk)]
            have hwrites : writesOf k (Option.toList (some (k', w))) = [] := by
              simp [writesOf, hk]
            rw [hwrites, List.append_nil]
            exact ih

end Run

end Registry
