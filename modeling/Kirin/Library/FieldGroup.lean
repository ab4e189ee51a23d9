import Mathlib.Data.List.Basic
import Mathlib.Tactic.Common

/-!
# Fields that go together

Some fields of a record are meant to be filled together or not at all.  A partial
update gives new values to some of them and leaves the others.

* `Together`: all the values of a list have a property, or none has it.
* `patch`: the values after a partial update.
* `together_patch_of_all`: filled values stay together when the update clears
  all of them or none.
* `together_patch_of_none`: values that are not filled stay together when the
  update fills all of them or none.
-/

namespace FieldGroup

variable {α : Type} (p : α → Prop)

/-- All the values have a property, or none has it. -/
def Together (l : List α) : Prop :=
  (∀ x ∈ l, p x) ∨ ∀ x ∈ l, ¬ p x

instance [DecidablePred p] (l : List α) : Decidable (Together p l) :=
  inferInstanceAs (Decidable (_ ∨ _))

/-- An update gives a value that has the property. -/
def Fills (u : Option α) : Prop :=
  ∃ x ∈ u, p x

/-- An update gives a value that does not have the property. -/
def Clears (u : Option α) : Prop :=
  ∃ x ∈ u, ¬ p x

instance [DecidablePred p] : DecidablePred (Fills p)
  | none => isFalse (by simp [Fills])
  | some x => decidable_of_iff (p x) (by simp [Fills])

instance [DecidablePred p] : DecidablePred (Clears p)
  | none => isFalse (by simp [Clears])
  | some x => decidable_of_iff (¬ p x) (by simp [Clears])

/-- The values once those that are given are updated. -/
def patch (us : List (Option α)) (xs : List α) : List α :=
  List.zipWith (fun u x => u.getD x) us xs

variable {p} {us : List (Option α)} {xs : List α}

/-- What is said of every value after an update that decides it. -/
theorem forall_mem_patch
    {q : α → Prop} {r : Option α → Prop} (hlength : us.length = xs.length)
    (h : ∀ u, ∀ x ∈ xs, (q (u.getD x) ↔ r u)) :
    (∀ y ∈ patch us xs, q y) ↔ ∀ u ∈ us, r u := by
  induction us generalizing xs with
  | nil =>
      simp [patch]
  | cons u us ih =>
      cases xs with
      | nil =>
          cases hlength
      | cons x xs =>
          simp only [List.length_cons, Nat.add_right_cancel_iff] at hlength
          have hrest := ih hlength
            (fun u x hx => h u x (List.mem_cons_of_mem _ hx))
          simp only [patch, List.zipWith_cons_cons, List.forall_mem_cons]
            at hrest ⊢
          rw [h u x List.mem_cons_self, hrest]

/-- Filled values stay together when an update clears all of them or none. -/
theorem together_patch_of_all
    (hlength : us.length = xs.length) (hall : ∀ x ∈ xs, p x) :
    Together p (patch us xs) ↔ Together (Clears p) us := by
  have hfilled : ∀ u, ∀ x ∈ xs, (p (u.getD x) ↔ ¬ Clears p u) := by
    intro u x hx
    cases u with
    | none =>
        simp [Clears, hall x hx]
    | some y =>
        simp [Clears]
  have hcleared : ∀ u, ∀ x ∈ xs, (¬ p (u.getD x) ↔ Clears p u) := by
    intro u x hx
    rw [hfilled u x hx, not_not]
  rw [Together, forall_mem_patch hlength hfilled,
    forall_mem_patch hlength hcleared, or_comm]
  exact Iff.rfl

/-- Values that are not filled stay together when all of them are, or none. -/
theorem together_patch_of_none
    (hlength : us.length = xs.length) (hnone : ∀ x ∈ xs, ¬ p x) :
    Together p (patch us xs) ↔ Together (Fills p) us := by
  have hfilled : ∀ u, ∀ x ∈ xs, (p (u.getD x) ↔ Fills p u) := by
    intro u x hx
    cases u with
    | none =>
        simp [Fills, hnone x hx]
    | some y =>
        simp [Fills]
  have hcleared : ∀ u, ∀ x ∈ xs, (¬ p (u.getD x) ↔ ¬ Fills p u) := by
    intro u x hx
    rw [hfilled u x hx]
  rw [Together, forall_mem_patch hlength hfilled,
    forall_mem_patch hlength hcleared]
  exact Iff.rfl

end FieldGroup
