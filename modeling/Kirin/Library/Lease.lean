import Mathlib.Logic.Function.Basic
import Mathlib.Algebra.Order.Monoid.Unbundled.Basic

/-!
# Leases

A lease is a lock that expires.  It is taken when nobody has it or when it has
expired, and it is given back by its holder only: one that has expired may have
been taken by another.

* `acquire`, `release`: what becomes of the cell of a lease.
* `Guards`: who believes to have a lease that has not expired has it.
* `Guards.unique`: such a holder is alone.
* `Guards.acquire`, `Guards.release`, `Guards.leave`, `Guards.later`: it stays so
  whatever is taken, given back or abandoned, and as time passes.
-/

namespace Lease

variable {ι τ : Type}

/-- Who has a lease, and until when. -/
structure Held (ι τ : Type) where
  owner : ι
  expiry : τ
deriving DecidableEq, Repr

/-- The lease that is held at an instant. -/
def live [LE τ] [DecidableLE τ] (cell : Option (Held ι τ)) (now : τ) :
    Option (Held ι τ) :=
  cell.filter (fun held => decide (now ≤ held.expiry))

/-- Take a lease if nobody has it; the expiry is none when somebody does. -/
def acquire [LE τ] [DecidableLE τ] [Add τ] (timeout : τ) (i : ι) (now : τ)
    (cell : Option (Held ι τ)) : Option (Held ι τ) × Option τ :=
  match live cell now with
  | some _ => (cell, none)
  | none =>
      (some { owner := i, expiry := now + timeout }, some (now + timeout))

/-- Give a lease back, and tell whether it was still one's own. -/
def release [LE τ] [DecidableLE τ] [DecidableEq ι] (i : ι) (now : τ)
    (cell : Option (Held ι τ)) : Option (Held ι τ) × Bool :=
  match live cell now with
  | none => (cell, false)
  | some held => if held.owner = i then (none, true) else (cell, false)

/--
Who believes to have a lease that has not expired has it; the expiry of each
holder is the one it was given.
-/
def Guards [LE τ] (cell : Option (Held ι τ)) (expiries : ι → Option τ)
    (now : τ) : Prop :=
  ∀ i expiry, expiries i = some expiry → now ≤ expiry →
    cell = some { owner := i, expiry := expiry }

section Guards

variable [LinearOrder τ] {cell cell' : Option (Held ι τ)}
variable {expiries : ι → Option τ} {now now' : τ} {i j : ι}

/-- A holder of a lease that has not expired is alone. -/
theorem Guards.unique
    (h : Guards cell expiries now) {expiry expiry' : τ}
    (hi : expiries i = some expiry) (hlive : now ≤ expiry)
    (hj : expiries j = some expiry') (hlive' : now ≤ expiry') :
    i = j := by
  have hheld := (h i expiry hi hlive).symm.trans (h j expiry' hj hlive')
  exact congrArg Held.owner (Option.some.inj hheld)

/-- A lease that expires guards no less. -/
theorem Guards.later
    (h : Guards cell expiries now) (hlater : now ≤ now') :
    Guards cell expiries now' :=
  fun i expiry hi hlive => h i expiry hi (hlater.trans hlive)

/-- Who holds a lease that has not expired keeps the others from taking it. -/
theorem Guards.live_of_held
    (h : Guards cell expiries now) {expiry : τ}
    (hi : expiries i = some expiry) (hlive : now ≤ expiry) :
    live cell now = some { owner := i, expiry := expiry } := by
  rw [h i expiry hi hlive, live, Option.filter_some,
    if_pos (decide_eq_true hlive)]

section Update

variable [DecidableEq ι]

/-- Somebody may leave without giving the lease back. -/
theorem Guards.leave
    (h : Guards cell expiries now) (i : ι) :
    Guards cell (Function.update expiries i none) now := by
  intro j expiry hj hlive
  rw [Function.update_apply] at hj
  split at hj
  · cases hj
  · exact h j expiry hj hlive

/-- Who takes the lease is guarded, and there was no other holder. -/
theorem Guards.acquire
    [Add τ] (h : Guards cell expiries now) (timeout : τ) (i : ι)
    (hfree : expiries i = none) :
    Guards (acquire timeout i now cell).1
      (Function.update expiries i (acquire timeout i now cell).2) now := by
  intro j expiry hj hlive
  unfold Lease.acquire at hj ⊢
  cases hheld : live cell now with
  | some held =>
      rw [hheld] at hj
      simp only [← hfree, Function.update_eq_self] at hj
      exact h j expiry hj hlive
  | none =>
      rw [hheld] at hj
      rw [Function.update_apply] at hj
      split at hj
      · rename_i hsame
        cases hj
        rw [hsame]
      · rw [h.live_of_held hj hlive] at hheld
        cases hheld

/-- Only one's own lease is given back. -/
theorem Guards.release
    (h : Guards cell expiries now) (i : ι) :
    Guards (release i now cell).1 (Function.update expiries i none) now := by
  intro j expiry hj hlive
  rw [Function.update_apply] at hj
  split at hj
  · cases hj
  · rename_i hother
    unfold Lease.release
    rw [h.live_of_held hj hlive]
    simp only [hother, if_false]
    exact h j expiry hj hlive

end Update

end Guards

/-- A lease is free once it has expired. -/
theorem live_of_expired
    [LinearOrder τ] {cell : Option (Held ι τ)} {now : τ}
    (hexpired : ∀ held ∈ cell, held.expiry < now) :
    live cell now = none := by
  cases cell with
  | none =>
      rfl
  | some held =>
      have hlate : ¬ now ≤ held.expiry := not_le.2 (hexpired held rfl)
      rw [live, Option.filter_some, if_neg (by simpa using hlate)]

end Lease
