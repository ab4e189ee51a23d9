import Mathlib.Data.Option.Basic
import Mathlib.Tactic.Common

/-!
# Memoized functions

A memoized function keeps its last result for some time.  A caller looks for the
result, and when there is none asks for it and keeps it under the version that it
has looked for.  Forgetting the results changes the version, so that what is kept
under an older one is not found.

* `read`, `keep`, `forget`, `evict`: what is done with the result.
* `read_eq_some_iff`: a result that is found is the one that is kept, and recent.
* `Backed`: the result that is kept has a source, with its version and instant.
* `Backed.keep`, `Backed.read`: a result that is found has a source that is recent.
-/

namespace Memoization

variable {α : Type}

/-- The result that is kept, with the instant at which it was. -/
structure Memo (α : Type) where
  version : Nat
  entry : Option (α × Int)

/-- A result is kept for a time, or for ever when the time is zero. -/
def Fresh (timeout kept now : Int) : Prop :=
  timeout = 0 ∨ now < kept + timeout

instance (timeout kept now : Int) : Decidable (Fresh timeout kept now) :=
  inferInstanceAs (Decidable (_ ∨ _))

/-- A result is got from its source, or found as long as it is fresh. -/
def Recent (timeout kept now : Int) : Prop :=
  kept ≤ now ∧ (kept = now ∨ Fresh timeout kept now)

theorem recent_self
    (timeout now : Int) :
    Recent timeout now now :=
  ⟨Int.le_refl now, Or.inl rfl⟩

namespace Memo

def read (timeout now : Int) (m : Memo α) : Option α :=
  (m.entry.filter (fun e => decide (Fresh timeout e.2 now))).map Prod.fst

/-- Keep a result under the version that was looked for. -/
def keep (m : Memo α) (version : Nat) (value : α) (now : Int) : Memo α :=
  if version = m.version then { m with entry := some (value, now) } else m

def forget (m : Memo α) : Memo α where
  version := m.version + 1
  entry := none

/-- The result may be lost at any time. -/
def evict (m : Memo α) : Memo α :=
  { m with entry := none }

variable {m : Memo α} {timeout now : Int} {version : Nat} {value : α}

@[simp] theorem keep_version
    (m : Memo α) (version : Nat) (value : α) (now : Int) :
    (m.keep version value now).version = m.version := by
  unfold keep
  split <;> rfl

@[simp] theorem forget_version
    (m : Memo α) :
    m.forget.version = m.version + 1 :=
  rfl

@[simp] theorem evict_version
    (m : Memo α) :
    m.evict.version = m.version :=
  rfl

/-- A result that is found is the one that is kept, and is fresh. -/
theorem read_eq_some_iff :
    m.read timeout now = some value ↔
      ∃ kept, m.entry = some (value, kept) ∧ Fresh timeout kept now := by
  simp only [read, Option.map_eq_some_iff, Option.filter_eq_some_iff,
    decide_eq_true_eq, Prod.exists]
  constructor
  · rintro ⟨value', kept, ⟨hentry, hfresh⟩, rfl⟩
    exact ⟨kept, hentry, hfresh⟩
  · rintro ⟨kept, hentry, hfresh⟩
    exact ⟨value, kept, ⟨hentry, hfresh⟩, rfl⟩

/-- The result that is kept comes from a source, under the current version. -/
def Backed (Source : Nat → α → Int → Prop) (m : Memo α) : Prop :=
  ∀ value kept, m.entry = some (value, kept) → Source m.version value kept

variable {Source Source' : Nat → α → Int → Prop}

theorem backed_of_none
    (h : m.entry = none) :
    m.Backed Source := by
  intro value kept hentry
  rw [h] at hentry
  cases hentry

theorem Backed.imp
    (h : m.Backed Source)
    (himp : ∀ version value kept, Source version value kept →
      Source' version value kept) :
    m.Backed Source' :=
  fun value kept hentry => himp _ value kept (h value kept hentry)

/-- What is kept under an older version is not found. -/
theorem Backed.keep
    (h : m.Backed Source) (hsource : Source version value now) :
    (m.keep version value now).Backed Source := by
  unfold Memo.keep
  split
  · rename_i hversion
    intro value' kept hentry
    simp only [Option.some.injEq, Prod.mk.injEq] at hentry
    obtain ⟨rfl, rfl⟩ := hentry
    exact hversion ▸ hsource
  · exact h

/-- What is found has a source that is fresh. -/
theorem Backed.read
    (h : m.Backed Source) (hread : m.read timeout now = some value) :
    ∃ kept, Source m.version value kept ∧ Fresh timeout kept now := by
  obtain ⟨kept, hentry, hfresh⟩ := read_eq_some_iff.1 hread
  exact ⟨kept, h value kept hentry, hfresh⟩

end Memo

end Memoization
