import Kirin.Library.Runs
import Mathlib.Data.List.Chain
import Mathlib.Algebra.Order.Monoid.Unbundled.Basic

/-!
# Throttles

A throttle lets a call through when it comes more than an interval after the last
one that it let through.

* `through`: the calls of a sequence that a throttle lets through.
* `isChain_through`: two consecutive ones are more than the interval apart.
* `foldl_remember`: what is remembered is the last of them.
* `accepts_readAt`: what is remembered may expire once the interval has passed.
-/

namespace Throttle

variable {τ : Type} [LinearOrder τ] [Add τ]

/-- Whether a call is let through, from the last one that was. -/
def accepts (interval : τ) (last : Option τ) (now : τ) : Bool :=
  last.all (fun t => decide (t + interval < now))

/-- The last call that was let through, once one more has come. -/
def remember (interval : τ) (last : Option τ) (now : τ) : Option τ :=
  if accepts interval last now then some now else last

/-- The calls that are let through. -/
def through (interval : τ) (last : Option τ) (calls : List τ) : List τ :=
  Runs.kept (remember interval) (accepts interval) last calls

/-- A value that can be read up to an instant. -/
structure Expiring (τ : Type) where
  value : τ
  expiry : τ
deriving DecidableEq, Repr

/-- What can still be read of a value. -/
def readAt (stored : Option (Expiring τ)) (now : τ) : Option τ :=
  (stored.filter (fun s => decide (now ≤ s.expiry))).map Expiring.value

section Calls

variable {interval : τ}

theorem accepts_eq_true_iff
    {last : Option τ} {now : τ} :
    accepts interval last now = true ↔ ∀ t ∈ last, t + interval < now := by
  cases last <;> simp [accepts]

@[simp] theorem through_nil
    (last : Option τ) :
    through interval last [] = [] :=
  rfl

theorem through_cons
    (last : Option τ) (now : τ) (calls : List τ) :
    through interval last (now :: calls) =
      if accepts interval last now then
        now :: through interval (some now) calls
      else through interval last calls := by
  rw [through, Runs.kept, remember]
  split
  · rfl
  · rfl

/-- What is remembered is the last call that was let through. -/
theorem foldl_remember
    (last : Option τ) (calls : List τ) :
    calls.foldl (remember interval) last =
      (last.toList ++ through interval last calls).getLast? := by
  induction calls generalizing last with
  | nil =>
      cases last <;> rfl
  | cons now calls ih =>
      rw [List.foldl_cons, ih, through_cons, remember]
      split
      · rw [List.getLast?_append, List.getLast?_append]
        cases h : (through interval (some now) calls).getLast? with
        | none =>
            simp [List.getLast?_eq_none_iff.1 h]
        | some t =>
            simp [List.getLast?_cons, h]
      · rfl

/-- The calls that are let through follow each other after the interval. -/
theorem isChain_through
    (last : Option τ) (calls : List τ) :
    (last.toList ++ through interval last calls).IsChain
      (fun a b => a + interval < b) := by
  induction calls generalizing last with
  | nil =>
      cases last <;> simp
  | cons now calls ih =>
      rw [through_cons]
      split
      · rename_i haccepts
        have hnext := ih (some now)
        cases last with
        | none =>
            exact hnext
        | some t =>
            exact List.IsChain.cons_cons
              (accepts_eq_true_iff.1 haccepts t rfl) hnext
      · exact ih last

/-- An instant that expires once the interval has passed is as good as kept. -/
theorem accepts_readAt
    {stored : Option (Expiring τ)}
    (h : ∀ s ∈ stored, s.value + interval ≤ s.expiry) (now : τ) :
    accepts interval (readAt stored now) now =
      accepts interval (stored.map Expiring.value) now := by
  cases stored with
  | none =>
      rfl
  | some s =>
      by_cases hnow : now ≤ s.expiry
      · simp [readAt, Option.filter, hnow]
      · have hlate : s.value + interval < now :=
          lt_of_le_of_lt (h s rfl) (not_le.1 hnow)
        simp [readAt, Option.filter, accepts, hnow, hlate]

/-- A call that what was read lets through comes after the interval, or the expiry. -/
theorem lt_of_accepts_readAt
    {stored : Option (Expiring τ)} {read now : τ} (hread : read ≤ now)
    (haccepts : accepts interval (readAt stored read) now = true) :
    ∀ s ∈ stored, s.value + interval < now ∨ s.expiry < now := by
  intro s hs
  by_cases hlive : read ≤ s.expiry
  · refine Or.inl (accepts_eq_true_iff.1 haccepts s.value ?_)
    rw [Option.mem_def.1 hs, readAt, Option.filter_some,
      if_pos (decide_eq_true hlive)]
    rfl
  · exact Or.inr ((not_le.1 hlive).trans_le hread)

end Calls

end Throttle
