import Mathlib.Data.List.Basic
import Mathlib.Tactic.Common

/-!
# Lifetimes

A system goes from state to state by labelled steps.  Some things are present in
a state; a step expires some of them and may bring others.

* `Run`: the states that a list of labels leads to.
* `Run.invariant`, `Run.of_concat`: what every step keeps, and the last step.
* `Keeps.of_run`: what no step expires is still present in the end.
* `Comes.of_run`: what is present in the end has not expired since the start, or
  since a step that has brought it.
-/

namespace Lifetime

variable {σ ε X : Type}

/-- The runs of a system, with the labels of their steps. -/
inductive Run (step : σ → ε → σ → Prop) (s : σ) : List ε → σ → Prop
  | nil :
      Run step s [] s
  | concat
      {es : List ε} {e : ε} {s' s'' : σ}
      (hrun : Run step s es s') (hstep : step s' e s'') :
      Run step s (es ++ [e]) s''

section Rules

variable (step : σ → ε → σ → Prop) (Present : σ → X → Prop)
variable (Expires Brings : ε → X → Prop)

/-- A step keeps what it does not expire. -/
def Keeps : Prop :=
  ∀ s e s' x, step s e s' → Present s x → ¬Expires e x → Present s' x

/-- What a step leaves was there and has not expired, or is brought by it. -/
def Comes : Prop :=
  ∀ s e s' x, step s e s' → Present s' x →
    (Present s x ∧ ¬Expires e x) ∨ Brings e x

end Rules

section Runs

variable {step : σ → ε → σ → Prop} {Present : σ → X → Prop}
variable {Expires Brings : ε → X → Prop} {s s' : σ} {es : List ε} {x : X}

theorem Run.invariant
    {P : σ → Prop} (hstep : ∀ s e s', P s → step s e s' → P s')
    (hrun : Run step s es s') (hinv : P s) :
    P s' := by
  induction hrun with
  | nil =>
      exact hinv
  | concat _ h ih =>
      exact hstep _ _ _ ih h

/-- The last step of a run. -/
theorem Run.of_concat
    {e : ε} (hrun : Run step s (es ++ [e]) s') :
    ∃ s1, Run step s es s1 ∧ step s1 e s' := by
  generalize hall : es ++ [e] = all at hrun
  cases hrun with
  | nil =>
      exact absurd hall (List.append_ne_nil_of_right_ne_nil es (by simp))
  | @concat es' e' s1 _ hrun hstep =>
      obtain ⟨rfl, rfl⟩ := List.append_singleton_inj.1 hall
      exact ⟨s1, hrun, hstep⟩

/-- What no step of a run expires is still present in the end. -/
theorem Keeps.of_run
    (hkeeps : Keeps step Present Expires) (hrun : Run step s es s')
    (hx : Present s x) (hes : ∀ e ∈ es, ¬Expires e x) :
    Present s' x := by
  induction hrun with
  | nil =>
      exact hx
  | @concat es e s' s'' hrun hstep ih =>
      rw [List.forall_mem_append, List.forall_mem_singleton] at hes
      exact hkeeps s' e s'' x hstep (ih hes.1) hes.2

/--
What is present in the end has not expired since the start of the run, or since a
step that has brought it.
-/
theorem Comes.of_run
    (hcomes : Comes step Present Expires Brings) (hrun : Run step s es s')
    (hx : Present s' x) :
    (Present s x ∧ ∀ e ∈ es, ¬Expires e x) ∨
      ∃ before e after, es = before ++ e :: after ∧ Brings e x ∧
        ∀ e' ∈ after, ¬Expires e' x := by
  induction hrun with
  | nil =>
      exact Or.inl ⟨hx, fun _ he => absurd he List.not_mem_nil⟩
  | @concat es e s' s'' hrun hstep ih =>
      rcases hcomes s' e s'' x hstep hx with ⟨hbefore, hkept⟩ | hbrings
      · rcases ih hbefore with ⟨hstart, hnone⟩ | ⟨before, e0, after, rfl, h0, hafter⟩
        · refine Or.inl ⟨hstart, ?_⟩
          rw [List.forall_mem_append, List.forall_mem_singleton]
          exact ⟨hnone, hkept⟩
        · refine Or.inr ⟨before, e0, after ++ [e], by simp, h0, ?_⟩
          rw [List.forall_mem_append, List.forall_mem_singleton]
          exact ⟨hafter, hkept⟩
      · exact Or.inr ⟨es, e, [], rfl, hbrings,
          fun _ he => absurd he List.not_mem_nil⟩

end Runs

end Lifetime
