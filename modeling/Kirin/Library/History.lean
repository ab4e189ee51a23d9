import Mathlib.Logic.Relation
import Mathlib.Tactic.Common

/-!
# What a run has gone through

Parts of a system act on what they have read before, while others change it.  What
they do then has its reason in a state that the run has gone through.

* `Once`: something was so in a state of the run that leads to the current one.
* `Once.tail`, `Once.imp`: it stays so, and what follows from it was so too.
* `once_of_comes`: what is present was so at the start, or has a reason.
* `Once.now`: what no step changes is still so.
-/

namespace History

open Relation (ReflTransGen)

variable {σ X : Type} {step : σ → σ → Prop} {start s s' : σ} {P Q : σ → Prop}

/-- Something was so in a state of a run that leads to the current one. -/
def Once (step : σ → σ → Prop) (start : σ) (P : σ → Prop) (s : σ) : Prop :=
  ∃ s1, ReflTransGen step start s1 ∧ ReflTransGen step s1 s ∧ P s1

theorem once_of_now
    (hrun : ReflTransGen step start s) (h : P s) :
    Once step start P s :=
  ⟨s, hrun, .refl, h⟩

theorem Once.tail
    (h : Once step start P s) (hstep : step s s') :
    Once step start P s' := by
  obtain ⟨s1, hbefore, hafter, hP⟩ := h
  exact ⟨s1, hbefore, hafter.tail hstep, hP⟩

theorem Once.imp
    (h : Once step start P s) (himp : ∀ s1, P s1 → Q s1) :
    Once step start Q s := by
  obtain ⟨s1, hbefore, hafter, hP⟩ := h
  exact ⟨s1, hbefore, hafter, himp s1 hP⟩

/-- What stays so is still so when it once was. -/
theorem Once.now
    (h : Once step start P s) (hkeeps : ∀ s s', step s s' → P s → P s') :
    P s := by
  obtain ⟨s1, -, hafter, hP⟩ := h
  induction hafter with
  | refl =>
      exact hP
  | tail _ hstep ih =>
      exact hkeeps _ _ hstep ih

section Comes

variable (Present : σ → X → Prop) (Reason : X → σ → Prop) {x : X}

/-- What is present in the end was at the start, or its reason was once so. -/
theorem once_of_comes
    (hcomes : ∀ s s' x, ReflTransGen step start s → step s s' →
      Present s' x → Present s x ∨ Once step start (Reason x) s)
    (hrun : ReflTransGen step start s) (hx : Present s x) :
    Present start x ∨ Once step start (Reason x) s := by
  induction hrun with
  | refl =>
      exact Or.inl hx
  | tail hrun hstep ih =>
      rcases hcomes _ _ x hrun hstep hx with hbefore | honce
      · exact (ih hbefore).imp_right (fun h => h.tail hstep)
      · exact Or.inr (honce.tail hstep)

end Comes

end History
