import Mathlib.Data.List.Basic
import Mathlib.Tactic.Common

/-!
# Runs of a machine

A machine goes from state to state by taking the elements of a list.

* `Along`: a condition on the state and the element of every step of a run.
* `invariant_of_along`: what every step keeps holds at the end.
* `along_of_invariant`: what every step then has holds all along.
* `along_invariant_iff`: what every step of a run needs to keep an invariant.
* `kept`: the elements of a run that are good where they are taken.
* `kept_simulates`: when bad elements keep a relation on their own, the run of
  the good ones alone stays related to the whole run.
-/

namespace Runs

variable {σ α : Type} (step : σ → α → σ)

/-- Every step of a run meets a condition. -/
def Along (P : σ → α → Prop) : σ → List α → Prop
  | _, [] => True
  | s, a :: as => P s a ∧ Along P (step s a) as

instance Along.decidable
    {P : σ → α → Prop} [∀ s a, Decidable (P s a)] (s : σ) (as : List α) :
    Decidable (Along step P s as) :=
  match as with
  | [] => isTrue trivial
  | a :: as =>
      have : Decidable (Along step P (step s a) as) :=
        Along.decidable (step s a) as
      inferInstanceAs (Decidable (_ ∧ _))

/-- The elements that are good in the state where they are taken. -/
def kept (good : σ → α → Bool) : σ → List α → List α
  | _, [] => []
  | s, a :: as =>
      if good s a then a :: kept good (step s a) as
      else kept good (step s a) as

/-- The elements that are not good in the state where they are taken. -/
def dropped (good : σ → α → Bool) : σ → List α → List α :=
  kept step (fun s a => !good s a)

section Along

variable {step} {P Q : σ → α → Prop} {s : σ} {as bs : List α}

theorem Along.imp
    (h : ∀ s a, P s a → Q s a) (halong : Along step P s as) :
    Along step Q s as := by
  induction as generalizing s with
  | nil =>
      trivial
  | cons a as ih =>
      exact ⟨h s a halong.1, ih halong.2⟩

theorem Along.and
    (hP : Along step P s as) (hQ : Along step Q s as) :
    Along step (fun s a => P s a ∧ Q s a) s as := by
  induction as generalizing s with
  | nil =>
      trivial
  | cons a as ih =>
      exact ⟨⟨hP.1, hQ.1⟩, ih hP.2 hQ.2⟩

/-- A condition on the elements of a run is met all along. -/
theorem along_of_forall
    {p : α → Prop} (h : ∀ a ∈ as, p a) :
    Along step (fun _ a => p a) s as := by
  induction as generalizing s with
  | nil =>
      trivial
  | cons a as ih =>
      rw [List.forall_mem_cons] at h
      exact ⟨h.1, ih h.2⟩

/-- A run that only depends on some value of its elements is one on these. -/
theorem along_map
    {β : Type} {f : β → α} {bs : List β} :
    Along step P s (bs.map f) ↔
      Along (fun s b => step s (f b)) (fun s b => P s (f b)) s bs := by
  induction bs generalizing s with
  | nil =>
      exact Iff.rfl
  | cons b bs ih =>
      rw [List.map_cons, Along, Along, ih]

/-- A condition on a run is one on its beginning and one on its end. -/
theorem along_append :
    Along step P s (as ++ bs) ↔
      Along step P s as ∧ Along step P (as.foldl step s) bs := by
  induction as generalizing s with
  | nil =>
      simp [Along]
  | cons a as ih =>
      rw [List.cons_append, Along, Along, ih, List.foldl_cons, and_assoc]

/-- What every step keeps holds at the end of a run. -/
theorem invariant_of_along
    {Inv : σ → Prop} (hstep : ∀ s a, Inv s → P s a → Inv (step s a))
    (halong : Along step P s as) (hinv : Inv s) :
    Inv (as.foldl step s) := by
  induction as generalizing s with
  | nil =>
      exact hinv
  | cons a as ih =>
      exact ih halong.2 (hstep s a hinv halong.1)

/-- What every step keeps holds at the end of a run, and so does its effect. -/
theorem along_of_invariant
    {Inv : σ → Prop}
    (hstep : ∀ s a, Inv s → P s a → Inv (step s a) ∧ Q s a)
    (halong : Along step P s as) (hinv : Inv s) :
    Inv (as.foldl step s) ∧ Along step Q s as := by
  induction as generalizing s with
  | nil =>
      exact ⟨hinv, trivial⟩
  | cons a as ih =>
      obtain ⟨hnext, hQ⟩ := hstep s a hinv halong.1
      obtain ⟨hend, hrest⟩ := ih halong.2 hnext
      exact ⟨hend, hQ, hrest⟩

/-- An invariant holds all along when every step meets what it needs to keep it. -/
theorem along_invariant_iff
    {Inv : σ → Prop} (hstep : ∀ s a, Inv s → (Inv (step s a) ↔ P s a))
    (hinv : Inv s) :
    Along step (fun s a => Inv (step s a)) s as ↔ Along step P s as := by
  induction as generalizing s with
  | nil =>
      exact Iff.rfl
  | cons a as ih =>
      rw [Along, Along, hstep s a hinv]
      exact and_congr_right (fun hP => ih ((hstep s a hinv).2 hP))

end Along

section Kept

variable {step} {good : σ → α → Bool} {s s' : σ} {as : List α}

/-- An element that is not good is among the dropped ones. -/
theorem along_dropped
    {s0 : σ} {as0 : List α} :
    Along step (fun s a => good s a = false → a ∈ dropped step good s0 as0)
      s as ↔
      ∀ a ∈ dropped step good s as, a ∈ dropped step good s0 as0 := by
  induction as generalizing s with
  | nil =>
      simp [Along, dropped, kept]
  | cons a as ih =>
      rw [Along, ih]
      cases hgood : good s a with
      | true =>
          simp [dropped, kept, hgood]
      | false =>
          simp [dropped, kept, hgood]

/-- The run of the good elements is related to the run of all of them. -/
theorem kept_simulates
    {P : σ → α → Prop} {R : σ → σ → Prop}
    (hgood : ∀ s s' a, P s a → good s a = true → R s s' →
      R (step s a) (step s' a))
    (hbad : ∀ s s' a, P s a → good s a = false → R s s' → R (step s a) s')
    (halong : Along step P s as) (hR : R s s') :
    R (as.foldl step s) ((kept step good s as).foldl step s') := by
  induction as generalizing s s' with
  | nil =>
      exact hR
  | cons a as ih =>
      rw [List.foldl_cons, kept]
      cases h : good s a with
      | true =>
          exact ih halong.2 (hgood s s' a halong.1 h hR)
      | false =>
          exact ih halong.2 (hbad s s' a halong.1 h hR)

end Kept

end Runs
