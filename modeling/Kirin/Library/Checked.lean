import Mathlib.Data.List.Forall2
import Mathlib.Tactic.Common

/-!
# Computations that may raise

What is known of a computation in `Except` that returns.

* `bind_eq_ok`: both parts of a sequence have returned.
* `mapM_eq_ok`: each element of a list has returned its own result.
* `exists_mapM_eq_ok`: a list whose elements all return something.
* `foldlM_invariant`: a property kept by every turn of a loop.
* `foldlM_eq_foldl`: a loop whose turns compute a known value.
* `RaisesOnly`: the exceptions that a computation may raise.
* `raisesOnly_bind`, `raisesOnly_foldlM`: those of a sequence, and of a loop.
-/

namespace Checked

variable {ε α β : Type}

/-- A sequence returns when both of its parts do. -/
theorem bind_eq_ok
    {x : Except ε α} {f : α → Except ε β} {b : β} :
    x >>= f = .ok b ↔ ∃ a, x = .ok a ∧ f a = .ok b := by
  cases x with
  | error e =>
      simp [bind, Except.bind]
  | ok a =>
      simp [bind, Except.bind]

@[simp] theorem pure_eq_ok
    {a b : α} :
    (pure a : Except ε α) = .ok b ↔ a = b := by
  simp [pure, Except.pure]

/-- Nothing is raised after a computation that returns. -/
theorem exists_bind_pure_eq_ok
    {x : Except ε α} {g : α → β} :
    (∃ b, (x >>= fun a => pure (g a)) = .ok b) ↔ ∃ a, x = .ok a := by
  simp only [bind_eq_ok, pure_eq_ok]
  exact ⟨fun ⟨_, a, ha, _⟩ => ⟨a, ha⟩, fun ⟨a, ha⟩ => ⟨g a, a, ha, rfl⟩⟩

theorem map_eq_ok
    {x : Except ε α} {f : α → β} {b : β} :
    x.map f = .ok b ↔ ∃ a, x = .ok a ∧ f a = b := by
  cases x <;> simp [Except.map]

/-- A computation that returns has a result. -/
theorem exists_eq_ok
    {x : Except ε α} (h : x.isOk = true) :
    ∃ a, x = .ok a := by
  cases x with
  | error e =>
      cases h
  | ok a =>
      exact ⟨a, rfl⟩

/-- A loop over a list returns when every turn does. -/
theorem mapM_eq_ok
    {f : α → Except ε β} {as : List α} {bs : List β} :
    as.mapM f = .ok bs ↔ List.Forall₂ (fun a b => f a = .ok b) as bs := by
  induction as generalizing bs with
  | nil =>
      rw [List.mapM_nil, pure_eq_ok]
      constructor
      · rintro rfl
        exact List.Forall₂.nil
      · intro h
        cases h
        rfl
  | cons a as ih =>
      rw [List.mapM_cons, bind_eq_ok]
      constructor
      · rintro ⟨b, hb, hrest⟩
        obtain ⟨bs', hbs', heq⟩ := bind_eq_ok.1 hrest
        rw [pure_eq_ok] at heq
        subst heq
        exact List.Forall₂.cons hb (ih.1 hbs')
      · intro h
        cases h with
        | cons hb hrest =>
            exact ⟨_, hb, bind_eq_ok.2 ⟨_, ih.2 hrest, rfl⟩⟩

/-- A loop over a list returns something when every turn does. -/
theorem exists_mapM_eq_ok
    {f : α → Except ε β} {as : List α} :
    (∃ bs, as.mapM f = .ok bs) ↔ ∀ a ∈ as, ∃ b, f a = .ok b := by
  simp only [mapM_eq_ok]
  induction as with
  | nil =>
      exact ⟨fun _ a ha => absurd ha List.not_mem_nil,
        fun _ => ⟨[], List.Forall₂.nil⟩⟩
  | cons a as ih =>
      rw [List.forall_mem_cons, ← ih]
      constructor
      · rintro ⟨bs, h⟩
        cases h with
        | cons hb hrest =>
            exact ⟨⟨_, hb⟩, _, hrest⟩
      · rintro ⟨⟨b, hb⟩, bs, hrest⟩
        exact ⟨b :: bs, List.Forall₂.cons hb hrest⟩

/-- What every turn of a loop keeps holds at its end. -/
theorem foldlM_invariant
    {f : β → α → Except ε β} {P : β → Prop} {as : List α} {b b' : β}
    (hstep : ∀ b a b', a ∈ as → P b → f b a = .ok b' → P b')
    (h : as.foldlM f b = .ok b') (hb : P b) :
    P b' := by
  induction as generalizing b with
  | nil =>
      rw [List.foldlM_nil, pure_eq_ok] at h
      exact h ▸ hb
  | cons a as ih =>
      rw [List.foldlM_cons, bind_eq_ok] at h
      obtain ⟨b1, hturn, hrest⟩ := h
      refine ih (fun b a' b' ha' => hstep b a' b' (List.mem_cons_of_mem a ha'))
        hrest ?_
      exact hstep b a b1 List.mem_cons_self hb hturn

/-- A loop whose turns only return a known value computes that value. -/
theorem foldlM_eq_foldl
    {f : β → α → Except ε β} {g : β → α → β} {as : List α} {b b' : β}
    (hturn : ∀ b a b', f b a = .ok b' → b' = g b a)
    (h : as.foldlM f b = .ok b') :
    b' = as.foldl g b := by
  induction as generalizing b with
  | nil =>
      rw [List.foldlM_nil, pure_eq_ok] at h
      exact h.symm
  | cons a as ih =>
      rw [List.foldlM_cons, bind_eq_ok] at h
      obtain ⟨b1, hb1, hrest⟩ := h
      rw [List.foldl_cons, ← hturn b a b1 hb1]
      exact ih hrest

/-- A computation raises nothing else than some exceptions. -/
def RaisesOnly (P : ε → Prop) (x : Except ε α) : Prop :=
  ∀ e, x = .error e → P e

section RaisesOnly

variable {P : ε → Prop}

@[simp] theorem raisesOnly_ok
    (P : ε → Prop) (a : α) :
    RaisesOnly P (.ok a) :=
  fun _ h => nomatch h

@[simp] theorem raisesOnly_pure
    (P : ε → Prop) (a : α) :
    RaisesOnly P (pure a) :=
  raisesOnly_ok P a

@[simp] theorem raisesOnly_error
    {e : ε} :
    RaisesOnly P (.error e : Except ε α) ↔ P e :=
  ⟨fun h => h e rfl, fun h e' he => by cases he; exact h⟩

/-- A sequence raises what its first part does, or else what follows does. -/
theorem raisesOnly_bind
    {x : Except ε α} {f : α → Except ε β} :
    RaisesOnly P (x >>= f) ↔
      RaisesOnly P x ∧ ∀ a, x = .ok a → RaisesOnly P (f a) := by
  cases x with
  | error e =>
      simp [bind, Except.bind]
  | ok a =>
      simp [bind, Except.bind]

theorem raisesOnly_map
    {x : Except ε α} {f : α → β} :
    RaisesOnly P (x.map f) ↔ RaisesOnly P x := by
  cases x <;> simp [Except.map]

/-- A loop raises what the turns that it reaches do. -/
theorem raisesOnly_foldlM
    {f : β → α → Except ε β} {as : List α} {b : β} :
    RaisesOnly P (as.foldlM f b) ↔
      ∀ before a after b', as = before ++ a :: after →
        before.foldlM f b = .ok b' → RaisesOnly P (f b' a) := by
  induction as generalizing b with
  | nil =>
      simp
  | cons a as ih =>
      rw [List.foldlM_cons, raisesOnly_bind]
      constructor
      · rintro ⟨hturn, hrest⟩ before a' after b' heq hbefore
        cases before with
        | nil =>
            cases heq
            cases hbefore
            exact hturn
        | cons a1 before =>
            cases heq
            rw [List.foldlM_cons, bind_eq_ok] at hbefore
            obtain ⟨b1, hb1, hbefore⟩ := hbefore
            exact ih.1 (hrest b1 hb1) before a' after b' rfl hbefore
      · intro h
        refine ⟨h [] a as b rfl rfl, fun b1 hb1 => ih.2 ?_⟩
        intro before a' after b' heq hbefore
        refine h (a :: before) a' after b' (by rw [heq]; rfl) ?_
        rw [List.foldlM_cons, bind_eq_ok]
        exact ⟨b1, hb1, hbefore⟩

end RaisesOnly

end Checked
