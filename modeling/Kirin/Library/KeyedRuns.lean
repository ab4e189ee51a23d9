import Kirin.Library.Runs
import Mathlib.Data.List.Nodup

/-!
# Runs over keyed rows

A machine keeps rows under keys, and each of its steps reads and updates the row
of one key.  The steps on one key are then a run of their own, which does not
depend on those on the other keys.

* `Keyed`: the steps of a machine act on the row of their key.
* `Keyed.lookup_foldl`: the row of a key after a run is updated by its own steps.
* `Keyed.along_iff`: a condition holds all along when it does on each key.
* `emitted`, `emittedOn`: what the steps emit, in a run and on one key.
* `Keyed.filter_emitted`: what a run emits for a key is emitted on it alone.
* `nodup_keys_iff`: keys are distinct when each one is emitted once.
-/

namespace KeyedRuns

variable {σ α κ ρ ε : Type} [DecidableEq κ]

/-- The steps that are taken on a key. -/
def stepsOn (key : α → κ) (k : κ) (as : List α) : List α :=
  as.filter (fun a => decide (key a = k))

/-- The steps of a machine act on the row of their key, under an invariant. -/
structure Keyed
    (step : σ → α → σ) (P : σ → α → Prop) (Inv : σ → Prop) (key : α → κ)
    (lookup : σ → κ → Option ρ) (update : Option ρ → α → Option ρ) :
    Prop where
  keeps : ∀ s a, Inv s → P s a → Inv (step s a)
  lookup_step : ∀ s a k, Inv s → P s a →
    lookup (step s a) k =
      if key a = k then update (lookup s k) a else lookup s k

section Emitted

variable (step : σ → α → σ) (key : α → κ) (lookup : σ → κ → Option ρ)
variable (update : Option ρ → α → Option ρ) (emit : Option ρ → α → Option ε)

/-- What the steps of a run emit, with their keys. -/
def emitted : σ → List α → List (κ × ε)
  | _, [] => []
  | s, a :: as =>
      ((emit (lookup s (key a)) a).map (fun e => (key a, e))).toList ++
        emitted (step s a) as

/-- What the steps on one key emit. -/
def emittedOn : Option ρ → List α → List ε
  | _, [] => []
  | row, a :: as =>
      (emit row a).toList ++ emittedOn (update row a) as

end Emitted

section Steps

variable {key : α → κ} {k : κ} {a : α} {as bs : List α}

theorem stepsOn_cons :
    stepsOn key k (a :: as) =
      if key a = k then a :: stepsOn key k as else stepsOn key k as := by
  rw [stepsOn, List.filter_cons]
  simp only [decide_eq_true_eq]
  rfl

theorem mem_stepsOn :
    a ∈ stepsOn key k as ↔ a ∈ as ∧ key a = k := by
  rw [stepsOn, List.mem_filter, decide_eq_true_eq]

end Steps

section Run

variable {step : σ → α → σ} {P : σ → α → Prop} {Inv : σ → Prop} {key : α → κ}
variable {lookup : σ → κ → Option ρ} {update : Option ρ → α → Option ρ}
variable {s : σ} {as : List α}

/-- After a run, the row of a key has been updated by the steps on it. -/
theorem Keyed.lookup_foldl
    (h : Keyed step P Inv key lookup update)
    (halong : Runs.Along step P s as) (hinv : Inv s) (k : κ) :
    lookup (as.foldl step s) k =
      (stepsOn key k as).foldl update (lookup s k) := by
  induction as generalizing s with
  | nil =>
      rfl
  | cons a as ih =>
      rw [List.foldl_cons, ih halong.2 (h.keeps s a hinv halong.1),
        h.lookup_step s a k hinv halong.1, stepsOn_cons]
      split
      · rfl
      · rfl

/-- A condition on the row of each step holds all along when it does on each key. -/
theorem Keyed.along_iff
    (h : Keyed step P Inv key lookup update) {Q : Option ρ → α → Prop}
    (halong : Runs.Along step P s as) (hinv : Inv s) :
    Runs.Along step (fun s a => Q (lookup s (key a)) a) s as ↔
      ∀ k, Runs.Along update Q (lookup s k) (stepsOn key k as) := by
  induction as generalizing s with
  | nil =>
      exact iff_of_true trivial (fun _ => trivial)
  | cons a as ih =>
      rw [Runs.Along, ih halong.2 (h.keeps s a hinv halong.1)]
      constructor
      · rintro ⟨ha, hrest⟩ k
        have hk := hrest k
        rw [h.lookup_step s a k hinv halong.1] at hk
        rw [stepsOn_cons]
        split
        · rename_i heq
          rw [if_pos heq] at hk
          subst heq
          exact ⟨ha, hk⟩
        · rename_i hne
          rw [if_neg hne] at hk
          exact hk
      · intro hall
        have hown := hall (key a)
        rw [stepsOn_cons, if_pos rfl] at hown
        refine ⟨hown.1, fun k => ?_⟩
        have hk := hall k
        rw [stepsOn_cons] at hk
        rw [h.lookup_step s a k hinv halong.1]
        split
        · rename_i heq
          rw [if_pos heq] at hk
          exact hk.2
        · rename_i hne
          rw [if_neg hne] at hk
          exact hk

/-- What a run emits for a key is what the steps on it emit. -/
theorem Keyed.filter_emitted
    (h : Keyed step P Inv key lookup update) {emit : Option ρ → α → Option ε}
    (halong : Runs.Along step P s as) (hinv : Inv s) (k : κ) :
    (emitted step key lookup emit s as).filter (fun p => decide (p.1 = k)) =
      (emittedOn update emit (lookup s k) (stepsOn key k as)).map
        (fun e => (k, e)) := by
  induction as generalizing s with
  | nil =>
      rfl
  | cons a as ih =>
      rw [emitted, List.filter_append,
        ih halong.2 (h.keeps s a hinv halong.1),
        h.lookup_step s a k hinv halong.1, stepsOn_cons]
      by_cases heq : key a = k
      · subst heq
        rw [if_pos rfl, if_pos rfl, emittedOn, List.map_append]
        cases emit (lookup s (key a)) a with
        | none =>
            rfl
        | some e =>
            simp
      · rw [if_neg heq, if_neg heq]
        cases emit (lookup s (key a)) a with
        | none =>
            rfl
        | some e =>
            simp [heq]

end Run

/-- Keys are distinct when none of them is there twice. -/
theorem nodup_keys_iff
    {pairs : List (κ × ε)} :
    (pairs.map Prod.fst).Nodup ↔
      ∀ k, (pairs.filter (fun p => decide (p.1 = k))).length ≤ 1 := by
  rw [List.nodup_iff_count_le_one]
  refine forall_congr' (fun k => ?_)
  rw [List.count, List.countP_map, List.countP_eq_length_filter]
  rfl

end KeyedRuns
