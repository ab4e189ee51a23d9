import Kirin.Resources.Contributors

/-!
# Kirin: the supervision of the PIV worker

This module follows `piv_worker` of `kirin/command/piv_worker.py`, the loop that
looks for a contributor and runs a worker for it, and the construction of the
`PivWorker`.  Every iteration leaves through the same `finally` block, which
expires the local `contributor`.  That name is bound by the first iteration that
obtains a contributor, and it stays bound.

An iteration comes with what is answered from outside: the query, the construction
of the builder, the broker and the run of the worker may all raise.

* `iterate`: one iteration, from what the name is bound to.
* `supervise`: the loop from the start of the process.
* `iterate_eq_ok_iff`: an iteration goes to the next one when the name is bound
  at its end.
* `loopSurvives_iff`: the loop survives when its first iteration obtains a
  contributor.
-/

namespace Kirin
namespace Piv

open Kirin.Core
open Kirin.Resources (Contributor isFilled)

/-- What happens during an iteration of the loop. -/
structure Iteration where
  getPivContributors : Except PyException (List Contributor)
  makeBuilder : Except PyException Unit
  enter : Except PyException Unit
  run : Except PyException Unit
  exit : Except PyException Unit

/-- The local `contributor` is read while nothing is bound to it. -/
inductive LoopError
  | unboundLocalError
deriving DecidableEq, Repr

/-- An iteration that reached its end. -/
structure Turn where
  contributor : Contributor
  /-- The contributor for which a worker is constructed. -/
  workerFor : Option Contributor
  sleeps : Nat
deriving DecidableEq, Repr

/-- What the construction of a worker asks of its contributor. -/
def initWorker (c : Contributor) : Except PyException Unit :=
  if c.connectorType ≠ .piv then .error .valueError
  else if !c.isActive then .error .valueError
  else if !isFilled c.brokerUrl then .error .valueError
  else if !isFilled c.exchangeName then .error .valueError
  else if !isFilled c.queueName then .error .valueError
  else .ok ()

/-- The `with` block, and whether to wait once it is left. -/
def withPivWorker (c : Contributor) (it : Iteration) :
    Except PyException Unit × Bool :=
  match initWorker c, it.makeBuilder, it.enter with
  | .ok _, .ok _, .ok _ =>
      -- the connection is released whether the run raised or not
      match it.exit with
      | .error e => (.error e, false)
      | .ok _ => (it.run, false)
  | .error e, _, _ => (.error e, true)
  | .ok _, .error e, _ => (.error e, true)
  | .ok _, .ok _, .error e => (.error e, true)

/-- The `finally` block: it expires the contributor that the name is bound to. -/
def finish (bound workerFor : Option Contributor) (shouldWait : Bool)
    (sleeps : Nat) : Except LoopError Turn :=
  match bound with
  | none => .error .unboundLocalError
  | some contributor =>
      .ok
        { contributor := contributor
          workerFor := workerFor
          sleeps := if shouldWait then sleeps + 1 else sleeps }

/-- One iteration of the loop, from what the name is bound to. -/
def iterate (bound : Option Contributor) (it : Iteration) :
    Except LoopError Turn :=
  match it.getPivContributors with
  | .error _ => finish bound none true 0
  | .ok [] => finish bound none true 1
  | .ok (contributor :: _) =>
      -- what the block raises is logged, and the loop goes on
      finish (some contributor) (some contributor)
        (withPivWorker contributor it).2 0

/-- What the name is bound to after some iterations. -/
def supervise (bound : Option Contributor) (its : List Iteration) :
    Except LoopError (Option Contributor) :=
  its.foldlM (fun bound it => (iterate bound it).map (fun t => some t.contributor))
    bound

/-- The first of the contributors that an iteration obtains, if any. -/
def Iteration.obtained (it : Iteration) : Option Contributor :=
  match it.getPivContributors with
  | .ok (contributor :: _) => some contributor
  | _ => none

/--
No iteration of the loop raises out of it, from the start of the process on, and
each one constructs a worker for the contributor that it obtains.
-/
def LoopSurvives (its : List Iteration) : Prop :=
  ∀ before it after, its = before ++ it :: after →
    ∃ bound turn,
      supervise none before = .ok bound ∧
      iterate bound it = .ok turn ∧
      turn.workerFor = it.obtained

/-- What an iteration binds the name to is what it obtains, if anything. -/
theorem iterate_eq
    (bound : Option Contributor) (it : Iteration) :
    ∃ shouldWait sleeps,
      iterate bound it =
        finish (it.obtained <|> bound) it.obtained shouldWait sleeps := by
  unfold iterate Iteration.obtained
  rcases it.getPivContributors with e | _ | ⟨contributor, others⟩
  · exact ⟨true, 0, rfl⟩
  · exact ⟨true, 1, rfl⟩
  · exact ⟨(withPivWorker contributor it).2, 0, rfl⟩

/-- An iteration goes to the next one when the name is bound at its end. -/
theorem iterate_eq_ok_iff
    {bound : Option Contributor} {it : Iteration} {c : Contributor} :
    (∃ turn, iterate bound it = .ok turn ∧ turn.contributor = c ∧
      turn.workerFor = it.obtained) ↔
      (it.obtained <|> bound) = some c := by
  obtain ⟨shouldWait, sleeps, h⟩ := iterate_eq bound it
  rw [h]
  cases it.obtained <|> bound with
  | none =>
      simp [finish]
  | some contributor =>
      simp [finish]

/-- Once the name is bound, the loop keeps it bound. -/
theorem exists_supervise_eq
    (c : Contributor) (its : List Iteration) :
    ∃ c', supervise (some c) its = .ok (some c') := by
  induction its generalizing c with
  | nil =>
      exact ⟨c, rfl⟩
  | cons it its ih =>
      have hbound : (it.obtained <|> some c) = some (it.obtained.getD c) := by
        cases it.obtained <;> rfl
      obtain ⟨turn, hturn, hc, -⟩ := iterate_eq_ok_iff.2 hbound
      obtain ⟨c', hc'⟩ := ih turn.contributor
      refine ⟨c', ?_⟩
      rw [← hc', supervise, List.foldlM_cons, hturn]
      rfl

/-- Once a first iteration has obtained a contributor, the name is bound. -/
theorem exists_supervise_cons_eq
    {first : Iteration} (its : List Iteration)
    (hfirst : first.obtained ≠ none) :
    ∃ c, supervise none (first :: its) = .ok (some c) := by
  obtain ⟨c, hc⟩ := Option.ne_none_iff_exists'.1 hfirst
  have hbound : (first.obtained <|> none) = some c := by
    rw [hc]
    rfl
  obtain ⟨turn, hturn, -, -⟩ := iterate_eq_ok_iff.2 hbound
  obtain ⟨c', hc'⟩ := exists_supervise_eq turn.contributor its
  refine ⟨c', ?_⟩
  rw [← hc', supervise, List.foldlM_cons, hturn]
  rfl

/--
The loop survives if and only if its first iteration obtains a contributor,
whatever happens afterwards.
-/
theorem loopSurvives_iff
    (its : List Iteration) :
    LoopSurvives its ↔ ∀ it ∈ its.head?, it.obtained ≠ none := by
  constructor
  · intro h it hit hnone
    obtain ⟨rest, rfl⟩ := List.head?_eq_some_iff.1 hit
    obtain ⟨bound, turn, hbound, hturn, hworker⟩ := h [] it rest rfl
    cases hbound
    have hfirst : (it.obtained <|> none) = some turn.contributor :=
      iterate_eq_ok_iff.1 ⟨turn, hturn, rfl, hworker⟩
    rw [hnone] at hfirst
    cases hfirst
  · intro h before it after heq
    have hnext : ∃ bound c, supervise none before = .ok bound ∧
        (it.obtained <|> bound) = some c := by
      cases before with
      | nil =>
          have hfirst := h it (by rw [heq]; rfl)
          obtain ⟨c, hc⟩ := Option.ne_none_iff_exists'.1 hfirst
          exact ⟨none, c, rfl, by rw [hc]; rfl⟩
      | cons first before =>
          have hfirst := h first (by rw [heq]; rfl)
          obtain ⟨c, hc⟩ := exists_supervise_cons_eq before hfirst
          refine ⟨some c, it.obtained.getD c, hc, ?_⟩
          cases it.obtained <;> rfl
    obtain ⟨bound, c, hbound, hc⟩ := hnext
    obtain ⟨turn, hturn, -, hworker⟩ := iterate_eq_ok_iff.2 hc
    exact ⟨bound, turn, hbound, hturn, hworker⟩

/-- An iteration of a process that starts before any contributor is created. -/
def noContributorYet : Iteration where
  getPivContributors := .ok []
  makeBuilder := .ok ()
  enter := .ok ()
  run := .ok ()
  exit := .ok ()

/-- The loop of a process that starts before any contributor is created dies. -/
theorem not_loopSurvives_noContributorYet :
    ¬LoopSurvives [noContributorYet] := by
  intro h
  obtain ⟨bound, turn, hbound, hturn, -⟩ := h [] noContributorYet [] rfl
  cases hbound
  cases hturn

end Piv
end Kirin
