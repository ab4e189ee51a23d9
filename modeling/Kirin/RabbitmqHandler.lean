import Kirin.Core.BuildWrapper

/-!
# Kirin: the broker

This module follows `kirin/rabbitmq_handler.py`: the publication of a feed, which
is tried up to three times, and the answer to a navitia that asks for a full
reload.

What a request holds is read by the protobuf library, and what a date holds by
the date library.  A message field of a protobuf is always there and always true.

* `publish`: the copies of a feed that reach the exchange, and what is raised.
* `strToDate`: a date that cannot be read is as good as none.
* `onRequest`: what becomes of a request.
* `publish_returns`: a publication that returns has sent the feed.
-/

namespace Kirin

open Kirin.Core

/-- What is raised when the broker cannot be reached, or for another reason. -/
inductive SendError
  | socketError
  | other
deriving DecidableEq, Repr

/-- One try to send a feed, which may reach the exchange and raise all the same. -/
inductive Attempt
  | returned
  | raised (delivered : Bool) (e : SendError)
deriving DecidableEq, Repr

namespace Attempt

/-- The copies of the feed that reach the exchange. -/
def copies : Attempt → Nat
  | returned => 1
  | raised delivered _ => if delivered then 1 else 0

def error : Attempt → Option SendError
  | returned => none
  | raised _ e => some e

end Attempt

/-- The copies of a feed that are sent, and what is raised in the end. -/
structure Sending where
  copies : Nat
  error : Option SendError
deriving DecidableEq, Repr

def stopMaxAttemptNumber : Nat := 3

/-- The tries from a given one on, with the number of those left after it. -/
def publishFrom (attempts : Nat → Attempt) : Nat → Nat → Sending
  | i, 0 => { copies := (attempts i).copies, error := (attempts i).error }
  | i, left + 1 =>
      match (attempts i).error with
      | none => { copies := (attempts i).copies, error := none }
      | some _ =>
          let next := publishFrom attempts (i + 1) left
          { copies := (attempts i).copies + next.copies, error := next.error }

/-- Send a feed to the exchange, with the tries that it takes. -/
def publish (attempts : Nat → Attempt) : Sending :=
  publishFrom attempts 0 (stopMaxAttemptNumber - 1)

/-- A date of a request: its text, and the date that is read in it, if any. -/
structure DayText where
  text : String
  parsed : Option Date
deriving DecidableEq, Repr

def strToDate (value : DayText) : Option Date :=
  if value.text = "" then none else value.parsed

inductive Action
  | loadRealtime
  | other
deriving DecidableEq, Repr

/-- What a navitia asks to load, and the queue on which it waits for it. -/
structure LoadRealtime where
  contributors : List String
  beginDate : DayText
  endDate : DayText
  queueName : String
deriving DecidableEq, Repr

structure Task where
  action : Action
  loadRealtime : LoadRealtime
deriving DecidableEq, Repr

/-- What becomes of a request. -/
inductive RequestResult
  | ignored
  | replied (queueName : String) (entities : List Entity)
  /-- The stored rows cannot be converted. -/
  | notConverted (e : PyException)
  /-- The broker does not take the answer, even after some retries. -/
  | notSent
deriving DecidableEq, Repr

/-- A request is acknowledged unless something is raised. -/
def RequestResult.acked : RequestResult → Bool
  | ignored => true
  | replied _ _ => true
  | notConverted _ => false
  | notSent => false

/--
Answer a request with the rows that it asks for; the payload is none when it is
not a protobuf.
-/
def onRequest (rows : List TripUpdate) (payload : Option Task)
    (brokerUp : Bool) : RequestResult :=
  match payload with
  | none => .ignored
  | some task =>
      match task.action with
      | .other => .ignored
      | .loadRealtime =>
          match convertToGtfsrt
              (TripUpdate.findByContributorPeriod rows
                task.loadRealtime.contributors
                (strToDate task.loadRealtime.beginDate)
                (strToDate task.loadRealtime.endDate)) with
          | .error e => .notConverted e
          | .ok entities =>
              if brokerUp then .replied task.loadRealtime.queueName entities
              else .notSent

/-- A publication that returns has sent the feed, and none is tried forever. -/
theorem publish_returns
    (attempts : Nat → Attempt) :
    ((publish attempts).error = none → 1 ≤ (publish attempts).copies) ∧
      (publish attempts).copies ≤ stopMaxAttemptNumber := by
  have hone : ∀ i, ((attempts i).error = none → (attempts i).copies = 1) ∧
      (attempts i).copies ≤ 1 := by
    intro i
    cases attempts i with
    | returned =>
        exact ⟨fun _ => rfl, Nat.le_refl 1⟩
    | raised delivered e =>
        cases delivered <;> simp [Attempt.error, Attempt.copies]
  have hfrom : ∀ left i,
      ((publishFrom attempts i left).error = none →
        1 ≤ (publishFrom attempts i left).copies) ∧
        (publishFrom attempts i left).copies ≤ left + 1 := by
    intro left
    induction left with
    | zero =>
        intro i
        exact ⟨fun h => (((hone i).1 h).symm ▸ Nat.le_refl 1), (hone i).2⟩
    | succ left ih =>
        intro i
        have hcopies := (hone i).2
        have hnext := ih (i + 1)
        simp only [publishFrom]
        cases herror : (attempts i).error with
        | none =>
            have hsent := (hone i).1 herror
            exact ⟨fun _ => by simp only; omega, by simp only; omega⟩
        | some e =>
            refine ⟨fun h => ?_, by simp only; omega⟩
            have hleft := hnext.1 h
            simp only
            omega
  exact hfrom (stopMaxAttemptNumber - 1) 0

end Kirin
