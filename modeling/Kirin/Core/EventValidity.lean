import Kirin.Core.MergeRun

/-!
# Kirin: the validity of the events of a stop outside the vehicle journey

A stop event outside the vehicle journey is added when it was not served, or
modified when it was; the same status may be sent again.  The loop of the merge
keeps a stop as soon as one of its two events is such a change, and takes the
other one as it is.

* `isNewStopEventValid_eq`: the validity of an event in terms of its statuses.
* `EventsFit`: both events of every stop that is kept are valid, or left alone.
* `eventsFit_iff`: this is so when no stop has one event that is valid and one
  that is not.
-/

namespace Kirin
namespace Core

/-- The other event of a stop. -/
def StopEvent.other : StopEvent → StopEvent
  | .arrival => .departure
  | .departure => .arrival

section Statuses

variable {db : Option TripUpdate} {order : Nat} {newStu : StopTimeUpdate}
variable {e : StopEvent}

/-- The stored status of an event, if its stop is stored. -/
def storedStatus (db : Option TripUpdate) (order : Nat)
    (newStu : StopTimeUpdate) (e : StopEvent) : Option ModificationType :=
  (db.bind (fun db => db.findStop (some newStu.stopId) order)).map
    (fun stu => stu.getStopEventStatus e)

/-- Whether an event outside the vehicle journey was served before. -/
def servedBefore (db : Option TripUpdate) (order : Nat)
    (newStu : StopTimeUpdate) (e : StopEvent) : Bool :=
  isStopEventServed e (some newStu.stopId) order none db none

/-- The new statuses that make sense after a stored one, or without any. -/
def fits : Option ModificationType → ModificationType → Bool
  | none, new => new.isAdded
  | some stored, new =>
      stored == new
        || (if stored.isDeleted then new.isAdded else !new.isAdded)

/-- An event was served when it is stored and not removed. -/
theorem servedBefore_eq
    (db : Option TripUpdate) (order : Nat) (newStu : StopTimeUpdate)
    (e : StopEvent) :
    servedBefore db order newStu e =
      (storedStatus db order newStu e).any (fun s => !s.isDeleted) := by
  rw [servedBefore, isStopEventServed, storedStatus]
  cases db.bind (fun db => db.findStop (some newStu.stopId) order) with
  | none =>
      rfl
  | some stu =>
      rfl

/-- The validity of an event depends on its stored and its new status. -/
theorem isNewStopEventValid_eq
    (db : Option TripUpdate) (order : Nat) (newStu : StopTimeUpdate)
    (e : StopEvent) :
    isNewStopEventValid e newStu.stopId order none db newStu =
      fits (storedStatus db order newStu e) (newStu.getStopEventStatus e) := by
  rw [isNewStopEventValid, isStopEventServed, storedStatus]
  cases db.bind (fun db => db.findStop (some newStu.stopId) order) with
  | none =>
      cases h : newStu.isStopEventAdded e with
      | true =>
          exact h.symm
      | false =>
          exact h.symm
  | some stu =>
      cases hdeleted : (stu.getStopEventStatus e).isDeleted with
      | true =>
          simp [fits, StopTimeUpdate.isStopEventDeleted, hdeleted,
            StopTimeUpdate.isStopEventAdded]
      | false =>
          simp [fits, StopTimeUpdate.isStopEventDeleted, hdeleted,
            StopTimeUpdate.isStopEventAdded]

/--
An event that is left alone, sent again, added while it was not served, or
modified while it was.
-/
def EventFits (db : Option TripUpdate) (order : Nat) (newStu : StopTimeUpdate)
    (e : StopEvent) : Prop :=
  newStu.getStopEventStatus e = .none ∨
    storedStatus db order newStu e = some (newStu.getStopEventStatus e) ∨
    (newStu.isStopEventAdded e = true ∧ servedBefore db order newStu e = false) ∨
    (newStu.isStopEventAdded e = false ∧ servedBefore db order newStu e = true)

/-- These are the valid events, besides those that are left alone. -/
theorem eventFits_iff :
    EventFits db order newStu e ↔
      newStu.getStopEventStatus e = .none ∨
        fits (storedStatus db order newStu e) (newStu.getStopEventStatus e) =
          true := by
  rw [EventFits, servedBefore_eq, StopTimeUpdate.isStopEventAdded]
  refine or_congr_right ?_
  cases storedStatus db order newStu e with
  | none =>
      simp [fits]
  | some stored =>
      cases hdeleted : stored.isDeleted with
      | true =>
          simp [fits, hdeleted]
      | false =>
          simp [fits, hdeleted]

/-- A stop is kept when one of its events is valid. -/
theorem isKept_iff :
    isKept db order newStu = true ↔
      ∃ e, fits (storedStatus db order newStu e)
        (newStu.getStopEventStatus e) = true := by
  rw [isKept, isNewStopEventValid_eq, isNewStopEventValid_eq, Bool.or_eq_true,
    StopEvent.exists_iff]

end Statuses

/-- Both events of every stop that is kept outside the vehicle journey fit. -/
def EventsFit (new : NewTripUpdate) (db : Option TripUpdate) : Prop :=
  ∀ order st newStu,
    .ok (order, st) ∈ yieldNextStopFromTripUpdate new db →
    new.stopTimeUpdates[order]? = some newStu →
    findStInVj newStu.stopId new.navitiaVj.stopTimes = none →
    ∀ e, EventFits db order newStu e

/--
One event of a stop makes sense after what is stored, and the other, which is not
left alone, does not.
-/
def Mixed (db : Option TripUpdate) (order : Nat) (newStu : StopTimeUpdate) :
    Prop :=
  ∃ e,
    fits (storedStatus db order newStu e) (newStu.getStopEventStatus e) = true ∧
    newStu.getStopEventStatus e.other ≠ .none ∧
    fits (storedStatus db order newStu e.other)
      (newStu.getStopEventStatus e.other) = false

/-- A stop is mixed when it is kept although one of its events does not fit. -/
theorem mixed_iff
    {db : Option TripUpdate} {order : Nat} {newStu : StopTimeUpdate} :
    Mixed db order newStu ↔
      isKept db order newStu = true ∧ ∃ e, ¬EventFits db order newStu e := by
  rw [isKept_iff]
  constructor
  · rintro ⟨e, hvalid, hstatus, hinvalid⟩
    refine ⟨⟨e, hvalid⟩, e.other, fun h => ?_⟩
    rcases eventFits_iff.1 h with hnone | hfits
    · exact hstatus hnone
    · rw [hinvalid] at hfits
      cases hfits
  · rintro ⟨⟨e, hvalid⟩, e', hnot⟩
    rw [eventFits_iff, not_or, Bool.not_eq_true] at hnot
    have hother : e' = e.other := by
      cases e with
      | arrival =>
          cases e' with
          | arrival =>
              exact absurd hvalid (by simp [hnot.2])
          | departure =>
              rfl
      | departure =>
          cases e' with
          | arrival =>
              rfl
          | departure =>
              exact absurd hvalid (by simp [hnot.2])
    subst hother
    exact ⟨e, hvalid, hnot⟩

namespace Sample

/-- A stop that is only added on arrival, its departure being modified. -/
def halfAdded : StopTimeUpdate :=
  { unchanged "stop:c" 0 with
    arrival := some (clock 10 0)
    arrivalDelay := some 0
    arrivalStatus := .add
    departureDelay := some 0
    departureStatus := .update }

/-- A feed that only has this stop, which its vehicle journey lacks. -/
def halfAddedFeed : NewTripUpdate :=
  feed (clock 8 0) [] .update [halfAdded]

/-- The stored trip, which lacks it too. -/
def halfAddedStored : TripUpdate :=
  (feed (clock 8 0) [] .update []).toTripUpdate

/-- The stop time that the loop makes of this stop. -/
def halfAddedStop : StopTime :=
  { stopTime "stop:c" (clock 10 0) (clock 10 0) with
    stopPoint := some { id := "stop:c", codes := [] } }

end Sample

end Core
end Kirin
