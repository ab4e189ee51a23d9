import Kirin.Core.Model
import Kirin.Library.Checked

/-!
# Kirin: the feed destined to navitia

This module follows `kirin/core/populate_pb.py`: the translation of stored trip
updates into the entities of a GTFS-RT feed.  Assigning an effect that the
protobuf enumeration does not have, or a delay that does not fit its 32-bit
field, raises, and so does writing a start date from before 1900; every other
field is total.

A start date stands for its textual form, and a header timestamp is left out,
since nothing below depends on either text or clock.
-/

namespace Kirin
namespace Core

/-- Relation of a stop event to the schedule, in the older extension. -/
inductive StopTimeEventRelationship
  | scheduled
  | skipped
  | added
deriving DecidableEq, Repr

/-- Status of a stop event, in the newer extension. -/
inductive StopTimeEventStatus
  | scheduled
  | deleted
  | added
  | deletedForDetour
  | addedForDetour
deriving DecidableEq, Repr

/-- Relation of the whole trip to the schedule. -/
inductive ScheduleRelationship
  | scheduled
  | added
  | canceled
deriving DecidableEq, Repr

/-- Effect of an alert, as the protobuf enumerates them. -/
inductive AlertEffect
  | noService
  | reducedService
  | significantDelays
  | detour
  | additionalService
  | modifiedService
  | otherEffect
  | unknownEffect
  | stopMoved
deriving DecidableEq, Repr

/-- The first date that `strftime` takes, on 1 January 1900. -/
def firstStrftimeDate : Date := -25567

def dateToStr (date : Date) : Except PyException Date :=
  if firstStrftimeDate ≤ date then .ok date else .error .valueError

def getStEvent : ModificationType → StopTimeEventRelationship
  | .delete | .deletedForDetour => .skipped
  | .add | .addedForDetour => .added
  | .update | .none => .scheduled

def stopTimeStatusToProtobuf : ModificationType → StopTimeEventStatus
  | .add => .added
  | .delete => .deleted
  | .update => .scheduled
  | .none => .scheduled
  | .deletedForDetour => .deletedForDetour
  | .addedForDetour => .addedForDetour

def getTripEvent : TripEffect → Option AlertEffect
  | .noService => some .noService
  | .reducedService => some .reducedService
  | .significantDelays => some .significantDelays
  | .detour => some .detour
  | .additionalService => some .additionalService
  | .modifiedService => some .modifiedService
  | .otherEffect => some .otherEffect
  | .unknownEffect => some .unknownEffect
  | .stopMoved => some .stopMoved
  | .undefined => none

/-- Seconds from the epoch, zero when there is no datetime. -/
def toPosixTime (dateTime : Option Datetime) : Int :=
  match dateTime with
  | some t => Int.tdiv t second
  | none => 0

/-- Assign a delay to its 32-bit field. -/
def pbDelay (delay : Option Timedelta) : Except PyException Int :=
  let seconds := Int.tdiv (delay.getD 0) second
  if -2147483648 ≤ seconds ∧ seconds < 2147483648 then .ok seconds
  else .error .valueError

/-- A text that is neither missing nor empty. -/
def truthyText (text : Option String) : Option String :=
  text.filter (fun s => s != "")

structure PbStopTimeEvent where
  time : Int
  delay : Int
  relationship : StopTimeEventRelationship
  status : StopTimeEventStatus
deriving DecidableEq, Repr

structure PbStopTimeUpdate where
  stopId : String
  arrival : PbStopTimeEvent
  departure : PbStopTimeEvent
  stoptimeMessage : Option String
deriving DecidableEq, Repr

structure PbTripUpdate where
  contributor : Option String
  tripMessage : Option String
  companyId : Option String
  effect : Option AlertEffect
  physicalModeId : Option String
  headsign : Option String
  tripId : String
  startDate : Date
  scheduleRelationship : ScheduleRelationship
  stopTimeUpdate : List PbStopTimeUpdate
deriving DecidableEq, Repr

/-- An entity of the feed, identified by the stored vehicle journey. -/
structure Entity where
  id : String
  tripUpdate : PbTripUpdate
deriving DecidableEq, Repr

def fillStopTimes (stopTime : StopTimeUpdate) :
    Except PyException PbStopTimeUpdate := do
  let arrivalDelay ← pbDelay stopTime.arrivalDelay
  let departureDelay ← pbDelay stopTime.departureDelay
  return {
    stopId := stopTime.stopId
    arrival :=
      { time := toPosixTime stopTime.arrival
        delay := arrivalDelay
        relationship := getStEvent stopTime.arrivalStatus
        status := stopTimeStatusToProtobuf stopTime.arrivalStatus }
    departure :=
      { time := toPosixTime stopTime.departure
        delay := departureDelay
        relationship := getStEvent stopTime.departureStatus
        status := stopTimeStatusToProtobuf stopTime.departureStatus }
    stoptimeMessage := truthyText stopTime.message }

/-- Assign the effect of a trip to the enumeration of the protobuf. -/
def pbEffect (effect : Option TripEffect) :
    Except PyException (Option AlertEffect) :=
  match effect with
  | none => .ok none
  | some e =>
      match getTripEvent e with
      | some a => .ok (some a)
      | none => .error .typeError

def fillTripUpdate (tripUpdate : TripUpdate) :
    Except PyException PbTripUpdate := do
  let effect ← pbEffect tripUpdate.effect
  let startDate ← dateToStr tripUpdate.vj.getCirculationDate
  let stopTimeUpdate ← tripUpdate.stopTimeUpdates.mapM fillStopTimes
  return {
    contributor := truthyText (some tripUpdate.contributorId)
    tripMessage := truthyText tripUpdate.message
    companyId := truthyText tripUpdate.companyId
    effect := effect
    physicalModeId := truthyText tripUpdate.physicalModeId
    headsign := truthyText tripUpdate.headsign
    tripId := tripUpdate.vj.navitiaTripId
    startDate := startDate
    scheduleRelationship :=
      match tripUpdate.status with
      | .delete => .canceled
      | .add => .added
      | _ => .scheduled
    stopTimeUpdate := stopTimeUpdate }

def fillEntity (tripUpdate : TripUpdate) : Except PyException Entity := do
  let pb ← fillTripUpdate tripUpdate
  return { id := tripUpdate.vj.id, tripUpdate := pb }

/-- The entities of the feed made of the given trip updates. -/
def convertToGtfsrt (tripUpdates : List TripUpdate) :
    Except PyException (List Entity) :=
  tripUpdates.mapM fillEntity

/-- An entity is identified by the vehicle journey it comes from. -/
theorem fillEntity_id
    {tu : TripUpdate} {e : Entity} (h : fillEntity tu = .ok e) :
    e.id = tu.vj.id := by
  obtain ⟨pb, -, he⟩ := Checked.bind_eq_ok.1 h
  rw [Checked.pure_eq_ok] at he
  rw [← he]

end Core
end Kirin
