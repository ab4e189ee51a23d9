import Kirin.Core.BuildWrapper
import Kirin.Core.Circulation
import Mathlib.Data.List.Sort

/-!
# Kirin: the GTFS-RT builder

This module follows `kirin/gtfs_rt/model_maker.py`.  A GTFS-RT feed is a list of
entities, each one about the vehicle journey of a source code.

* `getNavitiaVjs` looks for the only vehicle journey of a code around the time
  of the feed.
* `makeTripUpdate` walks the stops of the vehicle journey and those of the feed
  backwards together.  The entity is accepted when its stops are the last stops
  of the vehicle journey, in order; the stops it leaves out get no delay.
* `buildTripUpdates` puts them together.

The answers of navitia are parameters, and the cache of them is left out.
-/

namespace Kirin
namespace GtfsRt

open Kirin.Core

/-- A stop of the feed, the delays being in seconds and zero when absent. -/
structure InputStopTime where
  stopId : String
  arrivalDelay : Int
  departureDelay : Int
deriving DecidableEq, Repr

/-- Type of the code that identifies a stop point in the feed. -/
def stopCodeKey : String :=
  "source"

def getStopCode (navStop : StopPoint) : Option String :=
  (navStop.codes.find? (fun c => c.type == stopCodeKey)).map Code.value

/-- A delay of the feed, none when it is zero. -/
def readDelay (delay : Int) : Option Timedelta :=
  if delay = 0 then none else some (delay * second)

/-- An event with a delay is updated, the others are left as they are. -/
def delayStatus (delay : Option Timedelta) : ModificationType :=
  if delay.isNone then .none else .update

def makeStoptimeUpdate
    (inputStUpdate : InputStopTime) (navStop : StopPoint) (order : Nat) :
    StopTimeUpdate where
  stopId := navStop.id
  order := order
  message := none
  departure := none
  departureDelay := readDelay inputStUpdate.departureDelay
  departureStatus := delayStatus (readDelay inputStUpdate.departureDelay)
  arrival := none
  arrivalDelay := readDelay inputStUpdate.arrivalDelay
  arrivalStatus := delayStatus (readDelay inputStUpdate.arrivalDelay)

def initStopUpdate (navStop : StopPoint) (stopSequence : Nat) :
    StopTimeUpdate where
  stopId := navStop.id
  order := stopSequence
  message := none
  departure := none
  departureDelay := none
  departureStatus := .none
  arrival := none
  arrivalDelay := none
  arrivalStatus := .none

/--
The backward walk over both lists, given reversed.  The result is the list of
stop time updates in the order in which they are appended, or nothing when the
stops of the feed do not match.
-/
def walkBack :
    List StopTime → List InputStopTime → Option (List StopTimeUpdate)
  | [], [] => some []
  | [], _ :: _ => none
  | vjStop :: vjStops, [] => do
      let vjStopPoint ← vjStop.stopPoint
      let stUpdates ← walkBack vjStops []
      return initStopUpdate vjStopPoint vjStops.length :: stUpdates
  | vjStop :: vjStops, tuStop :: tuStops => do
      let vjStopPoint ← vjStop.stopPoint
      if getStopCode vjStopPoint = some tuStop.stopId then
        let stUpdates ← walkBack vjStops tuStops
        return makeStoptimeUpdate tuStop vjStopPoint vjStops.length :: stUpdates
      else none

/-- The highest status among the events of a list of stops. -/
def highestStStatus (stus : List StopTimeUpdate) : ModificationType :=
  stus.foldl
    (fun highest stu =>
      getHigherStatus (getHigherStatus highest stu.departureStatus)
        stu.arrivalStatus)
    .none

/-- The trip update made for one vehicle journey, when the feed is accepted. -/
def makeTripUpdate
    (contributorId : String) (vj : VehicleJourney) (navitiaVj : NavitiaVj)
    (stopTimeUpdate : List InputStopTime) : Option NewTripUpdate :=
  match walkBack navitiaVj.stopTimes.reverse stopTimeUpdate.reverse with
  | none => none
  | some stUpdates =>
      some
        { vj := vj
          status := .none
          message := none
          companyId := none
          effect := some (getEffectByStopTimeStatus (highestStStatus stUpdates))
          physicalModeId := none
          headsign := none
          contributorId := contributorId
          stopTimeUpdates :=
            stUpdates.insertionSort (fun x y => x.order ≤ y.order)
          navitiaVj := navitiaVj }

/-- The part of an entity that the builder reads. -/
structure InputTripUpdate where
  tripId : String
  stopTimeUpdate : List InputStopTime
deriving DecidableEq, Repr

/-- The bytes of a feed: not a protobuf, or a message. -/
inductive RawData
  | notProtobuf
  | message (timestamp : Nat) (entity : List InputTripUpdate)
deriving DecidableEq, Repr

/-- The answers of navitia. -/
structure Services where
  vehicleJourneys :
    String → Datetime → Datetime → Except PyException (List NavVj)

/-- A vehicle journey on its day, with the one of navitia it comes from. -/
structure FoundVj where
  navVj : NavVj
  vj : VehicleJourney
deriving DecidableEq, Repr

def periodFilterTolerance : Timedelta :=
  3 * (3600 * second)

/-- The only vehicle journey of a code, on the day that a period tells. -/
def makeDbVj
    (services : Services) (newId : String → String) (vjSourceCode : String)
    (sinceDt untilDt : Datetime) : Except PyException (List FoundVj) := do
  match ← services.vehicleJourneys vjSourceCode sinceDt untilDt with
  | [navVj] =>
      match VehicleJourney.init (newId navVj.id) navVj sinceDt untilDt none with
      | .ok vj => return [{ navVj := navVj, vj := vj }]
      | .error _ => return []
  | _ => return []

def getNavitiaVjs
    (services : Services) (newId : String → String) (tripId : String)
    (inputDataTime : Datetime) : Except PyException (List FoundVj) :=
  makeDbVj services newId tripId
    (floorDatetime (inputDataTime - periodFilterTolerance))
    (floorDatetime (inputDataTime + periodFilterTolerance + 3600 * second))

/-- The trip updates of one entity. -/
def makeTripUpdates
    (services : Services) (contributorId : String) (newId : String → String)
    (inputDataTime : Datetime) (inputTripUpdate : InputTripUpdate) :
    Except PyException (List NewTripUpdate) := do
  let vjs ← getNavitiaVjs services newId inputTripUpdate.tripId inputDataTime
  return vjs.filterMap (fun found =>
    makeTripUpdate contributorId found.vj found.navVj.toNavitiaVj
      inputTripUpdate.stopTimeUpdate)

/-- A number of seconds as a datetime, whose year is at most 9999. -/
def utcfromtimestamp (timestamp : Nat) : Except PyException Datetime :=
  if timestamp ≤ 253402300799 then .ok (timestamp * second)
  else .error .valueError

/-- The trip updates of a feed, and its error when there is none. -/
def buildTripUpdates
    (services : Services) (contributorId : String) (newId : String → String)
    (raw : RawData) : Except PyException BuiltFeed :=
  match raw with
  | .notProtobuf => .error (.invalidArguments "invalid protobuf")
  | .message timestamp entity => do
      let inputDataTime ← utcfromtimestamp timestamp
      let tus ←
        entity.mapM (makeTripUpdates services contributorId newId inputDataTime)
      return {
        error :=
          if tus.flatten.isEmpty then
            some (.text ("No information for this gtfs-rt with timestamp: " ++
              toString timestamp))
          else none
        tripUpdates := tus.flatten }

end GtfsRt
end Kirin
