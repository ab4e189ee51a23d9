import Kirin.Core.Model

/-!
# Kirin: merging base schedule, stored realtime and new realtime

This module follows `kirin/core/merge_utils.py`.  Three sources meet here: the
navitia vehicle journey, the trip update already stored (if any) and the new
trip update built from a feed.

* `yieldNextStopFromTripUpdate` and `yieldNextStopFromBaseScheduleVj` list the
  stops to go through.  The source uses generators, so an exception of one
  element is raised only when the loop reaches it: the list holds one
  computation for each element.
* `mergeStop` is the body of the loop.  The dates are rebuilt by `Calendar`,
  which remembers the last served event and the current date.
* `merge` returns the content of its result object together with what the call
  does: return that object, return `None`, or raise.  The object keeps its
  modifications in all three cases, because the stored trip update is modified
  in place.
-/

namespace Kirin
namespace Core

def findStInVj (stId : String) (vjSts : List StopTime) : Option StopTime :=
  vjSts.find? (fun vjSt => vjSt.stopId == some stId)

/-- The field `utc_arrival_time` or `utc_departure_time`. -/
def StopTime.utcTime (s : StopTime) : StopEvent → Option TimeOfDay
  | .arrival => s.utcArrivalTime
  | .departure => s.utcDepartureTime

/--
Whether a stop event is currently served.  The new information prevails, then
the stored one, then the base schedule.
-/
def isStopEventServed
    (event : StopEvent) (stopId : Option String) (stopOrder : Nat)
    (navStop : Option StopTime) (dbTu : Option TripUpdate)
    (newStu : Option StopTimeUpdate) : Bool :=
  match newStu with
  | some newStu => !newStu.isStopEventDeleted event
  | none =>
      match dbTu.bind (fun db => db.findStop stopId stopOrder) with
      | some dbStu => !dbStu.isStopEventDeleted event
      | none =>
          match navStop with
          | none => false
          | some navStop => (navStop.utcTime event).isSome

/--
Whether a new stop event makes sense: the same status again, the addition of an
event that was not served, or the modification of one that was.
-/
def isNewStopEventValid
    (event : StopEvent) (stopId : String) (stopOrder : Nat)
    (navStop : Option StopTime) (dbTu : Option TripUpdate)
    (newStu : StopTimeUpdate) : Bool :=
  let sameStatus :=
    match dbTu.bind (fun db => db.findStop (some stopId) stopOrder) with
    | some dbStu =>
        dbStu.getStopEventStatus event == newStu.getStopEventStatus event
    | none => false
  let isAddedNew := newStu.isStopEventAdded event
  let isServedOld :=
    isStopEventServed event (some stopId) stopOrder navStop dbTu none
  sameStatus || isAddedNew != isServedOld

/-- `time += delay`, where the delay counts only when it is truthy. -/
def addTruthyDelay
    (time : Option Datetime) (delay : Option Timedelta) :
    Except PyException (Option Datetime) :=
  match delay with
  | none => .ok time
  | some d =>
      if d = 0 then .ok time
      else
        match time with
        | some t => .ok (some (t + d))
        | none => .error .typeError

/-- `time.time()` on a datetime that may be missing. -/
def timeOf (time : Option Datetime) : Except PyException TimeOfDay :=
  match time with
  | some t => .ok (Datetime.time t)
  | none => .error .attributeError

/--
The departure and arrival from which a fake stop time is made: those of the
stored stop when the feed gives no datetime, else those of the feed.
-/
def fakeDatetimes
    (stu : Option StopTimeUpdate) (newStu : StopTimeUpdate) :
    Except PyException (Option Datetime × Option Datetime) :=
  let ofFeed := do
    let departure ←
      addTruthyDelay (newStu.departure <|> newStu.arrival) newStu.departureDelay
    let arrival ←
      addTruthyDelay (newStu.arrival <|> newStu.departure) newStu.arrivalDelay
    return (departure, arrival)
  match stu with
  | some stu =>
      if newStu.departure.isNone && newStu.arrival.isNone then
        .ok (stu.departure, stu.arrival)
      else ofFeed
  | none => ofFeed

/-- A base stop time for a stop that the base schedule does not have. -/
def makeFakeRealtimeStopTime
    (order : Nat) (spId : String) (newStu : StopTimeUpdate)
    (dbTripUpdate : Option TripUpdate) :
    Except PyException StopTime := do
  let stu := dbTripUpdate.bind (fun db => db.findStop (some spId) order)
  let (departure, arrival) ← fakeDatetimes stu newStu
  let utcDepartureTime ← timeOf departure
  let utcArrivalTime ← timeOf arrival
  return {
    stopPoint := some { id := newStu.stopId, codes := [] }
    utcArrivalTime := some utcArrivalTime
    utcDepartureTime := some utcDepartureTime }

/-- New time, status and delay of one stop event. -/
structure UpdateInfo where
  time : Option Datetime
  status : ModificationType
  delay : Option Timedelta
deriving DecidableEq, Repr

/-- What is recorded for a stop event, before the events are put in order. -/
def getUpdateInfoOfStopEvent
    (baseTime inputTime : Option Datetime)
    (inputStatus : ModificationType) (inputDelay : Option Timedelta) :
    UpdateInfo :=
  match inputStatus with
  | .update =>
      { time := baseTime.map (fun t => t + inputDelay.getD 0)
        status := inputStatus
        delay := inputDelay }
  | .delete | .deletedForDetour =>
      { time := none, status := inputStatus, delay := some 0 }
  | .add | .addedForDetour =>
      { time := inputTime.map (fun t => t + inputDelay.getD 0)
        status := inputStatus
        delay := some 0 }
  | .none =>
      { time := baseTime, status := .none, delay := some 0 }

/--
Push a stop event to `floor` when it comes before: the delay grows by the same
amount, which raises when there is no delay to add to.
-/
def pushToFloor
    (floor : Option Datetime) (time : Option Datetime)
    (delay : Option Timedelta) :
    Except PyException (Option Datetime × Option Timedelta) :=
  match floor, time with
  | some f, some t =>
      if t < f then
        match delay with
        | some d => .ok (some f, some (d + (f - t)))
        | none => .error .typeError
      else .ok (some t, delay)
  | _, _ => .ok (time, delay)

def makeStopTimeUpdate
    (baseArrival baseDeparture lastDeparture : Option Datetime)
    (inputSt : StopTimeUpdate) (stopPoint : StopPoint) (order : Nat) :
    Except PyException StopTimeUpdate := do
  let dep :=
    getUpdateInfoOfStopEvent baseDeparture inputSt.departure
      inputSt.departureStatus inputSt.departureDelay
  let arr :=
    getUpdateInfoOfStopEvent baseArrival inputSt.arrival
      inputSt.arrivalStatus inputSt.arrivalDelay
  let arrTime := arr.time <|> dep.time <|> lastDeparture
  let depTime := dep.time <|> arrTime
  -- the arrival follows the previous departure, the departure the arrival
  let (arrTime, arrDelay) ← pushToFloor lastDeparture arrTime arr.delay
  let (depTime, depDelay) ← pushToFloor arrTime depTime dep.delay
  return {
    stopId := stopPoint.id
    order := order
    message := inputSt.message
    departure := depTime
    departureDelay := depDelay
    departureStatus := dep.status
    arrival := arrTime
    arrivalDelay := arrDelay
    arrivalStatus := arr.status }

/-- A stop time update of the base schedule. -/
def baseStopTimeUpdate
    (stopPoint : StopPoint) (departure arrival : Option Datetime)
    (order : Nat) : StopTimeUpdate where
  stopId := stopPoint.id
  order := order
  message := none
  departure := departure
  departureDelay := none
  departureStatus := .none
  arrival := arrival
  arrivalDelay := none
  arrivalStatus := .none

/--
The stops of a complete feed.  Those of the base schedule are taken from there,
the others are kept when one of their two events is valid.
-/
def yieldNextStopFrom
    (dbTripUpdate : Option TripUpdate) (vjSts : List StopTime) :
    Nat → List StopTimeUpdate →
    List (Except PyException (Nat × StopTime))
  | _, [] => []
  | order, newStu :: rest =>
      let next := yieldNextStopFrom dbTripUpdate vjSts (order + 1) rest
      match findStInVj newStu.stopId vjSts with
      | some vjSt => .ok (order, vjSt) :: next
      | none =>
          if isNewStopEventValid .arrival newStu.stopId order none
                dbTripUpdate newStu
              || isNewStopEventValid .departure newStu.stopId order none
                dbTripUpdate newStu then
            (do
              let fake ←
                makeFakeRealtimeStopTime order newStu.stopId newStu dbTripUpdate
              return (order, fake)) :: next
          else next

def yieldNextStopFromTripUpdate
    (newTripUpdate : NewTripUpdate) (dbTripUpdate : Option TripUpdate) :
    List (Except PyException (Nat × StopTime)) :=
  yieldNextStopFrom dbTripUpdate newTripUpdate.navitiaVj.stopTimes 0
    newTripUpdate.stopTimeUpdates

/-- The stops of the base schedule, for a feed that need not list them all. -/
def yieldNextStopFromBaseScheduleVj
    (navitiaVj : NavitiaVj) : List (Except PyException (Nat × StopTime)) :=
  navitiaVj.stopTimes.mapIdx (fun order vjSt => .ok (order, vjSt))

/-- A stop event reduced to its time and its delay. -/
structure TimeDelayTuple (τ : Type) where
  time : Option τ
  delay : Timedelta
deriving DecidableEq, Repr

/--
Midnight lies between two consecutive events when the time of day falls, both
before and after their delays.
-/
def isPastMidnight (prev next : TimeDelayTuple TimeOfDay) : Bool :=
  match prev.time, next.time with
  | some p, some n =>
      decide (n.micros < p.micros)
        && decide (n.micros + next.delay < p.micros + prev.delay)
  | _, _ => false

/-- The last served event and the date reached so far. -/
structure Calendar where
  previousStopEvent : TimeDelayTuple TimeOfDay
  circulationDate : Date
deriving DecidableEq, Repr

/--
Base datetime of one stop event; arrival and departure follow the same logic.
An event that is not served leaves the calendar as it is.
-/
def Calendar.stopEvent
    (c : Calendar) (served : Bool)
    (navTime : Option TimeOfDay) (delay : Timedelta) :
    Option Datetime × Calendar :=
  if served then
    let event : TimeDelayTuple TimeOfDay := { time := navTime, delay := delay }
    match navTime with
    | some t =>
        let date :=
          if isPastMidnight c.previousStopEvent event then
            c.circulationDate + 1
          else c.circulationDate
        (some (combine date t),
          { previousStopEvent := event, circulationDate := date })
    | none => (none, { c with previousStopEvent := event })
  else (none, c)

/-- The variables of the loop of `merge`. -/
structure MergeState where
  hasChanges : Bool
  calendar : Calendar
  lastDeparture : Option Datetime
deriving DecidableEq, Repr

/-- What one turn of the loop computes for a stop. -/
structure MergedStop where
  navOrder : Nat
  navitiaStop : StopTime
  newSt : Option StopTimeUpdate
  baseArrival : Option Datetime
  baseDeparture : Option Datetime
  resSt : StopTimeUpdate
deriving DecidableEq, Repr

/-- The stop kept by the loop, and whether something has changed so far. -/
def chooseStop
    (db : Option TripUpdate) (newSt : Option StopTimeUpdate)
    (st : MergeState) (navOrder : Nat) (navitiaStop : StopTime)
    (baseArrival baseDeparture : Option Datetime) :
    Except PyException (StopTimeUpdate × Bool) := do
  match db, newSt with
  | some db, some newSt =>
      -- a stored stop is kept as long as nothing has changed
      let newStUpdate ←
        makeStopTimeUpdate baseArrival baseDeparture st.lastDeparture newSt
          (← navitiaStop.getStopPoint) navOrder
      match db.findStop navitiaStop.stopId navOrder with
      | some dbSt =>
          if st.hasChanges || dbSt.isNotEqual newStUpdate then
            return (newStUpdate, true)
          else return (dbSt, false)
      | none => return (newStUpdate, true)
  | none, some newSt =>
      let resSt ←
        makeStopTimeUpdate baseArrival baseDeparture st.lastDeparture newSt
          (← navitiaStop.getStopPoint) navOrder
      return ({ resSt with message := newSt.message }, true)
  | some db, none =>
      match db.findStop navitiaStop.stopId navOrder with
      | some dbSt => return (dbSt, st.hasChanges)
      | none =>
          let stopPoint ← navitiaStop.getStopPoint
          return (baseStopTimeUpdate stopPoint baseDeparture baseArrival
            navOrder, true)
  | none, none =>
      let stopPoint ← navitiaStop.getStopPoint
      return (baseStopTimeUpdate stopPoint baseDeparture baseArrival
        navOrder, true)

/-- One turn of the loop of `merge`. -/
def mergeStop
    (db : Option TripUpdate) (new : NewTripUpdate)
    (st : MergeState) (navOrder : Nat) (navitiaStop : StopTime) :
    Except PyException (MergedStop × MergeState) := do
  let stopId := navitiaStop.stopId
  let newSt := new.findStop stopId navOrder
  let (baseArrival, calendar) :=
    st.calendar.stopEvent
      (isStopEventServed .arrival stopId navOrder (some navitiaStop) db newSt)
      navitiaStop.utcArrivalTime
      ((newSt.bind StopTimeUpdate.arrivalDelay).getD 0)
  let (baseDeparture, calendar) :=
    calendar.stopEvent
      (isStopEventServed .departure stopId navOrder (some navitiaStop) db newSt)
      navitiaStop.utcDepartureTime
      ((newSt.bind StopTimeUpdate.departureDelay).getD 0)
  let (resSt, hasChanges) ←
    chooseStop db newSt st navOrder navitiaStop baseArrival baseDeparture
  return (
    { navOrder := navOrder
      navitiaStop := navitiaStop
      newSt := newSt
      baseArrival := baseArrival
      baseDeparture := baseDeparture
      resSt := resSt },
    { hasChanges := hasChanges
      calendar := calendar
      lastDeparture := resSt.departure })

/-- The loop of `merge` over the stops to go through. -/
def mergeLoop
    (db : Option TripUpdate) (new : NewTripUpdate) :
    MergeState → List (Except PyException (Nat × StopTime)) →
    Except PyException (List MergedStop × Bool)
  | st, [] => .ok ([], st.hasChanges)
  | st, next :: rest => do
      let (navOrder, navitiaStop) ← next
      let (stop, st) ← mergeStop db new st navOrder navitiaStop
      let (stops, hasChanges) ← mergeLoop db new st rest
      return (stop :: stops, hasChanges)

/-- The variables before the first turn. -/
def initialMergeState (vj : VehicleJourney) : MergeState where
  hasChanges := false
  calendar :=
    { previousStopEvent := { time := none, delay := 0 }
      circulationDate := vj.getCirculationDate }
  lastDeparture := none

/-- The whole loop of `merge`. -/
def mergeStops
    (navitiaVj : NavitiaVj) (db : Option TripUpdate) (new : NewTripUpdate)
    (isNewComplete : Bool) :
    Except PyException (List MergedStop × Bool) :=
  mergeLoop db new (initialMergeState new.vj)
    (if isNewComplete then yieldNextStopFromTripUpdate new db
      else yieldNextStopFromBaseScheduleVj navitiaVj)

/--
Outcome of `merge`: the content of its result object, and whether the call
returns this object, returns `None` or raises.
-/
structure MergeOutcome where
  res : TripUpdate
  returned : Except PyException Bool

/-- The result object once status, effect and message are taken over. -/
def mergeHeader
    (db : Option TripUpdate) (new : NewTripUpdate) (isNewComplete : Bool) :
    TripUpdate :=
  let res := db.getD new.toTripUpdate
  { res with
    status := new.status
    effect := new.effect
    message :=
      if new.message.isSome || isNewComplete then new.message
      else res.message }

def merge
    (navitiaVj : NavitiaVj) (dbTripUpdate : Option TripUpdate)
    (newTripUpdate : NewTripUpdate) (isNewComplete : Bool) : MergeOutcome :=
  let res := mergeHeader dbTripUpdate newTripUpdate isNewComplete
  if res.status = .delete then
    { res := { res with stopTimeUpdates := [] }, returned := .ok true }
  else
    match mergeStops navitiaVj dbTripUpdate newTripUpdate isNewComplete with
    | .error e => { res := res, returned := .error e }
    | .ok (stops, true) =>
        { res := { res with stopTimeUpdates := stops.map MergedStop.resSt }
          returned := .ok true }
    | .ok (_, false) => { res := res, returned := .ok false }

end Core
end Kirin
