import Kirin.Core.Types
import Kirin.Library.RelatedLists

/-!
# Kirin: trip updates and stop time updates

The data of `kirin/core/model.py` and of the navitia vehicle journey.

A `TripUpdate` is what the database holds for one dated vehicle journey.  The
navitia vehicle journey itself is not persisted: only a trip update freshly
built from a feed carries it, hence the separate type `NewTripUpdate`.

Stop time updates are listed in an ordering list, so that those appended
without an order receive their index (`orderingList`); this is how the COTS and
PIV builders fill a trip update.
-/

namespace Kirin
namespace Core

/-- An external code of a navitia object. -/
structure Code where
  type : String
  value : String
deriving DecidableEq, Repr

/-- A navitia stop point, with the part of it the merge reads. -/
structure StopPoint where
  id : String
  codes : List Code
deriving DecidableEq, Repr

/-- A stop time of a navitia vehicle journey. -/
structure StopTime where
  stopPoint : Option StopPoint
  utcArrivalTime : Option TimeOfDay
  utcDepartureTime : Option TimeOfDay
deriving DecidableEq, Repr

namespace StopTime

/-- `navitia_stop.get("stop_point", ...).get("id")`. -/
def stopId (s : StopTime) : Option String :=
  s.stopPoint.map StopPoint.id

/-- `navitia_stop["stop_point"]`. -/
def getStopPoint (s : StopTime) : Except PyException StopPoint :=
  match s.stopPoint with
  | some p => .ok p
  | none => .error .keyError

end StopTime

/-- A navitia vehicle journey: circulation times without a specific day. -/
structure NavitiaVj where
  stopTimes : List StopTime
deriving DecidableEq, Repr

/-- A vehicle journey on a given day. -/
structure VehicleJourney where
  id : String
  navitiaTripId : String
  startTimestamp : Datetime
deriving DecidableEq, Repr

namespace VehicleJourney

def getCirculationDate (vj : VehicleJourney) : Date :=
  Datetime.date vj.startTimestamp

/-- The columns of the unique key of a dated vehicle journey. -/
def datedKey (vj : VehicleJourney) : String × Datetime :=
  (vj.navitiaTripId, vj.startTimestamp)

end VehicleJourney

/-- The two events of a stop, by their name in the source. -/
inductive StopEvent
  | arrival
  | departure
deriving DecidableEq, Repr

theorem StopEvent.forall_iff
    {P : StopEvent → Prop} :
    (∀ e, P e) ↔ P .arrival ∧ P .departure := by
  constructor
  · intro h
    exact ⟨h .arrival, h .departure⟩
  · rintro ⟨ha, hd⟩ e
    cases e with
    | arrival =>
        exact ha
    | departure =>
        exact hd

theorem StopEvent.exists_iff
    {P : StopEvent → Prop} :
    (∃ e, P e) ↔ P .arrival ∨ P .departure := by
  constructor
  · rintro ⟨e, he⟩
    cases e with
    | arrival =>
        exact Or.inl he
    | departure =>
        exact Or.inr he
  · rintro (ha | hd)
    · exact ⟨.arrival, ha⟩
    · exact ⟨.departure, hd⟩

instance {P : StopEvent → Prop} [DecidablePred P] : Decidable (∀ e, P e) :=
  decidable_of_iff _ StopEvent.forall_iff.symm

instance {P : StopEvent → Prop} [DecidablePred P] : Decidable (∃ e, P e) :=
  decidable_of_iff _ StopEvent.exists_iff.symm

/-- Realtime information on one stop of a trip. -/
structure StopTimeUpdate where
  stopId : String
  order : Nat
  message : Option String
  departure : Option Datetime
  departureDelay : Option Timedelta
  departureStatus : ModificationType
  arrival : Option Datetime
  arrivalDelay : Option Timedelta
  arrivalStatus : ModificationType
deriving DecidableEq, Repr

namespace StopTimeUpdate

/-- Field by field comparison of two stop time updates. -/
def isNotEqual (self other : StopTimeUpdate) : Bool :=
  self.stopId != other.stopId
    || self.message != other.message
    || self.order != other.order
    || self.departure != other.departure
    || self.departureDelay != other.departureDelay
    || self.departureStatus != other.departureStatus
    || self.arrival != other.arrival
    || self.arrivalDelay != other.arrivalDelay
    || self.arrivalStatus != other.arrivalStatus

/-- The comparison covers every field. -/
@[simp] theorem isNotEqual_eq_false_iff
    (a b : StopTimeUpdate) :
    a.isNotEqual b = false ↔ a = b := by
  cases a
  cases b
  simp only [isNotEqual, Bool.or_eq_false_iff, bne_eq_false_iff_eq,
    StopTimeUpdate.mk.injEq]
  tauto

@[simp] theorem isNotEqual_eq_true_iff
    (a b : StopTimeUpdate) :
    a.isNotEqual b = true ↔ a ≠ b := by
  rw [← Bool.not_eq_false, isNotEqual_eq_false_iff]

def getStopEventStatus (self : StopTimeUpdate) :
    StopEvent → ModificationType
  | .arrival => self.arrivalStatus
  | .departure => self.departureStatus

def isStopEventDeleted (self : StopTimeUpdate) (e : StopEvent) : Bool :=
  (self.getStopEventStatus e).isDeleted

def isStopEventAdded (self : StopTimeUpdate) (e : StopEvent) : Bool :=
  (self.getStopEventStatus e).isAdded

/-- Datetime of one event, as recorded. -/
def getStopEventTime (self : StopTimeUpdate) :
    StopEvent → Option Datetime
  | .arrival => self.arrival
  | .departure => self.departure

/-- Delay of one event, as recorded. -/
def getStopEventDelay (self : StopTimeUpdate) :
    StopEvent → Option Timedelta
  | .arrival => self.arrivalDelay
  | .departure => self.departureDelay

end StopTimeUpdate

/-- First stop with the given id and order. -/
def findExact
    (stus : List StopTimeUpdate)
    (stopId : Option String) (order : Nat) : Option StopTimeUpdate :=
  stus.find? (fun st => some st.stopId == stopId && st.order == order)

/-- First stop with the given id. -/
def findById
    (stus : List StopTimeUpdate)
    (stopId : Option String) : Option StopTimeUpdate :=
  stus.find? (fun st => some st.stopId == stopId)

/--
Look for a stop by id and order, then by id alone: the order tells apart the
visits of a trip that serves the same stop several times.
-/
def findStopIn
    (stus : List StopTimeUpdate)
    (stopId : Option String) (order : Nat) : Option StopTimeUpdate :=
  match findExact stus stopId order with
  | some first => some first
  | none => findById stus stopId

/-- Realtime information on a dated vehicle journey. -/
structure TripUpdate where
  vj : VehicleJourney
  status : ModificationType
  message : Option String
  companyId : Option String
  effect : Option TripEffect
  physicalModeId : Option String
  headsign : Option String
  contributorId : String
  stopTimeUpdates : List StopTimeUpdate
deriving DecidableEq, Repr

/-- The texts that are stored for a stop. -/
def StopTimeUpdate.texts (self : StopTimeUpdate) : List String :=
  self.stopId :: self.message.toList

namespace TripUpdate

/-- The texts that are stored for a trip, but for its stops. -/
def headerTexts (self : TripUpdate) : List String :=
  [self.vj.id, self.vj.navitiaTripId, self.contributorId] ++
    [self.message, self.companyId, self.physicalModeId,
      self.headsign].reduceOption

/-- All the texts that are stored for a trip. -/
def texts (self : TripUpdate) : List String :=
  self.headerTexts ++ self.stopTimeUpdates.flatMap StopTimeUpdate.texts

def findStop (self : TripUpdate)
    (stopId : Option String) (order : Nat) : Option StopTimeUpdate :=
  findStopIn self.stopTimeUpdates stopId order

/-- The first row of a trip that starts within a period, both ends included. -/
def findVjByPeriod
    (rows : List TripUpdate) (navitiaTripId : String)
    (startDate endDate : Datetime) : Option TripUpdate :=
  rows.find? (fun tu =>
    tu.vj.navitiaTripId == navitiaTripId
      && decide (startDate ≤ tu.vj.startTimestamp)
      && decide (tu.vj.startTimestamp ≤ endDate))

/--
The rows of some contributors, from the start of one day on and before the start
of another one.
-/
def findByContributorPeriod
    (rows : List TripUpdate) (contributors : List String)
    (startDate endDate : Option Date) : List TripUpdate :=
  rows.filter (fun tu =>
    contributors.contains tu.contributorId
      && startDate.all (fun d => decide (combine d midnight ≤ tu.vj.startTimestamp))
      && endDate.all (fun d => decide (tu.vj.startTimestamp < combine d midnight)))

end TripUpdate

/-- A trip update built from a feed, with its navitia vehicle journey. -/
structure NewTripUpdate extends TripUpdate where
  navitiaVj : NavitiaVj
deriving DecidableEq, Repr

/-- Every stop time update has its index as order. -/
def Indexed (stus : List StopTimeUpdate) : Prop :=
  stus.map StopTimeUpdate.order = List.range stus.length

instance (stus : List StopTimeUpdate) : Decidable (Indexed stus) :=
  inferInstanceAs (Decidable (_ = _))

/-- The list obtained by appending stops that have no order yet. -/
def orderingList (stus : List StopTimeUpdate) : List StopTimeUpdate :=
  stus.mapIdx (fun i st => { st with order := i })

theorem orderingList_indexed
    (stus : List StopTimeUpdate) :
    Indexed (orderingList stus) := by
  apply List.ext_getElem
  · simp [orderingList]
  · intro i h1 h2
    simp [orderingList]

theorem Indexed.getElem_order
    {stus : List StopTimeUpdate} (h : Indexed stus)
    (i : Nat) (hi : i < stus.length) :
    stus[i].order = i := by
  have hget :
      (stus.map StopTimeUpdate.order)[i]? = (List.range stus.length)[i]? := by
    rw [h]
  simpa [hi] using hget

/-- In an indexed list, a stop is found by its id and its own order. -/
theorem Indexed.findStopIn_getElem
    {stus : List StopTimeUpdate} (h : Indexed stus)
    (i : Nat) (hi : i < stus.length) :
    findStopIn stus (some stus[i].stopId) i = some stus[i] := by
  have hexact :
      findExact stus (some stus[i].stopId) i = some stus[i] := by
    rw [findExact, List.find?_eq_some_iff_getElem]
    refine ⟨by simp [h.getElem_order i hi], i, hi, rfl, ?_⟩
    intro j hj
    have hjl : j < stus.length := by
      omega
    have hne : stus[j].order ≠ i := by
      rw [h.getElem_order j hjl]
      omega
    simp [hne]
  simp [findStopIn, hexact]

namespace Sample

/-- A time of 2012-11-20, for the examples. -/
def clock (hours minutes : Int) : Datetime :=
  15664 * day + (hours * 60 + minutes) * (60 * second)

def stopTime (id : String) (arrival departure : Datetime) : StopTime where
  stopPoint := some { id := id, codes := [{ type := "source", value := id }] }
  utcArrivalTime := some (Datetime.time arrival)
  utcDepartureTime := some (Datetime.time departure)

def trip (startTimestamp : Datetime) : VehicleJourney where
  id := "7b1a"
  navitiaTripId := "trip:1"
  startTimestamp := startTimestamp

/-- A stop about which a feed says nothing in particular. -/
def unchanged (id : String) (order : Nat) : StopTimeUpdate where
  stopId := id
  order := order
  message := none
  departure := none
  departureDelay := none
  departureStatus := .none
  arrival := none
  arrivalDelay := none
  arrivalStatus := .none

/-- A trip update that a feed gives for a trip starting at a given time. -/
def feed
    (startTimestamp : Datetime) (stopTimes : List StopTime)
    (status : ModificationType) (stus : List StopTimeUpdate) :
    NewTripUpdate where
  vj := trip startTimestamp
  status := status
  message := none
  companyId := none
  effect := some .modifiedService
  physicalModeId := none
  headsign := none
  contributorId := "realtime.cots"
  stopTimeUpdates := stus
  navitiaVj := { stopTimes := stopTimes }

/-- Three stops served from eight o'clock on. -/
def threeStops : List StopTime :=
  [stopTime "sp:a" (clock 8 0) (clock 8 0),
    stopTime "sp:b" (clock 8 5) (clock 8 6),
    stopTime "sp:c" (clock 8 20) (clock 8 20)]

/-- A complete feed on these stops that changes nothing. -/
def onTime : NewTripUpdate :=
  feed (clock 8 0) threeStops .update
    [unchanged "sp:a" 0, unchanged "sp:b" 1, unchanged "sp:c" 2]

end Sample

end Core
end Kirin
