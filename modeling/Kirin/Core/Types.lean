import Kirin.Library.DayClock

/-!
# Kirin: dates, statuses and effects

Naive UTC datetimes are counted in microseconds from 1970-01-01T00:00, the
resolution of the language and of the database.  A circulation time of navitia
is a time of day, which carries the proof that it lies within one day.

The second half follows `kirin/core/types.py`: the modification statuses of a
trip or of a stop event, the effects of a trip, and the functions that pick the
highest status and the effect of a trip.
-/

namespace Kirin
namespace Core

/-- A duration in microseconds. -/
abbrev Timedelta := Int

/-- A naive UTC datetime, in microseconds. -/
abbrev Datetime := Int

/-- A date, in days. -/
abbrev Date := Int

/-- Twenty-four hours. -/
abbrev day : Timedelta := 86400000000

/-- One second. -/
abbrev second : Timedelta := 1000000

theorem day_pos : (0 : Int) < day := by
  decide

/-- A time of day without its date. -/
structure TimeOfDay where
  micros : Int
  nonneg : 0 ≤ micros
  lt_day : micros < day
deriving DecidableEq, Repr

/-- The start of a day. -/
def midnight : TimeOfDay where
  micros := 0
  nonneg := by decide
  lt_day := by decide

/-- The date of a datetime. -/
def Datetime.date (t : Datetime) : Date :=
  DayClock.dayOf day t

/-- The time of day of a datetime. -/
def Datetime.time (t : Datetime) : TimeOfDay where
  micros := DayClock.clockOf day t
  nonneg := DayClock.clockOf_nonneg day_pos t
  lt_day := DayClock.clockOf_lt day_pos t

/-- The datetime at a given date and time of day. -/
def combine (d : Date) (c : TimeOfDay) : Datetime :=
  DayClock.instant day d c.micros

/-- The datetimes of the language, from the year 1 to the year 9999. -/
def Datetime.InRange (t : Datetime) : Prop :=
  -62135596800 * second ≤ t ∧ t < 253402300800 * second

instance (t : Datetime) : Decidable (Datetime.InRange t) :=
  inferInstanceAs (Decidable (_ ∧ _))

@[simp] theorem combine_date_time
    (t : Datetime) :
    combine (Datetime.date t) (Datetime.time t) = t :=
  DayClock.instant_dayOf_clockOf t

@[simp] theorem date_combine
    (d : Date) (c : TimeOfDay) :
    Datetime.date (combine d c) = d :=
  DayClock.dayOf_instant c.nonneg c.lt_day

@[simp] theorem time_combine
    (d : Date) (c : TimeOfDay) :
    Datetime.time (combine d c) = c := by
  rcases c with ⟨micros, h0, h1⟩
  simp only [Datetime.time, combine, TimeOfDay.mk.injEq]
  exact DayClock.clockOf_instant h0 h1

/-- Status of a trip, or of one event of a stop. -/
inductive ModificationType
  | add
  | delete
  | update
  | none
  | deletedForDetour
  | addedForDetour
deriving DecidableEq, Repr

namespace ModificationType

/-- The statuses of a removed stop event. -/
def isDeleted : ModificationType → Bool
  | delete | deletedForDetour => true
  | _ => false

/-- The statuses of an added stop event. -/
def isAdded : ModificationType → Bool
  | add | addedForDetour => true
  | _ => false

end ModificationType

/-- Rank of a status, the highest one giving its effect to the trip. -/
def getModificationTypeOrder : ModificationType → Nat
  | .none => 0
  | .update => 1
  | .add => 2
  | .delete => 3
  | .addedForDetour => 4
  | .deletedForDetour => 5

/-- The higher of two statuses, the first one when they have the same rank. -/
def getHigherStatus (st1 st2 : ModificationType) : ModificationType :=
  if getModificationTypeOrder st1 < getModificationTypeOrder st2 then st2
  else st1

/-- The highest of several statuses. -/
def highestStatus (statuses : List ModificationType) : ModificationType :=
  statuses.foldl getHigherStatus .none

/-- Effect of a realtime trip. -/
inductive TripEffect
  | noService
  | reducedService
  | significantDelays
  | detour
  | additionalService
  | modifiedService
  | otherEffect
  | unknownEffect
  | stopMoved
  | undefined
deriving DecidableEq, Repr

/-- The effects that the enumeration of the database has. -/
def TripEffect.inDatabase : TripEffect → Bool
  | .noService => true
  | .reducedService => true
  | .significantDelays => true
  | .detour => true
  | .additionalService => true
  | .modifiedService => true
  | .otherEffect => true
  | .unknownEffect => true
  | .stopMoved => true
  | .undefined => false

/-- Effect of a trip whose highest stop status is given. -/
def getEffectByStopTimeStatus : ModificationType → TripEffect
  | .none => .unknownEffect
  | .update => .significantDelays
  | .add => .modifiedService
  | .delete => .reducedService
  | .addedForDetour => .detour
  | .deletedForDetour => .detour

/-- The kinds of feed Kirin reads. -/
inductive ConnectorType
  | cots
  | piv
  | gtfsRt
deriving DecidableEq, Repr

/-- A text that the driver of the database refuses to send. -/
def hasNul (text : String) : Bool :=
  text.toList.contains (Char.ofNat 0)

@[simp] theorem hasNul_append
    (s t : String) :
    hasNul (s ++ t) = (hasNul s || hasNul t) := by
  simp [hasNul, String.toList_append]

/--
The exceptions the modelled code can raise.  Those of Kirin carry the detail
that is recorded on the feed, without the JSON quoted at its end.
-/
inductive PyException
  | typeError
  | attributeError
  | keyError
  | indexError
  | valueError
  | integrityError
  | dataError
  | invalidRequestError
  | overflowError
  | connectionError
  | messageNotPublished
  | invalidArguments (detail : String)
  | objectNotFound (detail : String)
  | unsupportedValue (detail : String)
deriving DecidableEq, Repr

/-- `time + delay`, which raises when it leaves the datetimes of the language. -/
def addDelay (time : Datetime) (delay : Timedelta) :
    Except PyException Datetime :=
  if Datetime.InRange (time + delay) then .ok (time + delay)
  else .error .overflowError

end Core
end Kirin
