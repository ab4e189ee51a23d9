import Kirin.Core.Model

/-!
# Kirin: reading a feed

This module follows the functions of `kirin/utils.py` that read the values of a
JSON feed.  A missing value and a null value are the same for all of them.  The
JSON quoted at the end of an error is left out.

A date of a feed is a text, together with what the date library reads in it.
-/

namespace Kirin
namespace Core

/-- A date of a feed: its text, and its datetime in UTC or why there is none. -/
structure DateText where
  text : String
  parsed : Except String Datetime
deriving DecidableEq, Repr

/-- A value that has to be present. -/
def getValue {α : Type} (key : String) (value : Option α) :
    Except PyException α :=
  match value with
  | some v => .ok v
  | none =>
      .error (.invalidArguments
        ("invalid json, impossible to find \"" ++ key ++ "\" in json dict"))

def asUtcNaiveDt (strTime : DateText) : Except PyException Datetime :=
  match strTime.parsed with
  | .ok t => .ok t
  | .error message =>
      .error (.invalidArguments
        ("Impossible to parse timezoned datetime from \"" ++ strTime.text ++
          "\": " ++ message))

/-- The datetime of a text, when the text is given and not empty. -/
def asTruthyDt (strTime : Option DateText) :
    Except PyException (Option Datetime) :=
  match strTime with
  | none => .ok none
  | some d => if d.text = "" then .ok none else (asUtcNaiveDt d).map some

/--
A number of seconds as a duration.  It goes through a datetime, whose year has
to be between 1 and 9999.
-/
def asDuration (seconds : Option Int) : Except PyException (Option Timedelta) :=
  match seconds with
  | none => .ok none
  | some s =>
      if -62135596800 ≤ s ∧ s ≤ 253402300799 then .ok (some (s * second))
      else .error .valueError

/-- The start of the hour of a datetime. -/
def floorDatetime (t : Datetime) : Datetime :=
  t - t % (3600 * second)

end Core
end Kirin
