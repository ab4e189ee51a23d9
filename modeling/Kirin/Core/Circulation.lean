import Kirin.Core.Utils

/-!
# Kirin: the circulation of a navitia vehicle journey

A vehicle journey, as the search of navitia returns it, and the constructor of
`VehicleJourney` in `kirin/core/model.py`.  Navitia gives circulation times
without a day: the constructor picks the first day on which the vehicle journey
starts after the beginning of the search period.

What the merge reads of such a vehicle journey is its `toNavitiaVj`.
-/

namespace Kirin
namespace Core

/-- A stop point with the codes of its stop area. -/
structure NavStopPoint extends StopPoint where
  stopAreaCodes : List Code
deriving DecidableEq, Repr

/-- A stop time as navitia returns it. -/
structure NavStopTime where
  stopPoint : Option NavStopPoint
  utcArrivalTime : Option TimeOfDay
  utcDepartureTime : Option TimeOfDay
deriving DecidableEq, Repr

def NavStopTime.toStopTime (s : NavStopTime) : StopTime where
  stopPoint := s.stopPoint.map NavStopPoint.toStopPoint
  utcArrivalTime := s.utcArrivalTime
  utcDepartureTime := s.utcDepartureTime

/-- A vehicle journey as navitia returns it. -/
structure NavVj where
  id : String
  tripId : String
  stopTimes : List NavStopTime
deriving DecidableEq, Repr

def NavVj.toNavitiaVj (v : NavVj) : NavitiaVj where
  stopTimes := v.stopTimes.map NavStopTime.toStopTime

/-- The start of a circulation that is not in navitia, or of one that is. -/
def computeStartTimestamp (navitiaVj : NavVj) (sinceDt untilDt : Datetime)
    (vjStartDt : Option Datetime) : Except PyException Datetime :=
  match navitiaVj.stopTimes, vjStartDt with
  | [], some start => .ok start
  | [], none => .error .keyError
  | first :: _, _ =>
      match first.utcArrivalTime <|> first.utcDepartureTime with
      | none => .error .typeError
      | some startTime =>
          let sameDay := combine (Datetime.date sinceDt) startTime
          let start := if sameDay < sinceDt then sameDay + day else sameDay
          if untilDt < start then
            .error (.objectNotFound
              ("impossible to calculate the circulation date of vj: " ++
                navitiaVj.id))
          else .ok start

/-- The constructor of a vehicle journey on a given day, with a new id. -/
def VehicleJourney.init (newId : String) (navitiaVj : NavVj)
    (sinceDt untilDt : Datetime) (vjStartDt : Option Datetime) :
    Except PyException VehicleJourney := do
  let start ← computeStartTimestamp navitiaVj sinceDt untilDt vjStartDt
  return {
    id := newId
    navitiaTripId := navitiaVj.tripId
    startTimestamp := start }

/-- The trip of a vehicle journey is that of navitia. -/
theorem init_tripId
    {newId : String} {navitiaVj : NavVj} {sinceDt untilDt : Datetime}
    {vjStartDt : Option Datetime} {vj : VehicleJourney}
    (h : VehicleJourney.init newId navitiaVj sinceDt untilDt vjStartDt = .ok vj) :
    vj.navitiaTripId = navitiaVj.tripId := by
  unfold VehicleJourney.init at h
  cases hstart : computeStartTimestamp navitiaVj sinceDt untilDt vjStartDt with
  | error e =>
      rw [hstart] at h
      cases h
  | ok start =>
      rw [hstart] at h
      cases h
      rfl

/-- The time of day at which a vehicle journey starts. -/
def NavVj.startTime (v : NavVj) : Option TimeOfDay :=
  v.stopTimes.head?.bind (fun first =>
    first.utcArrivalTime <|> first.utcDepartureTime)

section Start

variable {navVj : NavVj} {t : TimeOfDay} {sinceDt untilDt s : Datetime}
variable {vjStartDt : Option Datetime}

/-- The start is the first datetime of the period with the given time of day. -/
theorem computeStartTimestamp_of_startTime
    (hstart : navVj.startTime = some t) :
    computeStartTimestamp navVj sinceDt untilDt vjStartDt =
      if untilDt < DayClock.next day sinceDt t.micros then
        .error (.objectNotFound
          ("impossible to calculate the circulation date of vj: " ++ navVj.id))
      else .ok (DayClock.next day sinceDt t.micros) := by
  have hnext :
      (if combine (Datetime.date sinceDt) t < sinceDt then
          combine (Datetime.date sinceDt) t + day
        else combine (Datetime.date sinceDt) t) =
        DayClock.next day sinceDt t.micros := by
    have hsince := DayClock.dayOf_mul_add_clockOf day sinceDt
    have hsame : combine (Datetime.date sinceDt) t =
        DayClock.dayOf day sinceDt * day + t.micros :=
      rfl
    simp only [DayClock.next, DayClock.instant, DayClock.descent, Int.add_mul]
    rw [hsame]
    by_cases hfalls : t.micros < DayClock.clockOf day sinceDt
    · have hbefore : DayClock.dayOf day sinceDt * day + t.micros < sinceDt := by
        omega
      rw [if_pos hfalls, if_pos hbefore, Int.one_mul, Int.add_right_comm]
    · have hafter : ¬ DayClock.dayOf day sinceDt * day + t.micros < sinceDt := by
        omega
      rw [if_neg hfalls, if_neg hafter, Int.zero_mul, Int.add_zero]
  unfold NavVj.startTime at hstart
  cases hstops : navVj.stopTimes with
  | nil =>
      rw [hstops] at hstart
      cases hstart
  | cons first rest =>
      rw [hstops] at hstart
      simp only [List.head?_cons, Option.bind_some] at hstart
      simp only [computeStartTimestamp, hstops, hstart, hnext]

/-- The circulation that starts at a given datetime is the one that is found. -/
theorem computeStartTimestamp_eq_ok_iff
    (hstart : navVj.startTime = some (Datetime.time s)) :
    computeStartTimestamp navVj sinceDt untilDt vjStartDt = .ok s ↔
      sinceDt ≤ s ∧ s - sinceDt < day ∧ s ≤ untilDt := by
  have hnonneg := DayClock.clockOf_nonneg day_pos s
  have hlt := DayClock.clockOf_lt day_pos s
  have hle : sinceDt ≤ DayClock.next day sinceDt (DayClock.clockOf day s) :=
    DayClock.le_next day_pos hnonneg
  rw [computeStartTimestamp_of_startTime hstart]
  change (if untilDt < DayClock.next day sinceDt (DayClock.clockOf day s) then _
    else Except.ok (DayClock.next day sinceDt (DayClock.clockOf day s))) = _ ↔ _
  constructor
  · intro h
    split at h
    · cases h
    · rename_i huntil
      have hnext := Except.ok.inj h
      rw [hnext] at hle huntil
      exact ⟨hle, ((DayClock.next_eq_iff day_pos hnonneg hlt hle).1 hnext).2,
        Int.not_lt.1 huntil⟩
  · rintro ⟨hsince, hday, huntil⟩
    rw [(DayClock.next_eq_iff day_pos hnonneg hlt hsince).2 ⟨rfl, hday⟩,
      if_neg (Int.not_lt.2 huntil)]

end Start

end Core
end Kirin
