import Kirin.GtfsRt.ModelMaker

/-!
# Kirin: the circulation that a GTFS-RT feed is about

A feed is searched from three hours before its timestamp on, and the circulation
found is the first one to start in that period.  The search therefore has to
begin before the start of the circulation.

* `lt_floorDatetime`: the hour of a datetime.
* `Circulates`: a vehicle journey with its start and its end on some day.
* `makeDbVj_eq_iff`: the circulation that a search period tells.
* `running_circulation_found_iff`: a circulation is found by a feed exactly when
  the search begins before its start.
-/

namespace Kirin
namespace GtfsRt

open Kirin.Core

/-- The time of day at which a vehicle journey ends. -/
def endTime (navVj : NavVj) : Option TimeOfDay :=
  navVj.stopTimes.getLast?.bind (fun last =>
    last.utcArrivalTime <|> last.utcDepartureTime)

/-- A vehicle journey that runs from a start to an end, in less than a day. -/
structure Circulates (navVj : NavVj) (s e : Datetime) : Prop where
  start : navVj.startTime = some (Datetime.time s)
  ending : endTime navVj = some (Datetime.time e)
  ordered : s ≤ e
  lt_day : e - s < day

instance (navVj : NavVj) (s e : Datetime) : Decidable (Circulates navVj s e) :=
  decidable_of_iff
    (navVj.startTime = some (Datetime.time s) ∧
      endTime navVj = some (Datetime.time e) ∧ s ≤ e ∧ e - s < day)
    ⟨fun h => ⟨h.1, h.2.1, h.2.2.1, h.2.2.2⟩,
      fun h => ⟨h.start, h.ending, h.ordered, h.lt_day⟩⟩

/-- The start of the period in which the circulation of a feed is searched. -/
def searchSince (inputDataTime : Datetime) : Datetime :=
  floorDatetime (inputDataTime - periodFilterTolerance)

def searchUntil (inputDataTime : Datetime) : Datetime :=
  floorDatetime (inputDataTime + periodFilterTolerance + 3600 * second)

theorem hour_pos : (0 : Int) < 3600 * second := by
  decide

theorem lt_floorDatetime
    (t : Datetime) :
    t < floorDatetime t + 3600 * second := by
  have hlt : t % (3600 * second) < 3600 * second :=
    Int.emod_lt_of_pos t hour_pos
  have hdef : floorDatetime t + t % (3600 * second) = t :=
    Int.sub_add_cancel t (t % (3600 * second))
  calc
    t = floorDatetime t + t % (3600 * second) := hdef.symm
    _ < floorDatetime t + 3600 * second := Int.add_lt_add_left hlt _

/-- The period begins less than a day before a start that is close enough. -/
theorem search_window
    {s t since til h : Int} (hpos : 0 < h) (hfrom : s - 3 * h ≤ t)
    (hsince : t - 3 * h < since + h) (huntil : t + 3 * h + h < til + h) :
    s - since < 24 * h ∧ s ≤ til := by
  omega

section Search

variable {services : Services} {newId : String → String} {code : String}
variable {navVj : NavVj} {s inputDataTime sinceDt untilDt : Datetime}

/-- The only vehicle journey of a code is found on the day it starts. -/
theorem makeDbVj_eq_iff
    (hstart : navVj.startTime = some (Datetime.time s))
    (hnav : services.vehicleJourneys code sinceDt untilDt = .ok [navVj]) :
    (∃ found, makeDbVj services newId code sinceDt untilDt = .ok [found] ∧
      found.navVj = navVj ∧ found.vj.datedKey = (navVj.tripId, s)) ↔
      sinceDt ≤ s ∧ s - sinceDt < day ∧ s ≤ untilDt := by
  have hcomputed : computeStartTimestamp navVj sinceDt untilDt none = .ok s ↔
      sinceDt ≤ s ∧ s - sinceDt < day ∧ s ≤ untilDt :=
    computeStartTimestamp_eq_ok_iff hstart
  rw [← hcomputed]
  simp only [makeDbVj, hnav, bind, Except.bind, VehicleJourney.init]
  cases hcompute : computeStartTimestamp navVj sinceDt untilDt none with
  | error err =>
      simp [pure, Except.pure]
  | ok start =>
      simp [pure, Except.pure, VehicleJourney.datedKey]

/--
A feed received from three hours before the start of a circulation on finds this
circulation exactly when the search begins before its start.
-/
theorem running_circulation_found_iff
    (hstart : navVj.startTime = some (Datetime.time s))
    (hfrom : s - periodFilterTolerance ≤ inputDataTime)
    (hnav : services.vehicleJourneys code (searchSince inputDataTime)
      (searchUntil inputDataTime) = .ok [navVj]) :
    (∃ found, getNavitiaVjs services newId code inputDataTime = .ok [found] ∧
      found.navVj = navVj ∧ found.vj.datedKey = (navVj.tripId, s)) ↔
      searchSince inputDataTime ≤ s := by
  refine (makeDbVj_eq_iff hstart hnav).trans ⟨fun h => h.1, fun h => ?_⟩
  have hsince := lt_floorDatetime (inputDataTime - periodFilterTolerance)
  have huntil :=
    lt_floorDatetime (inputDataTime + periodFilterTolerance + 3600 * second)
  exact ⟨h, search_window hour_pos hfrom hsince huntil⟩

end Search

namespace Sample

/-- A vehicle journey between two stops. -/
def navVj (s e : Datetime) : NavVj where
  id := "vj:1"
  tripId := "trip:1"
  stopTimes :=
    [{ stopPoint := none
       utcArrivalTime := none
       utcDepartureTime := some (Datetime.time s) },
      { stopPoint := none
        utcArrivalTime := some (Datetime.time e)
        utcDepartureTime := none }]

/-- Navitia finds this vehicle journey in every period. -/
def services (navVj : NavVj) : Services where
  vehicleJourneys := fun _ _ _ => .ok [navVj]

/-- A vehicle journey from eight o'clock to noon. -/
def morning : NavVj :=
  navVj (Core.Sample.clock 8 0) (Core.Sample.clock 12 0)

end Sample

/-- At half past ten, the circulation of the morning is found. -/
theorem running_circulation_found_iff_morning :
    (∃ found,
      getNavitiaVjs (Sample.services Sample.morning) id "code"
        (Core.Sample.clock 10 30) = .ok [found] ∧
      found.navVj = Sample.morning ∧
      found.vj.datedKey = (Sample.morning.tripId, Core.Sample.clock 8 0)) ↔
      searchSince (Core.Sample.clock 10 30) ≤ Core.Sample.clock 8 0 :=
  running_circulation_found_iff (by decide) (by decide) rfl

/-- At noon it is still running, and it is not found any more. -/
theorem running_circulation_lost_noon :
    Circulates Sample.morning (Core.Sample.clock 8 0) (Core.Sample.clock 12 0) ∧
      Core.Sample.clock 8 0 - periodFilterTolerance ≤
        Core.Sample.clock 12 0 ∧
      (Sample.services Sample.morning).vehicleJourneys "code"
        (searchSince (Core.Sample.clock 12 0))
        (searchUntil (Core.Sample.clock 12 0)) = .ok [Sample.morning] ∧
      getNavitiaVjs (Sample.services Sample.morning) id "code"
        (Core.Sample.clock 12 0) = .ok [] := by
  refine ⟨by decide, by decide, rfl, by decide⟩

end GtfsRt
end Kirin
