import Kirin.Core.MergeUtils
import Kirin.Library.Checked
import Mathlib.Order.MinMax

/-!
# Kirin: the rules of one merged stop

What `makeStopTimeUpdate` records for a stop, as a total function: an event is
recorded at its target, or at the previous event when the target comes before,
and its delay grows by the amount of the push.

The only failure is a push on an event without a delay; when it does not occur,
`makeStopTimeUpdate` computes `builtStop` (`makeStopTimeUpdate_ok`,
`makeStopTimeUpdate_of_delays`).
-/

namespace Kirin
namespace Core

/-- A datetime, or the floor when the datetime comes before. -/
def atLeast (floor : Option Datetime) (t : Datetime) : Datetime :=
  match floor with
  | some f => max f t
  | none => t

@[simp] theorem atLeast_none
    (t : Datetime) :
    atLeast none t = t :=
  rfl

@[simp] theorem atLeast_some
    (f t : Datetime) :
    atLeast (some f) t = max f t :=
  rfl

theorem le_atLeast
    (floor : Option Datetime) (t : Datetime) :
    t ≤ atLeast floor t := by
  cases floor with
  | none => exact le_refl t
  | some f => exact le_max_right f t

/-- The time after which events come, once an event is recorded. -/
def floorAfter (last time : Option Datetime) : Option Datetime :=
  time.map (atLeast last) <|> last

/-- Time of an event once pushed to a floor. -/
def pushedTime (floor time : Option Datetime) : Option Datetime :=
  time.map (atLeast floor)

/-- Amount by which an event is pushed. -/
def pushAmount (floor time : Option Datetime) : Timedelta :=
  match time with
  | some t => atLeast floor t - t
  | none => 0

/-- A push that succeeds moves time and delay by the same amount. -/
theorem pushToFloor_ok
    {floor time t' : Option Datetime} {delay d' : Option Timedelta}
    (h : pushToFloor floor time delay = .ok (t', d')) :
    t' = pushedTime floor time ∧
      d' = delay.map (fun d => d + pushAmount floor time) := by
  cases floor with
  | none =>
      simp only [pushToFloor, Except.ok.injEq, Prod.mk.injEq] at h
      rcases h with ⟨rfl, rfl⟩
      cases time <;> simp [pushedTime, pushAmount]
  | some f =>
      cases time with
      | none =>
          simp only [pushToFloor, Except.ok.injEq, Prod.mk.injEq] at h
          rcases h with ⟨rfl, rfl⟩
          simp [pushedTime, pushAmount]
      | some t =>
          simp only [pushToFloor] at h
          split at h
          · rename_i hlt
            cases delay with
            | none =>
                cases h
            | some d =>
                cases h
                simp [pushedTime, pushAmount, max_eq_left (le_of_lt hlt)]
          · rename_i hge
            cases h
            have hmax : max f t = t := max_eq_right (not_lt.1 hge)
            simp [pushedTime, pushAmount, hmax]

/-- With a delay to add to, a push always succeeds. -/
theorem pushToFloor_some
    (floor time : Option Datetime) (d : Timedelta) :
    pushToFloor floor time (some d) =
      .ok (pushedTime floor time, some (d + pushAmount floor time)) := by
  have hok :
      ∃ r, pushToFloor floor time (some d) = .ok r := by
    unfold pushToFloor
    split
    · split
      · exact ⟨_, rfl⟩
      · exact ⟨_, rfl⟩
    · exact ⟨_, rfl⟩
  rcases hok with ⟨⟨t', d'⟩, hr⟩
  obtain ⟨rfl, rfl⟩ := pushToFloor_ok hr
  exact hr

/-- What is recorded for one event before the events are put in order. -/
def eventInfo
    (inputSt : StopTimeUpdate) (base : Option Datetime) :
    StopEvent → UpdateInfo
  | .arrival =>
      getUpdateInfoOfStopEvent base inputSt.arrival
        inputSt.arrivalStatus inputSt.arrivalDelay
  | .departure =>
      getUpdateInfoOfStopEvent base inputSt.departure
        inputSt.departureStatus inputSt.departureDelay

@[simp] theorem eventInfo_status
    (inputSt : StopTimeUpdate) (base : Option Datetime) (e : StopEvent) :
    (eventInfo inputSt base e).status = inputSt.getStopEventStatus e := by
  cases e <;>
    simp only [eventInfo, StopTimeUpdate.getStopEventStatus,
      getUpdateInfoOfStopEvent] <;>
    split <;> simp_all

/-- An event without a delay of its own is an update that gives none. -/
theorem eventInfo_delay_isSome_iff
    (inputSt : StopTimeUpdate) (base : Option Datetime) (e : StopEvent) :
    (eventInfo inputSt base e).delay.isSome ↔
      (inputSt.getStopEventStatus e = .update →
        (inputSt.getStopEventDelay e).isSome) := by
  cases e <;>
    simp only [eventInfo, StopTimeUpdate.getStopEventStatus,
      StopTimeUpdate.getStopEventDelay, getUpdateInfoOfStopEvent] <;>
    split <;> simp_all

theorem eventInfo_delay_isSome
    (inputSt : StopTimeUpdate) (base : Option Datetime) (e : StopEvent)
    (h : inputSt.getStopEventStatus e = .update →
      (inputSt.getStopEventDelay e).isSome) :
    (eventInfo inputSt base e).delay.isSome :=
  (eventInfo_delay_isSome_iff inputSt base e).2 h

section Status

variable {inputSt : StopTimeUpdate} {e : StopEvent}

/-- An event without a status is recorded at its base datetime. -/
theorem eventInfo_of_none
    (h : inputSt.getStopEventStatus e = .none) (base : Option Datetime) :
    eventInfo inputSt base e =
      { time := base, status := .none, delay := some 0 } := by
  cases e <;>
    simp only [StopTimeUpdate.getStopEventStatus] at h <;>
    simp [eventInfo, getUpdateInfoOfStopEvent, h]

/-- An updated event is recorded at its base datetime and delay. -/
theorem eventInfo_of_update
    (h : inputSt.getStopEventStatus e = .update) (base : Option Datetime) :
    eventInfo inputSt base e =
      { time := base.map
          (fun t => t + (inputSt.getStopEventDelay e).getD 0)
        status := .update
        delay := inputSt.getStopEventDelay e } := by
  cases e <;>
    simp only [StopTimeUpdate.getStopEventStatus] at h <;>
    simp [eventInfo, getUpdateInfoOfStopEvent, h,
      StopTimeUpdate.getStopEventDelay]

/-- A removed event has no time of its own. -/
theorem eventInfo_of_deleted
    (h : inputSt.isStopEventDeleted e = true) (base : Option Datetime) :
    (eventInfo inputSt base e).time = none ∧
      (eventInfo inputSt base e).delay = some 0 := by
  simp only [StopTimeUpdate.isStopEventDeleted] at h
  cases e <;>
    simp only [StopTimeUpdate.getStopEventStatus] at h <;>
    simp only [eventInfo, getUpdateInfoOfStopEvent] <;>
    split <;> simp_all [ModificationType.isDeleted]

/-- An added event is recorded at the datetime of the feed. -/
theorem eventInfo_of_added
    (h : inputSt.isStopEventAdded e = true) (base : Option Datetime) :
    eventInfo inputSt base e =
      { time := (inputSt.getStopEventTime e).map
          (fun t => t + (inputSt.getStopEventDelay e).getD 0)
        status := inputSt.getStopEventStatus e
        delay := some 0 } := by
  simp only [StopTimeUpdate.isStopEventAdded] at h
  cases e <;>
    simp only [StopTimeUpdate.getStopEventStatus] at h <;>
    simp only [eventInfo, getUpdateInfoOfStopEvent,
      StopTimeUpdate.getStopEventTime, StopTimeUpdate.getStopEventDelay,
      StopTimeUpdate.getStopEventStatus] <;>
    split <;> simp_all [ModificationType.isAdded]

theorem not_isStopEventDeleted_of_added
    (h : inputSt.isStopEventAdded e = true) :
    inputSt.isStopEventDeleted e = false := by
  simp only [StopTimeUpdate.isStopEventAdded] at h
  simp only [StopTimeUpdate.isStopEventDeleted]
  cases hstatus : inputSt.getStopEventStatus e <;>
    simp_all [ModificationType.isAdded, ModificationType.isDeleted]

end Status

/-- Arrival of a stop before any push. -/
def plannedArrival
    (baseArrival baseDeparture lastDeparture : Option Datetime)
    (inputSt : StopTimeUpdate) : Option Datetime :=
  (eventInfo inputSt baseArrival .arrival).time <|>
    (eventInfo inputSt baseDeparture .departure).time <|> lastDeparture

/-- Departure of a stop before any push. -/
def plannedDeparture
    (baseArrival baseDeparture lastDeparture : Option Datetime)
    (inputSt : StopTimeUpdate) : Option Datetime :=
  (eventInfo inputSt baseDeparture .departure).time <|>
    plannedArrival baseArrival baseDeparture lastDeparture inputSt

/-- The stop time update recorded when no push fails. -/
def builtStop
    (baseArrival baseDeparture lastDeparture : Option Datetime)
    (inputSt : StopTimeUpdate) (stopPoint : StopPoint) (order : Nat) :
    StopTimeUpdate :=
  let arr0 :=
    plannedArrival baseArrival baseDeparture lastDeparture inputSt
  let dep0 :=
    plannedDeparture baseArrival baseDeparture lastDeparture inputSt
  let arr := pushedTime lastDeparture arr0
  { stopId := stopPoint.id
    order := order
    message := inputSt.message
    departure := pushedTime arr dep0
    departureDelay :=
      (eventInfo inputSt baseDeparture .departure).delay.map
        (fun d => d + pushAmount arr dep0)
    departureStatus := inputSt.departureStatus
    arrival := arr
    arrivalDelay :=
      (eventInfo inputSt baseArrival .arrival).delay.map
        (fun d => d + pushAmount lastDeparture arr0)
    arrivalStatus := inputSt.arrivalStatus }

theorem makeStopTimeUpdate_ok
    {baseArrival baseDeparture lastDeparture : Option Datetime}
    {inputSt : StopTimeUpdate} {stopPoint : StopPoint} {order : Nat}
    {stu : StopTimeUpdate}
    (h : makeStopTimeUpdate baseArrival baseDeparture lastDeparture inputSt
      stopPoint order = .ok stu) :
    stu =
      builtStop baseArrival baseDeparture lastDeparture inputSt stopPoint
        order := by
  obtain ⟨arr, harr, hrest⟩ := Checked.bind_eq_ok.1 h
  obtain ⟨dep, hdep, hmade⟩ := Checked.bind_eq_ok.1 hrest
  rw [Checked.pure_eq_ok] at hmade
  obtain ⟨harr1, harr2⟩ := pushToFloor_ok harr
  obtain ⟨hdep1, hdep2⟩ := pushToFloor_ok hdep
  have hstatus_a := eventInfo_status inputSt baseArrival .arrival
  have hstatus_d := eventInfo_status inputSt baseDeparture .departure
  simp only [eventInfo, StopTimeUpdate.getStopEventStatus] at hstatus_a
  simp only [eventInfo, StopTimeUpdate.getStopEventStatus] at hstatus_d
  rw [← hmade]
  simp only [builtStop, plannedArrival, plannedDeparture, eventInfo,
    StopTimeUpdate.mk.injEq]
  rw [hdep1, hdep2, harr1, harr2, hstatus_a, hstatus_d]
  simp

/-- Every update carries a delay, so no push can fail. -/
def CarriesDelays (inputSt : StopTimeUpdate) : Prop :=
  ∀ e, inputSt.getStopEventStatus e = .update →
    (inputSt.getStopEventDelay e).isSome

instance (inputSt : StopTimeUpdate) : Decidable (CarriesDelays inputSt) :=
  decidable_of_iff
    ((inputSt.arrivalStatus = .update → inputSt.arrivalDelay.isSome) ∧
      (inputSt.departureStatus = .update → inputSt.departureDelay.isSome))
    ⟨fun h e => by cases e <;> [exact h.1; exact h.2],
      fun h => ⟨h .arrival, h .departure⟩⟩

theorem makeStopTimeUpdate_of_delays
    (baseArrival baseDeparture lastDeparture : Option Datetime)
    {inputSt : StopTimeUpdate} (h : CarriesDelays inputSt)
    (stopPoint : StopPoint) (order : Nat) :
    makeStopTimeUpdate baseArrival baseDeparture lastDeparture inputSt
        stopPoint order =
      .ok (builtStop baseArrival baseDeparture lastDeparture inputSt stopPoint
        order) := by
  obtain ⟨da, hda⟩ :=
    Option.isSome_iff_exists.1
      (eventInfo_delay_isSome inputSt baseArrival .arrival (h .arrival))
  obtain ⟨dd, hdd⟩ :=
    Option.isSome_iff_exists.1
      (eventInfo_delay_isSome inputSt baseDeparture .departure (h .departure))
  have hok :
      ∃ stu, makeStopTimeUpdate baseArrival baseDeparture lastDeparture inputSt
        stopPoint order = .ok stu := by
    simp only [eventInfo] at hda hdd
    simp only [makeStopTimeUpdate, bind, Except.bind, pure, Except.pure, hda,
      hdd, pushToFloor_some]
    exact ⟨_, rfl⟩
  rcases hok with ⟨stu, hstu⟩
  rw [hstu, makeStopTimeUpdate_ok hstu]

section BuiltStop

variable (ba bd last : Option Datetime)
variable (inputSt : StopTimeUpdate) (sp : StopPoint) (order : Nat)

/-- The recorded delays are present exactly when updates carry theirs. -/
theorem builtStop_delays_iff :
    ((builtStop ba bd last inputSt sp order).arrivalDelay.isSome ∧
        (builtStop ba bd last inputSt sp order).departureDelay.isSome) ↔
      CarriesDelays inputSt := by
  simp only [builtStop, Option.isSome_map, eventInfo_delay_isSome_iff]
  constructor
  · rintro ⟨harrival, hdeparture⟩ e
    cases e with
    | arrival => exact harrival
    | departure => exact hdeparture
  · exact fun h => ⟨h .arrival, h .departure⟩

/-- A recorded stop has both of its times or none. -/
theorem builtStop_departure_isSome
    {a : Datetime}
    (h : (builtStop ba bd last inputSt sp order).arrival = some a) :
    ∃ d, (builtStop ba bd last inputSt sp order).departure = some d ∧
      a ≤ d := by
  simp only [builtStop, pushedTime, Option.map_eq_some_iff] at h ⊢
  rcases h with ⟨a0, ha0, rfl⟩
  have hdep :
      ∃ d0, plannedDeparture ba bd last inputSt = some d0 := by
    unfold plannedDeparture
    cases (eventInfo inputSt bd .departure).time with
    | some d => exact ⟨d, rfl⟩
    | none => exact ⟨a0, by simpa using ha0⟩
  rcases hdep with ⟨d0, hd0⟩
  refine ⟨max (atLeast last a0) d0, ⟨d0, hd0, ?_⟩, le_max_left _ _⟩
  simp [ha0]

/-- After a known departure, a stop has an arrival that does not precede it. -/
theorem builtStop_arrival_isSome
    {l : Datetime} (h : last = some l) :
    ∃ a, (builtStop ba bd last inputSt sp order).arrival = some a ∧
      l ≤ a := by
  subst h
  have harr :
      ∃ a0, plannedArrival ba bd (some l) inputSt = some a0 := by
    unfold plannedArrival
    cases (eventInfo inputSt ba .arrival).time with
    | some a => exact ⟨a, rfl⟩
    | none =>
        cases (eventInfo inputSt bd .departure).time with
        | some d => exact ⟨d, rfl⟩
        | none => exact ⟨l, rfl⟩
  rcases harr with ⟨a0, ha0⟩
  exact ⟨max l a0, by simp [builtStop, pushedTime, ha0], le_max_left _ _⟩

/-- A stop without arrival has no departure either. -/
theorem builtStop_departure_eq_none
    (h : (builtStop ba bd last inputSt sp order).arrival = none) :
    (builtStop ba bd last inputSt sp order).departure = none := by
  simp only [builtStop, pushedTime, Option.map_eq_none_iff] at h ⊢
  unfold plannedDeparture
  have hdep : (eventInfo inputSt bd .departure).time = none := by
    unfold plannedArrival at h
    cases hd : (eventInfo inputSt bd .departure).time with
    | none => rfl
    | some d =>
        rw [hd] at h
        cases hx : (eventInfo inputSt ba .arrival).time <;> simp [hx] at h
  rw [hdep, h]
  rfl

/-- A stop with a target arrival arrives there, or at the last departure. -/
theorem builtStop_arrival_of_target
    {t : Datetime} (h : (eventInfo inputSt ba .arrival).time = some t) :
    (builtStop ba bd last inputSt sp order).arrival = some (atLeast last t) ∧
      (builtStop ba bd last inputSt sp order).arrivalDelay =
        (eventInfo inputSt ba .arrival).delay.map
          (fun d => d + (atLeast last t - t)) := by
  simp [builtStop, plannedArrival, pushedTime, pushAmount, h]

/-- A stop with a target departure departs there, or at its arrival. -/
theorem builtStop_departure_of_target
    {t : Datetime} (h : (eventInfo inputSt bd .departure).time = some t) :
    ∃ a, (builtStop ba bd last inputSt sp order).arrival = some a ∧
      (builtStop ba bd last inputSt sp order).departure = some (max a t) ∧
      (builtStop ba bd last inputSt sp order).departureDelay =
        (eventInfo inputSt bd .departure).delay.map
          (fun d => d + (max a t - t)) := by
  have harr :
      ∃ a0, plannedArrival ba bd last inputSt = some a0 := by
    unfold plannedArrival
    cases (eventInfo inputSt ba .arrival).time with
    | some a => exact ⟨a, rfl⟩
    | none => exact ⟨t, by simp [h]⟩
  rcases harr with ⟨a0, ha0⟩
  refine ⟨atLeast last a0, ?_, ?_, ?_⟩
  · simp [builtStop, pushedTime, ha0]
  · simp [builtStop, plannedDeparture, pushedTime, ha0, h]
  · simp [builtStop, plannedDeparture, pushedTime, pushAmount, ha0, h]

/-- The departure of a stop is the floor for the next one. -/
theorem builtStop_departure_eq :
    (builtStop ba bd last inputSt sp order).departure =
      floorAfter (floorAfter last (eventInfo inputSt ba .arrival).time)
        (eventInfo inputSt bd .departure).time := by
  simp only [builtStop, plannedArrival, plannedDeparture, pushedTime,
    floorAfter]
  cases (eventInfo inputSt ba .arrival).time <;>
    cases (eventInfo inputSt bd .departure).time <;>
    cases last <;> simp

end BuiltStop

end Core
end Kirin
