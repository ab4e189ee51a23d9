import Kirin.GtfsRt.BuilderRules

/-!
# Kirin: the stops that a GTFS-RT feed is matched with

The loop of `_make_trip_updates` over the stops of one vehicle journey, with the
variables that it changes: it goes on, or leaves the trip update it has begun
without any stop.  `walkBack` is what it computes when it goes on to its end.

* `matchStops_of_walkBack`, `matchStops_of_none`: the loop does the walk.
* `makeTripUpdate_eq`: the trip updates that are kept are the valid ones.
* `walkBack_isSome_iff`: the walk ends when the stops match.
* `matchTrip_matches`: the trips that are accepted, and their stops.
-/

namespace Kirin
namespace GtfsRt

open Kirin.Core

/-- `itertools.izip_longest`. -/
def izipLongest {α β : Type} : List α → List β → List (Option α × Option β)
  | [], bs => bs.map (fun b => (none, some b))
  | as, [] => as.map (fun a => (some a, none))
  | a :: as, b :: bs => (some a, some b) :: izipLongest as bs

/-- The variables of the loop. -/
structure StopMatching where
  isTuValid : Bool
  vjStopOrder : Int
  stopTimeUpdates : List StopTimeUpdate
  highestStStatus : ModificationType
deriving DecidableEq, Repr

namespace StopMatching

/-- The stops do not match. -/
def invalid (m : StopMatching) : StopMatching :=
  { m with isTuValid := false }

/-- The end of a turn of the loop. -/
def append (m : StopMatching) (stUpdate : StopTimeUpdate) : StopMatching where
  isTuValid := m.isTuValid
  vjStopOrder := m.vjStopOrder - 1
  stopTimeUpdates := m.stopTimeUpdates ++ [stUpdate]
  highestStStatus :=
    getHigherStatus (getHigherStatus m.highestStStatus stUpdate.departureStatus)
      stUpdate.arrivalStatus

end StopMatching

/-- The loop over the stops of the vehicle journey and those of the feed. -/
def matchStops :
    StopMatching → List (Option StopTime × Option InputStopTime) → StopMatching
  | m, [] => m
  | m, (none, _) :: _ => m.invalid
  | m, (some vjStop, tuStop) :: rest =>
      match vjStop.stopPoint with
      | none => m.invalid
      | some vjStopPoint =>
          match tuStop with
          | some tuStop =>
              if getStopCode vjStopPoint ≠ some tuStop.stopId then m.invalid
              else
                matchStops (m.append (makeStoptimeUpdate tuStop vjStopPoint
                  m.vjStopOrder.toNat)) rest
          | none =>
              matchStops (m.append (initStopUpdate vjStopPoint
                m.vjStopOrder.toNat)) rest

/-- A trip update that is begun, and whether its stops match. -/
structure MatchedTrip where
  isTuValid : Bool
  tripUpdate : NewTripUpdate
deriving DecidableEq, Repr

/-- The turn of `_make_trip_updates` for one vehicle journey. -/
def matchTrip
    (contributorId : String) (vj : VehicleJourney) (navitiaVj : NavitiaVj)
    (stopTimeUpdate : List InputStopTime) : MatchedTrip :=
  let tripUpdate : NewTripUpdate :=
    { vj := vj
      status := .none
      message := none
      companyId := none
      effect := none
      physicalModeId := none
      headsign := none
      contributorId := contributorId
      stopTimeUpdates := []
      navitiaVj := navitiaVj }
  let m := matchStops
    { isTuValid := true
      vjStopOrder := navitiaVj.stopTimes.length - 1
      stopTimeUpdates := []
      highestStStatus := .none }
    (izipLongest navitiaVj.stopTimes.reverse stopTimeUpdate.reverse)
  if m.isTuValid then
    { isTuValid := true
      tripUpdate :=
        { tripUpdate with
          effect := some (getEffectByStopTimeStatus m.highestStStatus)
          stopTimeUpdates :=
            m.stopTimeUpdates.insertionSort (fun x y => x.order ≤ y.order) } }
  else { isTuValid := false, tripUpdate := tripUpdate }

section Loop

variable {m : StopMatching} {vjStops : List StopTime}
variable {tuStops : List InputStopTime} {stus : List StopTimeUpdate}

theorem izipLongest_nil_right
    {α β : Type} (as : List α) :
    izipLongest as ([] : List β) = as.map (fun a => (some a, none)) := by
  cases as <;> rfl

theorem izipLongest_cons_nil
    {α β : Type} (a : α) (as : List α) :
    izipLongest (a :: as) ([] : List β) =
      (some a, none) :: izipLongest as [] := by
  rw [izipLongest_nil_right, izipLongest_nil_right, List.map_cons]

/-- A walk that goes to its end gives the stops of the loop. -/
theorem matchStops_of_walkBack
    (horder : m.vjStopOrder = vjStops.length - 1)
    (h : walkBack vjStops tuStops = some stus) :
    let m' := matchStops m (izipLongest vjStops tuStops)
    m'.isTuValid = m.isTuValid ∧
      m'.stopTimeUpdates = m.stopTimeUpdates ++ stus ∧
      m'.highestStStatus = stus.foldl
        (fun highest stu =>
          getHigherStatus (getHigherStatus highest stu.departureStatus)
            stu.arrivalStatus)
        m.highestStStatus := by
  induction vjStops generalizing tuStops stus m with
  | nil =>
      cases tuStops with
      | nil =>
          cases h
          exact ⟨rfl, (List.append_nil _).symm, rfl⟩
      | cons tuStop tuStops =>
          cases h
  | cons vjStop vjStops ih =>
      have hnat : m.vjStopOrder.toNat = vjStops.length := by
        rw [horder, List.length_cons]
        omega
      have hnext : ∀ st, (m.append st).vjStopOrder = vjStops.length - 1 := by
        intro st
        have hlength : (m.append st).vjStopOrder = m.vjStopOrder - 1 := rfl
        rw [hlength, horder, List.length_cons]
        omega
      cases tuStops with
      | nil =>
          simp only [walkBack, Option.bind_eq_bind, Option.bind_eq_some_iff,
            Option.pure_def, Option.some.injEq] at h
          rcases h with ⟨sp, hsp, rest, hrest, rfl⟩
          obtain ⟨hvalid, hstus, hhighest⟩ := ih (hnext _) hrest
          simp only [izipLongest_cons_nil, matchStops, hsp, hnat]
          refine ⟨hvalid, hstus.trans ?_, hhighest⟩
          exact List.append_assoc _ _ _
      | cons tuStop tuStops =>
          simp only [walkBack, Option.bind_eq_bind, Option.bind_eq_some_iff,
            Option.pure_def] at h
          rcases h with ⟨sp, hsp, h⟩
          split at h
          · rename_i hcode
            simp only [Option.bind_eq_some_iff, Option.some.injEq] at h
            rcases h with ⟨rest, hrest, rfl⟩
            obtain ⟨hvalid, hstus, hhighest⟩ := ih (hnext _) hrest
            simp only [izipLongest, matchStops, hsp, hcode, ne_eq,
              not_true_eq_false, if_false, hnat]
            refine ⟨hvalid, hstus.trans ?_, hhighest⟩
            exact List.append_assoc _ _ _
          · cases h

/-- A walk that does not go to its end is an invalid trip. -/
theorem matchStops_of_none
    (h : walkBack vjStops tuStops = none) :
    (matchStops m (izipLongest vjStops tuStops)).isTuValid = false := by
  induction vjStops generalizing tuStops m with
  | nil =>
      cases tuStops with
      | nil =>
          cases h
      | cons tuStop tuStops =>
          rfl
  | cons vjStop vjStops ih =>
      cases hsp : vjStop.stopPoint with
      | none =>
          cases tuStops <;> simp [izipLongest, matchStops, hsp,
            StopMatching.invalid]
      | some sp =>
          cases tuStops with
          | nil =>
              cases hrest : walkBack vjStops [] with
              | none =>
                  simp only [izipLongest_cons_nil, matchStops, hsp]
                  exact ih hrest
              | some rest =>
                  simp [walkBack, hsp, hrest] at h
          | cons tuStop tuStops =>
              by_cases hcode : getStopCode sp = some tuStop.stopId
              · cases hrest : walkBack vjStops tuStops with
                | none =>
                    simp only [izipLongest, matchStops, hsp, hcode, ne_eq,
                      not_true_eq_false, if_false]
                    exact ih hrest
                | some rest =>
                    simp [walkBack, hsp, hcode, hrest] at h
              · simp [izipLongest, matchStops, hsp, hcode,
                  StopMatching.invalid]

/-- The trip updates that are kept are the valid ones. -/
theorem makeTripUpdate_eq
    (contributorId : String) (vj : VehicleJourney) (navitiaVj : NavitiaVj)
    (feed : List InputStopTime) :
    makeTripUpdate contributorId vj navitiaVj feed =
      if (matchTrip contributorId vj navitiaVj feed).isTuValid then
        some (matchTrip contributorId vj navitiaVj feed).tripUpdate
      else none := by
  cases hwalk : walkBack navitiaVj.stopTimes.reverse feed.reverse with
  | none =>
      simp [makeTripUpdate, matchTrip, hwalk, matchStops_of_none hwalk]
  | some stus =>
      have horder : (navitiaVj.stopTimes.length : Int) - 1 =
          navitiaVj.stopTimes.reverse.length - 1 := by
        rw [List.length_reverse]
      obtain ⟨hvalid, hstus, hhighest⟩ := matchStops_of_walkBack
        (m := ⟨true, navitiaVj.stopTimes.length - 1, [], .none⟩) horder hwalk
      simp only at hvalid hstus hhighest
      simp only [makeTripUpdate, matchTrip, hwalk, hvalid, if_true, hstus,
        hhighest, List.nil_append]
      rfl

end Loop

section Suffix

/-- The source code of the stop point of a stop time, if it has any. -/
def stopCodeOf (stopTime : Option StopTime) : Option String :=
  (stopTime.bind StopTime.stopPoint).bind getStopCode

/-- The delay of a stop of the feed at one event, in seconds. -/
def InputStopTime.delay (s : InputStopTime) : StopEvent → Int
  | .arrival => s.arrivalDelay
  | .departure => s.departureDelay

/--
The stops of a feed are the last ones of a vehicle journey, all of whose stops
have a stop point.
-/
structure MatchesSuffix
    (stopTimes : List StopTime) (feed : List InputStopTime) : Prop where
  stopPoints : ∀ s ∈ stopTimes, s.stopPoint.isSome
  length_le : feed.length ≤ stopTimes.length
  codes : ∀ k < feed.length,
    stopCodeOf stopTimes[stopTimes.length - 1 - k]? =
      (feed[feed.length - 1 - k]?).map InputStopTime.stopId

/-- An event that a feed gives a number of seconds of delay, zero for none. -/
def GivenDelay (st : StopTimeUpdate) (e : StopEvent) (seconds : Int) : Prop :=
  if seconds = 0 then
    st.getStopEventDelay e = none ∧ st.getStopEventStatus e = .none
  else
    st.getStopEventDelay e = some (seconds * second) ∧
      st.getStopEventStatus e = .update

/--
There is one stop for each one of the vehicle journey, the last ones with the
delays of the feed and the other ones without delay.
-/
structure StopsMatched
    (stopTimes : List StopTime) (feed : List InputStopTime)
    (stus : List StopTimeUpdate) : Prop where
  length_eq : stus.length = stopTimes.length
  stops : ∀ (i : Nat) (s : StopTime) (st : StopTimeUpdate),
    stopTimes[i]? = some s → stus[i]? = some st →
    st.order = i ∧ s.stopId = some st.stopId
  before : ∀ (i : Nat) (st : StopTimeUpdate) (e : StopEvent),
    stus[i]? = some st → i < stopTimes.length - feed.length → GivenDelay st e 0
  given : ∀ (k : Nat) (tu : InputStopTime) (st : StopTimeUpdate)
    (e : StopEvent), feed[k]? = some tu →
    stus[stopTimes.length - feed.length + k]? = some st →
    GivenDelay st e (tu.delay e)

variable {vjStops : List StopTime} {tuStops : List InputStopTime}

theorem isSome_bind_some
    {α β : Type} (x : Option α) (f : α → β) :
    (x.bind (fun a => some (f a))).isSome = x.isSome := by
  cases x <;> rfl

/-- The walk goes to its end when the lists, reversed, match from the start. -/
theorem walkBack_isSome_iff
    (vjStops : List StopTime) (tuStops : List InputStopTime) :
    (walkBack vjStops tuStops).isSome = true ↔
      (∀ s ∈ vjStops, s.stopPoint.isSome) ∧
        tuStops.length ≤ vjStops.length ∧
        ∀ k < tuStops.length,
          stopCodeOf vjStops[k]? = (tuStops[k]?).map InputStopTime.stopId := by
  induction vjStops generalizing tuStops with
  | nil =>
      cases tuStops <;> simp [walkBack]
  | cons vjStop vjStops ih =>
      cases hsp : vjStop.stopPoint with
      | none =>
          cases tuStops <;> simp [walkBack, hsp]
      | some sp =>
          cases tuStops with
          | nil =>
              have hrest := ih []
              simp only [List.length_nil, Nat.zero_le, Nat.not_lt_zero,
                false_imp_iff, implies_true, and_true] at hrest
              simp [walkBack, hsp, isSome_bind_some, hrest]
          | cons tuStop tuStops =>
              have hfirst : stopCodeOf (vjStop :: vjStops)[0]? =
                  getStopCode sp := by
                simp [stopCodeOf, hsp]
              have hwalk : (walkBack (vjStop :: vjStops)
                  (tuStop :: tuStops)).isSome = true ↔
                  getStopCode sp = some tuStop.stopId ∧
                    (walkBack vjStops tuStops).isSome = true := by
                by_cases hcode : getStopCode sp = some tuStop.stopId <;>
                  simp [walkBack, hsp, hcode, isSome_bind_some]
              rw [hwalk, ih tuStops, List.forall_mem_cons,
                List.length_cons, List.length_cons, Nat.forall_lt_succ_left,
                hfirst, hsp, Nat.add_le_add_iff_right]
              simp only [List.getElem?_cons_zero, List.getElem?_cons_succ,
                Option.map_some, Option.isSome_some, true_and]
              tauto

/-- The walk goes to its end exactly when the stops match. -/
theorem walkBack_reverse_iff
    (stopTimes : List StopTime) (feed : List InputStopTime) :
    (walkBack stopTimes.reverse feed.reverse).isSome = true ↔
      MatchesSuffix stopTimes feed := by
  have hcodes : feed.length ≤ stopTimes.length →
      ((∀ k < feed.length, stopCodeOf stopTimes.reverse[k]? =
          (feed.reverse[k]?).map InputStopTime.stopId) ↔
        ∀ k < feed.length,
          stopCodeOf stopTimes[stopTimes.length - 1 - k]? =
            (feed[feed.length - 1 - k]?).map InputStopTime.stopId) := by
    intro hle
    refine forall₂_congr (fun k hk => ?_)
    rw [List.getElem?_reverse hk,
      List.getElem?_reverse (Nat.lt_of_lt_of_le hk hle)]
  rw [walkBack_isSome_iff]
  simp only [List.mem_reverse, List.length_reverse]
  constructor
  · rintro ⟨hpoints, hle, hrest⟩
    exact ⟨hpoints, hle, (hcodes hle).1 hrest⟩
  · rintro ⟨hpoints, hle, hrest⟩
    exact ⟨hpoints, hle, (hcodes hle).2 hrest⟩

/-- A stop that carries some delays is given those of the feed. -/
theorem BuiltWith.givenDelay
    {d : Events Timedelta} {st : StopTimeUpdate} (h : BuiltWith d st)
    {e : StopEvent} {seconds : Int} (hd : d.get e = seconds * second) :
    GivenDelay st e seconds := by
  have hstatus := h.status e
  have hdelay := h.delay e
  have hnonzero := h.nonzero e
  rw [hd] at hdelay
  cases hst : st.getStopEventDelay e with
  | none =>
      rw [hst] at hstatus hdelay
      have hzero : seconds * second = 0 := hdelay.symm
      have hseconds : seconds = 0 :=
        (Int.mul_eq_zero.1 hzero).resolve_right (by decide)
      rw [GivenDelay, if_pos hseconds]
      exact ⟨hst, hstatus⟩
  | some delay =>
      rw [hst] at hstatus hdelay hnonzero
      have heq : delay = seconds * second := hdelay
      have hseconds : seconds ≠ 0 := by
        rintro rfl
        exact hnonzero (by rw [heq, Int.zero_mul])
      rw [GivenDelay, if_neg hseconds]
      exact ⟨by rw [hst, heq], hstatus⟩

/-- The stops that the builder makes of a feed that it accepts. -/
theorem Builds.stopsMatched
    {stopTimes : List StopTime} {feed : List InputStopTime}
    {stus : List StopTimeUpdate}
    (h : Builds stopTimes (givenDelays stopTimes.length feed) stus) :
    StopsMatched stopTimes feed stus where
  length_eq := h.stops.length_eq.symm
  stops := by
    intro i s st hs hst
    exact ⟨h.indexed.getElem?_order hst,
      RelatedLists.of_getElem? h.stops hs hst⟩
  before := by
    intro i st e hst hi
    have hdelay : (givenDelays stopTimes.length feed)[i]? =
        some noDelays := by
      rw [givenDelays, List.getElem?_append_left (by simpa using hi),
        List.getElem?_replicate, if_pos hi]
    refine (RelatedLists.of_getElem? h.builtWith hdelay hst).givenDelay ?_
    cases e <;> rfl
  given := by
    intro k tu st e htu hst
    have hdelay : (givenDelays stopTimes.length feed)[
        stopTimes.length - feed.length + k]? = some (inputDelays tu) := by
      rw [givenDelays, List.getElem?_append_right (by simp),
        List.length_replicate, Nat.add_sub_cancel_left, List.getElem?_map,
        htu]
      rfl
    refine (RelatedLists.of_getElem? h.builtWith hdelay hst).givenDelay ?_
    cases e <;> rfl

/--
A trip is accepted exactly when the stops of the feed are the last ones of its
vehicle journey.  It then has all the stops of the vehicle journey, and no stop
at all otherwise.
-/
theorem matchTrip_matches
    (contributorId : String) (vj : VehicleJourney) (navitiaVj : NavitiaVj)
    (feed : List InputStopTime) :
    let matched := matchTrip contributorId vj navitiaVj feed
    (matched.isTuValid = true ↔ MatchesSuffix navitiaVj.stopTimes feed) ∧
      (matched.isTuValid = true →
        StopsMatched navitiaVj.stopTimes feed
          matched.tripUpdate.stopTimeUpdates) ∧
      (matched.isTuValid = false →
        matched.tripUpdate.stopTimeUpdates = []) ∧
      makeTripUpdate contributorId vj navitiaVj feed =
        if matched.isTuValid then some matched.tripUpdate else none := by
  have hmade := makeTripUpdate_eq contributorId vj navitiaVj feed
  have hvalid : (matchTrip contributorId vj navitiaVj feed).isTuValid = true ↔
      MatchesSuffix navitiaVj.stopTimes feed := by
    rw [← walkBack_reverse_iff]
    cases hwalk : walkBack navitiaVj.stopTimes.reverse feed.reverse with
    | none =>
        simp [matchTrip, matchStops_of_none hwalk]
    | some stus =>
        by_cases h : (matchTrip contributorId vj navitiaVj feed).isTuValid
        · simp [h]
        · rw [if_neg h, makeTripUpdate, hwalk] at hmade
          cases hmade
  refine ⟨hvalid, fun h => ?_, fun h => ?_, hmade⟩
  · rw [if_pos h] at hmade
    exact (makeTripUpdate_builds hmade).2.2.2.stopsMatched
  · simp only [matchTrip] at h ⊢
    split
    · rename_i htrue
      rw [if_pos htrue] at h
      cases h
    · rfl

end Suffix

namespace Sample

/-- A vehicle journey that comes back to its second stop. -/
def lollipop : NavitiaVj where
  stopTimes :=
    [Core.Sample.stopTime "a" (Core.Sample.clock 8 0) (Core.Sample.clock 8 0),
      Core.Sample.stopTime "b" (Core.Sample.clock 8 5) (Core.Sample.clock 8 5),
      Core.Sample.stopTime "c" (Core.Sample.clock 8 9) (Core.Sample.clock 8 9),
      Core.Sample.stopTime "b" (Core.Sample.clock 9 0) (Core.Sample.clock 9 0)]

/-- A feed on the second passage. -/
def secondPassage : List InputStopTime :=
  [{ stopId := "c", arrivalDelay := 0, departureDelay := 60 },
    { stopId := "b", arrivalDelay := 120, departureDelay := 0 }]

end Sample

/-- The feed on the second passage is accepted, and its delays are there. -/
theorem matchTrip_lollipop :
    let matched := matchTrip "realtime.gtfs"
      (Core.Sample.trip (Core.Sample.clock 8 0)) Sample.lollipop
      Sample.secondPassage
    matched.isTuValid = true ∧
      MatchesSuffix Sample.lollipop.stopTimes Sample.secondPassage ∧
      StopsMatched Sample.lollipop.stopTimes Sample.secondPassage
        matched.tripUpdate.stopTimeUpdates ∧
      matched.tripUpdate.stopTimeUpdates.map StopTimeUpdate.arrivalDelay =
        [none, none, none, some (120 * second)] := by
  have hmatched := matchTrip_matches "realtime.gtfs"
    (Core.Sample.trip (Core.Sample.clock 8 0)) Sample.lollipop
    Sample.secondPassage
  obtain ⟨hvalid, hstops, -⟩ := hmatched
  have htrue : (matchTrip "realtime.gtfs"
      (Core.Sample.trip (Core.Sample.clock 8 0)) Sample.lollipop
      Sample.secondPassage).isTuValid = true := by
    decide
  exact ⟨htrue, hvalid.1 htrue, hstops htrue, by decide⟩

end GtfsRt
end Kirin
