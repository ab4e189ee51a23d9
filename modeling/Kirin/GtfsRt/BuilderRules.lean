import Kirin.Core.CalendarRules
import Kirin.GtfsRt.ModelMaker
import Kirin.Library.Checked

/-!
# Kirin: what the GTFS-RT builder makes

A feed that is accepted gives one stop time update for each stop of the vehicle
journey, with its index as order.  The delays of the feed are those of the last
stops, the stops it leaves out having none.

* `makeTripUpdate_builds`: the stops of a trip update made by the builder.
* `Builds.fits`: such a trip update is one the merge expects.
* `buildTripUpdates_ok`: so are all the trip updates of a feed.
-/

namespace Kirin
namespace GtfsRt

open Kirin.Core

/-- The delays a feed gives to a stop. -/
def inputDelays (s : InputStopTime) : Events Timedelta where
  arrival := s.arrivalDelay * second
  departure := s.departureDelay * second

/-- No delay at both events. -/
def noDelays : Events Timedelta where
  arrival := 0
  departure := 0

/-- The delays of the stops of a vehicle journey, by a feed on the last ones. -/
def givenDelays
    (stops : Nat) (feed : List InputStopTime) : List (Events Timedelta) :=
  List.replicate (stops - feed.length) noDelays ++ feed.map inputDelays

/-- A stop time update that only carries delays. -/
structure BuiltWith (d : Events Timedelta) (st : StopTimeUpdate) : Prop where
  status : ∀ e,
    st.getStopEventStatus e = delayStatus (st.getStopEventDelay e)
  delay : ∀ e, (st.getStopEventDelay e).getD 0 = d.get e
  nonzero : ∀ e, st.getStopEventDelay e ≠ some 0

theorem readDelay_getD
    (delay : Int) :
    (readDelay delay).getD 0 = delay * second := by
  unfold readDelay
  split
  · rename_i h
    simp [h]
  · rfl

theorem readDelay_ne_zero
    (delay : Int) :
    readDelay delay ≠ some 0 := by
  unfold readDelay
  split
  · simp
  · rename_i h
    rw [ne_eq, Option.some.injEq]
    exact Int.mul_ne_zero h (by decide)

theorem makeStoptimeUpdate_builtWith
    (s : InputStopTime) (navStop : StopPoint) (order : Nat) :
    BuiltWith (inputDelays s) (makeStoptimeUpdate s navStop order) where
  status := by
    intro e
    cases e <;> rfl
  delay := by
    intro e
    cases e
    · exact readDelay_getD s.arrivalDelay
    · exact readDelay_getD s.departureDelay
  nonzero := by
    intro e
    cases e
    · exact readDelay_ne_zero s.arrivalDelay
    · exact readDelay_ne_zero s.departureDelay

theorem initStopUpdate_builtWith
    (navStop : StopPoint) (order : Nat) :
    BuiltWith noDelays (initStopUpdate navStop order) where
  status := by
    intro e
    cases e <;> rfl
  delay := by
    intro e
    cases e <;> rfl
  nonzero := by
    intro e
    cases e <;> simp [initStopUpdate, StopTimeUpdate.getStopEventDelay]

/-- The stops of a trip update, as the builder makes them. -/
structure Builds
    (stopTimes : List StopTime) (delays : List (Events Timedelta))
    (stus : List StopTimeUpdate) : Prop where
  indexed : Indexed stus
  stops : List.Forall₂ (fun s st => s.stopId = some st.stopId) stopTimes stus
  builtWith : List.Forall₂ BuiltWith delays stus

/-- The backward walk gives the stops from the last one to the first one. -/
structure WalksBack
    (vjStops : List StopTime) (tuStops : List InputStopTime)
    (stus : List StopTimeUpdate) : Prop where
  length_le : tuStops.length ≤ vjStops.length
  orders : stus.map StopTimeUpdate.order = (List.range vjStops.length).reverse
  stops : List.Forall₂ (fun s st => s.stopId = some st.stopId) vjStops stus
  builtWith : List.Forall₂ BuiltWith
    (tuStops.map inputDelays ++
      List.replicate (vjStops.length - tuStops.length) noDelays) stus

theorem walkBack_walksBack
    {vjStops : List StopTime} {tuStops : List InputStopTime}
    {stus : List StopTimeUpdate} (h : walkBack vjStops tuStops = some stus) :
    WalksBack vjStops tuStops stus := by
  induction vjStops generalizing tuStops stus with
  | nil =>
      cases tuStops with
      | nil =>
          cases h
          exact ⟨le_refl 0, rfl, List.Forall₂.nil, List.Forall₂.nil⟩
      | cons tuStop tuStops =>
          cases h
  | cons vjStop vjStops ih =>
      have horders :
          ∀ (st : StopTimeUpdate) (rest : List StopTimeUpdate),
            st.order = vjStops.length →
            rest.map StopTimeUpdate.order =
              (List.range vjStops.length).reverse →
            (st :: rest).map StopTimeUpdate.order =
              (List.range (vjStop :: vjStops).length).reverse := by
        intro st rest hst hrest
        rw [List.map_cons, hst, hrest, List.length_cons, List.range_succ,
          List.reverse_append]
        rfl
      cases tuStops with
      | nil =>
          simp only [walkBack, Option.bind_eq_bind, Option.bind_eq_some_iff,
            Option.pure_def, Option.some.injEq] at h
          rcases h with ⟨sp, hsp, rest, hrest, rfl⟩
          obtain ⟨-, hord, hids, hbuilt⟩ := ih hrest
          refine ⟨Nat.zero_le _, horders _ _ rfl hord,
            List.Forall₂.cons ?_ hids,
            List.Forall₂.cons (initStopUpdate_builtWith sp _) hbuilt⟩
          simp [StopTime.stopId, hsp, initStopUpdate]
      | cons tuStop tuStops =>
          simp only [walkBack, Option.bind_eq_bind, Option.bind_eq_some_iff,
            Option.pure_def] at h
          rcases h with ⟨sp, hsp, h⟩
          split at h
          · simp only [Option.bind_eq_some_iff, Option.some.injEq] at h
            rcases h with ⟨rest, hrest, rfl⟩
            obtain ⟨hlen, hord, hids, hbuilt⟩ := ih hrest
            refine ⟨Nat.succ_le_succ hlen, horders _ _ rfl hord,
              List.Forall₂.cons ?_ hids, ?_⟩
            · simp [StopTime.stopId, hsp, makeStoptimeUpdate]
            · rw [List.length_cons, List.length_cons, Nat.succ_sub_succ]
              exact List.Forall₂.cons (makeStoptimeUpdate_builtWith tuStop sp _)
                hbuilt
          · cases h

/-- Sorting stops whose orders decrease reverses them. -/
theorem insertionSort_of_decreasing
    {stus : List StopTimeUpdate}
    (h : stus.Pairwise (fun a b => b.order < a.order)) :
    stus.insertionSort (fun a b => a.order ≤ b.order) = stus.reverse := by
  induction stus with
  | nil =>
      rfl
  | cons st rest ih =>
      rw [List.pairwise_cons] at h
      have hlast :
          ∀ l : List StopTimeUpdate, (∀ x ∈ l, x.order < st.order) →
            l.orderedInsert (fun a b => a.order ≤ b.order) st = l ++ [st] := by
        intro l hl
        induction l with
        | nil =>
            rfl
        | cons x l ihl =>
            rw [List.forall_mem_cons] at hl
            rw [List.orderedInsert_cons, if_neg (not_le.2 hl.1), ihl hl.2]
            rfl
      rw [List.insertionSort_cons, ih h.2, List.reverse_cons]
      exact hlast _ (fun x hx => h.1 x (List.mem_reverse.1 hx))

theorem WalksBack.sorted
    {vjStops : List StopTime} {tuStops : List InputStopTime}
    {stus : List StopTimeUpdate}
    (h : WalksBack vjStops.reverse tuStops.reverse stus) :
    Builds vjStops (givenDelays vjStops.length tuStops)
      (stus.insertionSort (fun a b => a.order ≤ b.order)) := by
  have hdecreasing : stus.Pairwise (fun a b => b.order < a.order) := by
    have hpair :
        (stus.map StopTimeUpdate.order).Pairwise (fun i j => j < i) := by
      rw [h.orders]
      exact List.pairwise_reverse.2 List.pairwise_lt_range
    exact List.pairwise_map.1 hpair
  have hlength : stus.length = vjStops.length := by
    rw [← h.stops.length_eq, List.length_reverse]
  rw [insertionSort_of_decreasing hdecreasing]
  refine ⟨?_, ?_, ?_⟩
  · rw [Indexed, List.map_reverse, h.orders, List.reverse_reverse,
      List.length_reverse, List.length_reverse, hlength]
  · rw [← List.forall₂_reverse_iff, List.reverse_reverse]
    exact h.stops
  · have hbuilt := h.builtWith
    rw [← List.forall₂_reverse_iff, List.reverse_append,
      List.reverse_replicate, ← List.map_reverse, List.reverse_reverse,
      List.length_reverse, List.length_reverse] at hbuilt
    exact hbuilt

/-- The trip updates made by the builder. -/
theorem makeTripUpdate_builds
    {contributorId : String} {vj : VehicleJourney} {navitiaVj : NavitiaVj}
    {feed : List InputStopTime} {new : NewTripUpdate}
    (h : makeTripUpdate contributorId vj navitiaVj feed = some new) :
    new.vj = vj ∧ new.navitiaVj = navitiaVj ∧ new.status = .none ∧
      Builds navitiaVj.stopTimes
        (givenDelays navitiaVj.stopTimes.length feed) new.stopTimeUpdates := by
  unfold makeTripUpdate at h
  split at h
  · cases h
  · rename_i stus hwalk
    cases h
    exact ⟨rfl, rfl, rfl, (walkBack_walksBack hwalk).sorted⟩

/-- An update made by the builder carries its delay. -/
theorem BuiltWith.carriesDelays
    {d : Events Timedelta} {st : StopTimeUpdate} (h : BuiltWith d st) :
    CarriesDelays st := by
  intro e hupdate
  rw [h.status, delayStatus] at hupdate
  cases hdelay : st.getStopEventDelay e with
  | none =>
      simp [hdelay] at hupdate
  | some d =>
      rfl

/-- An event without delay has no status. -/
theorem BuiltWith.status_of_zero
    {d : Events Timedelta} {st : StopTimeUpdate} (h : BuiltWith d st)
    {e : StopEvent} (hzero : d.get e = 0) :
    st.getStopEventStatus e = .none ∧ (st.getStopEventDelay e).getD 0 = 0 := by
  have hdelay := h.delay e
  rw [hzero] at hdelay
  refine ⟨?_, hdelay⟩
  rw [h.status]
  cases hd : st.getStopEventDelay e with
  | none =>
      rfl
  | some delay =>
      rw [hd] at hdelay
      have hdelay' : delay = 0 := hdelay
      exact absurd (hdelay' ▸ hd) (h.nonzero e)

/-- An event made by the builder is served, at its base datetime and delay. -/
theorem BuiltWith.event
    {d : Events Timedelta} {st : StopTimeUpdate} (h : BuiltWith d st)
    (e : StopEvent) (base : Option Datetime) :
    st.isStopEventDeleted e = false ∧
      (eventInfo st base e).time = base.map (fun t => t + d.get e) ∧
      (eventInfo st base e).delay = some (d.get e) := by
  have hstatus := h.status e
  have hdelay := h.delay e
  cases hd : st.getStopEventDelay e with
  | none =>
      rw [hd] at hstatus hdelay
      have hnone : st.getStopEventStatus e = .none := hstatus
      have hzero : d.get e = 0 := hdelay.symm
      rw [eventInfo_of_none hnone, hzero]
      refine ⟨by simp [StopTimeUpdate.isStopEventDeleted, hnone,
        ModificationType.isDeleted], ?_, rfl⟩
      cases base <;> simp
  | some delay =>
      rw [hd] at hstatus hdelay
      have hupdate : st.getStopEventStatus e = .update := hstatus
      have hsome : d.get e = delay := hdelay.symm
      refine ⟨by simp [StopTimeUpdate.isStopEventDeleted, hupdate,
        ModificationType.isDeleted], ?_, ?_⟩
      · rw [eventInfo_of_update hupdate, hd, hsome]
        rfl
      · rw [eventInfo_of_update hupdate, hd, hsome]

section Feed

variable {contributorId : String} {vj : VehicleJourney}
variable {navitiaVj : NavitiaVj} {feed : List InputStopTime}
variable {new : NewTripUpdate}

theorem Builds.carriesDelays
    {delays : List (Events Timedelta)}
    (h : Builds navitiaVj.stopTimes delays new.stopTimeUpdates) :
    FeedCarriesDelays new := by
  intro st hst
  obtain ⟨d, -, hbuilt⟩ := RelatedLists.exists_of_mem_right h.builtWith hst
  exact hbuilt.carriesDelays

/-- A trip update made by the builder lists the stops of the vehicle journey. -/
theorem Builds.fits
    {delays : List (Events Timedelta)}
    (h : Builds navitiaVj.stopTimes delays new.stopTimeUpdates) :
    FitsVj false navitiaVj new where
  indexed := h.indexed
  stops := fun _ => h.stops

/-- The effect of a trip update is that of the statuses of its stops. -/
theorem makeTripUpdate_effect
    (h : makeTripUpdate contributorId vj navitiaVj feed = some new) :
    EffectInDatabase new.toTripUpdate := by
  unfold makeTripUpdate at h
  split at h
  · cases h
  · cases h
    exact effectInDatabase_of_eq rfl (getEffectByStopTimeStatus_inDatabase _)

/-- The trip updates of a feed are those the merge expects. -/
theorem buildTripUpdates_ok
    {services : Services} {newId : String → String} {raw : RawData}
    {built : BuiltFeed}
    (h : buildTripUpdates services contributorId newId raw = .ok built) :
    ∀ new ∈ built.tripUpdates,
      FitsVj false new.navitiaVj new ∧ EffectInDatabase new.toTripUpdate := by
  cases raw with
  | notProtobuf =>
      cases h
  | message timestamp entity =>
      simp only [buildTripUpdates, Checked.bind_eq_ok, Checked.pure_eq_ok,
        Checked.mapM_eq_ok] at h
      obtain ⟨inputDataTime, -, tus, htus, rfl⟩ := h
      intro new hnew
      obtain ⟨ts, hts, hmem⟩ := List.mem_flatten.1 hnew
      obtain ⟨input, -, hone⟩ := RelatedLists.exists_of_mem_right htus hts
      simp only [makeTripUpdates, Checked.bind_eq_ok, Checked.pure_eq_ok] at hone
      obtain ⟨vjs, -, rfl⟩ := hone
      obtain ⟨found, -, hmade⟩ := List.mem_filterMap.1 hmem
      obtain ⟨-, hnavitia, -, hbuilds⟩ := makeTripUpdate_builds hmade
      rw [hnavitia]
      exact ⟨hbuilds.fits, makeTripUpdate_effect hmade⟩

/-- A trip update of a feed is made for a vehicle journey of one of its entities. -/
theorem mem_buildTripUpdates
    {services : Services} {newId : String → String} {raw : RawData}
    {built : BuiltFeed}
    (h : buildTripUpdates services contributorId newId raw = .ok built)
    (hnew : new ∈ built.tripUpdates) :
    ∃ (found : FoundVj) (input : InputTripUpdate),
      makeTripUpdate contributorId found.vj found.navVj.toNavitiaVj
        input.stopTimeUpdate = some new := by
  cases raw with
  | notProtobuf =>
      cases h
  | message timestamp entity =>
      simp only [buildTripUpdates, Checked.bind_eq_ok, Checked.pure_eq_ok,
        Checked.mapM_eq_ok] at h
      obtain ⟨inputDataTime, -, tus, htus, rfl⟩ := h
      obtain ⟨ts, hts, hmem⟩ := List.mem_flatten.1 hnew
      obtain ⟨input, -, hone⟩ := RelatedLists.exists_of_mem_right htus hts
      simp only [makeTripUpdates, Checked.bind_eq_ok, Checked.pure_eq_ok] at hone
      obtain ⟨vjs, -, rfl⟩ := hone
      obtain ⟨found, -, hmade⟩ := List.mem_filterMap.1 hmem
      exact ⟨found, input, hmade⟩

/-- The trip updates of a feed are those of its contributor. -/
theorem buildTripUpdates_contributorId
    {services : Services} {newId : String → String} {raw : RawData}
    {built : BuiltFeed}
    (h : buildTripUpdates services contributorId newId raw = .ok built)
    (hnew : new ∈ built.tripUpdates) :
    new.contributorId = contributorId := by
  obtain ⟨found, input, hmade⟩ := mem_buildTripUpdates h hnew
  unfold makeTripUpdate at hmade
  split at hmade <;> cases hmade
  rfl

end Feed

end GtfsRt
end Kirin
