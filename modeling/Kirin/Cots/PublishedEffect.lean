import Kirin.Core.StopStatuses
import Kirin.Cots.AddedTrain

/-!
# Kirin: the published effect of a COTS feed

The builder gives a trip that is neither added nor deleted the effect of the
statuses of its points, which is documented.  The merge then leaves out the last
points that it does not know, and keeps the effect.

* `makePdp_highestStStatus`: the loop over the points keeps the highest status.
* `buildTripUpdates_effect`: the effect of the trip updates of a feed.
* `published_effect_iff`: the effect is the one of the published stops exactly
  when the stops left out do not prevail.
-/

namespace Kirin
namespace Cots

open Kirin.Core

section Points

variable {services : Services} {navVj : NavVj} {st st' : PdpState}
variable {pdps : List Pdp} {pdp : Pdp}

/-- The highest status is that of the stops, over the loop on the points. -/
theorem makePdp_highestStStatus
    (h : makePdp services navVj st pdp = .ok st')
    (hst : st.highestStStatus = highestStatus (eventStatuses st.stopTimeUpdates)) :
    st'.highestStStatus =
      highestStatus (eventStatuses st'.stopTimeUpdates) := by
  rcases makePdp_ok h with ⟨-, rfl⟩ |
    ⟨navStop, arrival, departure, pdpCode, stUpdate, -, -, -, -, -, harrival,
      hdeparture, rfl⟩
  · exact hst
  · rw [← harrival, ← hdeparture, eventStatuses_append, highestStatus,
      List.foldl_append, ← highestStatus, ← hst]
    rfl

theorem foldlM_makePdp_highestStStatus
    (h : pdps.foldlM (makePdp services navVj) st = .ok st')
    (hst : st.highestStStatus = highestStatus (eventStatuses st.stopTimeUpdates)) :
    st'.highestStStatus =
      highestStatus (eventStatuses st'.stopTimeUpdates) := by
  refine Checked.foldlM_invariant
    (P := fun st => st.highestStStatus =
      highestStatus (eventStatuses st.stopTimeUpdates)) ?_ h hst
  intro st1 pdp st2 _ hst1 h1
  exact makePdp_highestStStatus h1 hst1

end Points

section Feed

variable {services : Services} {contributorId : String}
variable {newId : String → String} {rows : List TripUpdate} {raw : RawData}
variable {ts : List NewTripUpdate} {t : NewTripUpdate}

/-- A trip that is neither added nor deleted has the effect of its points. -/
theorem makeTripUpdate_effect
    {jsonTrain : DictVersion} {found : FoundVj} {action : ActionOnTrip}
    (h : makeTripUpdate services contributorId jsonTrain found action = .ok t)
    (hstatus : t.status = .update) :
    t.effect = some (documentedEffect (eventStatuses t.stopTimeUpdates)) := by
  have hmade := makeTripUpdate_ok h
  have hrunning : jsonTrain.statutOperationnel ≠ some .supprimee := by
    intro hcancelled
    rw [(hmade.cancelled hcancelled).1] at hstatus
    cases hstatus
  have hnotAdded : action = .notAdded := by
    by_contra hadded
    rw [hmade.added hrunning hadded] at hstatus
    cases hstatus
  obtain ⟨st, hst, -, -, -, hstus, -, hupdated⟩ :=
    makeTripUpdate_running h hrunning
  have hhighest := foldlM_makePdp_highestStStatus hst rfl
  rw [(hupdated hnotAdded).2, hstus, ← getEffect_highestStatus, ← hhighest]

/-- So has every trip of a feed, whose stops have their indexes as orders. -/
theorem buildTripUpdates_effect
    (h : buildTripUpdates services contributorId newId rows raw = .ok ts)
    (ht : t ∈ ts) (hstatus : t.status = .update) :
    Indexed t.stopTimeUpdates ∧
      t.effect = some (documentedEffect (eventStatuses t.stopTimeUpdates)) := by
  simp only [buildTripUpdates, Checked.bind_eq_ok] at h
  obtain ⟨v, -, n, -, listPdp, -, h⟩ := h
  split at h
  · cases h
  · simp only [Checked.bind_eq_ok, Checked.mapM_eq_ok] at h
    obtain ⟨action, -, vjs, -, hts⟩ := h
    obtain ⟨i, hi⟩ := List.getElem?_of_mem ht
    obtain ⟨hlt, hget⟩ := List.getElem?_eq_some_iff.1 hi
    have hmade := hts.get (hts.length_eq ▸ hlt) hlt
    rw [List.get_eq_getElem, List.get_eq_getElem, hget] at hmade
    exact ⟨(makeTripUpdate_ok hmade).indexed,
      makeTripUpdate_effect hmade hstatus⟩

/--
The effect of an accepted trip that is neither added nor deleted is that of its
own stops exactly when the points that are left out, which are at stops unknown
to the vehicle journey, do not prevail.
-/
theorem published_effect_iff
    (h : buildTripUpdates services contributorId newId rows raw = .ok ts)
    (ht : t ∈ ts) (hstatus : t.status = .update) {old : Option TripUpdate}
    (hlinked : (processTripUpdate (builder contributorId) old t).linked =
      .ok true) :
    (processTripUpdate (builder contributorId) old t).tripUpdate.effect =
        some (documentedEffect (eventStatuses
          (processTripUpdate (builder contributorId) old
            t).tripUpdate.stopTimeUpdates)) ↔
      LeftOutDoNotPrevail t.navitiaVj.stopTimes old t.stopTimeUpdates := by
  obtain ⟨hindexed, heffect⟩ := buildTripUpdates_effect h ht hstatus
  have hrunning : t.status ≠ .delete := by
    rw [hstatus]
    decide
  have hfits : FitsBuilder (builder contributorId) t := ⟨hindexed, nofun⟩
  obtain ⟨hmerge, hmanage⟩ := processTripUpdate_accepted hfits hrunning hlinked
  rw [processTripUpdate_header.2, heffect, Option.some.injEq]
  exact accepted_effect_iff hindexed hrunning hmerge hmanage

end Feed

namespace Sample

/-- A stop of a vehicle journey, served at the given time. -/
def navStopTime (code : String) (t : Datetime) : NavStopTime where
  stopPoint :=
    some
      { id := code
        codes := []
        stopAreaCodes := [{ type := "CR-CI-CH", value := code }] }
  utcArrivalTime := some (Datetime.time t)
  utcDepartureTime := some (Datetime.time t)

/-- A vehicle journey on two stops, from eight to ten. -/
def twoStopsVj : NavVj where
  id := "vehicle_journey:1"
  tripId := "trip:1"
  stopTimes :=
    [navStopTime "0087-1-a" (Core.Sample.clock 8 0),
      navStopTime "0087-1-b" (Core.Sample.clock 10 0)]

/-- Navitia knows this vehicle journey. -/
def twoStopsServices : Services :=
  { services with vehicleJourneys := fun _ _ _ => .ok [twoStopsVj] }

/-- An event at the given time, with a status. -/
def traveler (status : Option StatutCirculation) (t : Datetime) :
    TravelerTime :=
  { created t with statutCirculationOPE := status, empty := nofun }

/-- A point that is served as usual, at the given time. -/
def usual (rang : Int) (ch : String) (t : Datetime) : Pdp :=
  { pdp rang ch t t with
    horaireVoyageurArrivee := some (traveler none t)
    horaireVoyageurDepart := some (traveler none t) }

/-- A point where the train should have ended, now suppressed. -/
def suppressedEnd (rang : Int) (ch : String) (t : Datetime) : Pdp :=
  { pdp rang ch t t with
    horaireVoyageurArrivee := some (traveler (some .suppression) t)
    horaireVoyageurDepart := none }

/-- A feed on the vehicle journey that suppresses the given last point. -/
def shortened (ch : String) : RawData :=
  .json (some (some (version "8000" .perturbee
    [usual 0 "a" (Core.Sample.clock 8 0), usual 1 "b" (Core.Sample.clock 10 0),
      suppressedEnd 2 ch (Core.Sample.clock 11 0)])))

/-- The trip updates of such a feed. -/
def tripsOf (raw : RawData) : List NewTripUpdate :=
  match buildTripUpdates twoStopsServices "realtime.cots" id [] raw with
  | .ok ts => ts
  | .error _ => []

end Sample

/-- The last stop of the journey is suppressed, and published so. -/
theorem published_effect_iff_terminus :
    ∃ ts t,
      buildTripUpdates Sample.twoStopsServices "realtime.cots" id []
        (Sample.shortened "b") = .ok ts ∧ t ∈ ts ∧
      (processTripUpdate (builder "realtime.cots") none t).tripUpdate.effect =
        some (documentedEffect (eventStatuses (processTripUpdate
          (builder "realtime.cots") none t).tripUpdate.stopTimeUpdates)) := by
  have hbuild : buildTripUpdates Sample.twoStopsServices "realtime.cots" id []
      (Sample.shortened "b") = .ok (Sample.tripsOf (Sample.shortened "b")) := by
    rfl
  refine ⟨_, (Sample.tripsOf (Sample.shortened "b")).head (by decide), hbuild,
    List.head_mem _, ?_⟩
  exact (published_effect_iff hbuild (List.head_mem _) (by decide)
    (by decide)).2 (by decide)

/--
The suppression of a point that the journey does not have gives its effect to
the trip, whose stops are all served as usual.
-/
theorem published_effect_shortened :
    ∃ ts t,
      buildTripUpdates Sample.twoStopsServices "realtime.cots" id []
        (Sample.shortened "c") = .ok ts ∧ t ∈ ts ∧ t.status = .update ∧
      (processTripUpdate (builder "realtime.cots") none t).linked = .ok true ∧
      (processTripUpdate (builder "realtime.cots") none t).tripUpdate.effect =
        some .reducedService ∧
      documentedEffect (eventStatuses (processTripUpdate
        (builder "realtime.cots") none t).tripUpdate.stopTimeUpdates) =
          .unknownEffect := by
  refine ⟨Sample.tripsOf (Sample.shortened "c"),
    (Sample.tripsOf (Sample.shortened "c")).head (by decide), rfl,
    List.head_mem _, ?_⟩
  decide

end Cots
end Kirin
