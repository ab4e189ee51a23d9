import Kirin.Core.FeedRun
import Kirin.Library.Checked
import Kirin.Piv.ModelMaker

/-!
# Kirin: what the PIV builder returns

The trip update of a PIV feed that is accepted, by its effect and its stops.

* `makeArret_ok`: what the loop does at one stop.
* `makeTripUpdate_noService`, `makeTripUpdate_served`: the two kinds of trains.
* `chooseDisruption_ok`: a train has no disruption exactly when the one that is
  chosen for it is undefined.
* `makeTripUpdate_ok`: the stops and the effect of a trip update.
* `buildTripUpdates_ok`: the steps of a feed that is accepted.
-/

namespace Kirin
namespace Piv

open Kirin.Core

/-- The stop of the trip update that is made of a stop of the feed. -/
structure MadeOf (p : NavStopPoint × Arret) (stu : StopTimeUpdate) : Prop where
  stopId : stu.stopId = p.1.id
  event : ∀ e, ∃ update, makeEventUpdate p.2 e = .ok update ∧
    stu.getStopEventTime e = update.time ∧
    stu.getStopEventDelay e = update.delay ∧
    stu.getStopEventStatus e = update.status

section Stops

variable {services : Services} {navVj : NavVj} {st st' : ArretState}
variable {ads : List Arret} {arret : Arret}

/-- A stop of the feed is skipped, or else it is checked and appends one stop. -/
theorem makeArret_ok
    (h : makeArret services navVj st arret = .ok st') :
    (getNavitiaStopPoint services arret navVj = .ok none ∧ st' = st) ∨
      ∃ navStop arrival departure uic8 stUpdate,
        getNavitiaStopPoint services arret navVj = .ok (some navStop) ∧
        makeEventUpdate arret .arrival = .ok arrival ∧
        makeEventUpdate arret .departure = .ok departure ∧
        checkStopTimeConsistency st.previousRtStopTimeDep arrival.time
          departure.time uic8 = .ok () ∧
        MadeOf (navStop, arret) stUpdate ∧
        stUpdate.order = st.stopTimeUpdates.length ∧
        st'.previousRtStopTimeDep = departure.time ∧
        st'.stopTimeUpdates = st.stopTimeUpdates ++ [stUpdate] := by
  simp only [makeArret, Checked.bind_eq_ok] at h
  obtain ⟨found, hfound, h⟩ := h
  cases found with
  | none =>
      rw [Checked.pure_eq_ok] at h
      exact Or.inl ⟨hfound, h.symm⟩
  | some navStop =>
      simp only [Checked.bind_eq_ok, Checked.pure_eq_ok] at h
      obtain ⟨message, -, arrival, harrival, departure, hdeparture, uic8, -, _,
        hcheck, rfl⟩ := h
      refine Or.inr ⟨navStop, arrival, departure, uic8, _, hfound, harrival,
        hdeparture, hcheck, ⟨rfl, fun e => ?_⟩, rfl, rfl, rfl⟩
      cases e with
      | arrival =>
          exact ⟨arrival, harrival, rfl, rfl, rfl⟩
      | departure =>
          exact ⟨departure, hdeparture, rfl, rfl, rfl⟩

/-- A stop of the feed appends at most one stop, with the next order. -/
theorem makeArret_indexed
    (h : makeArret services navVj st arret = .ok st')
    (hst : Indexed st.stopTimeUpdates) :
    Indexed st'.stopTimeUpdates := by
  rcases makeArret_ok h with ⟨-, rfl⟩ |
    ⟨navStop, arrival, departure, uic8, stUpdate, -, -, -, -, -, horder, -, hstus⟩
  · exact hst
  · exact hstus ▸ hst.concat horder

/-- The stops of the feed have their places as orders. -/
theorem foldlM_makeArret_indexed
    (h : ads.foldlM (makeArret services navVj) st = .ok st')
    (hst : Indexed st.stopTimeUpdates) :
    Indexed st'.stopTimeUpdates := by
  refine Checked.foldlM_invariant
    (P := fun st => Indexed st.stopTimeUpdates) ?_ h hst
  intro st1 arret st2 _ hst1 h1
  exact makeArret_indexed h1 hst1

end Stops

/-- What a trip update keeps of the train it is made from. -/
structure MadeFrom (contributorId : String) (train : CleanTrain)
    (found : FoundVj) (t : NewTripUpdate) : Prop where
  vj : t.vj = found.vj
  navitiaVj : t.navitiaVj = found.navVj.toNavitiaVj
  contributorId : t.contributorId = contributorId
  indexed : Indexed t.stopTimeUpdates
  effect : EffectInDatabase t.toTripUpdate ↔
    tripPivStatusToEffect train.disruption.type ≠ some .undefined

/-- An effect that is not undefined is one of the database. -/
theorem inDatabase_iff
    {effect : TripEffect} :
    effect.inDatabase = true ↔ effect ≠ .undefined := by
  cases effect <;> simp [TripEffect.inDatabase]

/-- A single effect is one of the database unless it is undefined. -/
theorem effectInDatabase_iff
    {tu : TripUpdate} {effect : TripEffect} (h : tu.effect = some effect) :
    EffectInDatabase tu ↔ effect ≠ .undefined := by
  rw [← inDatabase_iff]
  constructor
  · intro hin
    exact hin effect h
  · exact effectInDatabase_of_eq h

section Trip

variable {services : Services} {contributorId : String} {train : CleanTrain}
variable {found : FoundVj} {t : NewTripUpdate}

/-- The loop over the stops, before any of them. -/
abbrev startArret : ArretState where
  previousRtStopTimeDep := none
  highestStStatus := .none
  stopTimeUpdates := []

/-- A train without service has no stop, whatever its list of stops. -/
theorem makeTripUpdate_noService
    (h : makeTripUpdate services contributorId train found = .ok t)
    (hcancelled : tripPivStatusToEffect train.disruption.type =
      some .noService) :
    t.vj = found.vj ∧ t.navitiaVj = found.navVj.toNavitiaVj ∧
      t.contributorId = contributorId ∧ t.status = .delete ∧
      t.effect = some .noService ∧ t.stopTimeUpdates = [] := by
  simp only [makeTripUpdate, hcancelled, Checked.bind_eq_ok, Checked.pure_eq_ok,
    exists_eq_left', if_true] at h
  obtain ⟨companyId, -, physicalModeId, -, rfl⟩ := h
  exact ⟨rfl, rfl, rfl, rfl, rfl, rfl⟩

/-- Any other train has the stops of its list. -/
theorem makeTripUpdate_served
    (h : makeTripUpdate services contributorId train found = .ok t)
    (hserved : tripPivStatusToEffect train.disruption.type ≠
      some .noService) :
    ∃ effect st, tripPivStatusToEffect train.disruption.type = some effect ∧
      train.ads.foldlM (makeArret services found.navVj) startArret = .ok st ∧
      t.vj = found.vj ∧ t.navitiaVj = found.navVj.toNavitiaVj ∧
      t.contributorId = contributorId ∧ t.status = .update ∧
      t.stopTimeUpdates = st.stopTimeUpdates ∧
      t.effect =
        if effect = .modifiedService then
          some (getEffectByStopTimeStatus st.highestStStatus)
        else some effect := by
  simp only [makeTripUpdate, Checked.bind_eq_ok] at h
  obtain ⟨companyId, -, physicalModeId, -, h⟩ := h
  split at h
  · rename_i effect hchosen
    rw [hchosen, ne_eq, Option.some.injEq] at hserved
    simp only [Checked.bind_eq_ok, Checked.pure_eq_ok, exists_eq_left',
      if_neg hserved] at h
    obtain ⟨st, hst, rfl⟩ := h
    exact ⟨effect, st, hchosen, hst, rfl, rfl, rfl, rfl, rfl, rfl⟩
  · cases h

/-- The stops and the effect of a trip update. -/
theorem makeTripUpdate_ok
    (h : makeTripUpdate services contributorId train found = .ok t) :
    MadeFrom contributorId train found t := by
  have hempty : Indexed ([] : List StopTimeUpdate) := rfl
  by_cases hcancelled : tripPivStatusToEffect train.disruption.type =
      some .noService
  · obtain ⟨hvj, hnavitiaVj, hcontributorId, -, heffect, hstus⟩ :=
      makeTripUpdate_noService h hcancelled
    exact
      { vj := hvj, navitiaVj := hnavitiaVj, contributorId := hcontributorId
        indexed := hstus ▸ hempty
        effect := by
          rw [effectInDatabase_iff heffect, hcancelled, ne_eq, ne_eq,
            Option.some.injEq] }
  · obtain ⟨effect, st, hchosen, hst, hvj, hnavitiaVj, hcontributorId, -, hstus,
      heffect⟩ := makeTripUpdate_served h hcancelled
    refine
      { vj := hvj, navitiaVj := hnavitiaVj, contributorId := hcontributorId
        indexed := hstus ▸ foldlM_makeArret_indexed hst hempty, effect := ?_ }
    rw [hchosen, ne_eq, Option.some.injEq]
    by_cases hmodified : effect = .modifiedService
    · rw [if_pos hmodified] at heffect
      rw [effectInDatabase_iff heffect, ← inDatabase_iff, hmodified]
      exact iff_of_true (getEffectByStopTimeStatus_inDatabase _) (by simp)
    · rw [if_neg hmodified] at heffect
      exact effectInDatabase_iff heffect

end Trip

/-- The disruption of a train is undefined exactly when it has none. -/
theorem chooseDisruption_ok
    {train : Train} {disruption : ChosenDisruption}
    (h : chooseDisruption train = .ok disruption) :
    tripPivStatusToEffect disruption.type = some .undefined ↔
      train.evenement.getD [] = [] := by
  unfold chooseDisruption at h
  split at h
  · cases h
  · split at h <;> cases h
  · rename_i hnone hsource
    cases h
    exact iff_of_true rfl hnone
  · rename_i source d rest hsome
    simp only at h
    split at h
    · cases h
    · rename_i hdefined
      cases h
      rw [hsome]
      exact iff_of_false hdefined (by simp)

/-- Whether the train of a feed has no disruption. -/
def withoutDisruption (raw : RawData) : Bool :=
  match readTrain raw with
  | .ok train => (train.evenement.getD []).isEmpty
  | .error _ => false

/-- The trip update of a feed that is accepted. -/
theorem buildTripUpdates_ok
    {services : Services} {contributorId newId : String} {raw : RawData}
    {ts : List NewTripUpdate}
    (h : buildTripUpdates services contributorId newId raw = .ok ts) :
    ∃ train found t, ts = [t] ∧ MadeFrom contributorId train found t ∧
      (tripPivStatusToEffect train.disruption.type = some .undefined ↔
        withoutDisruption raw = true) := by
  simp only [buildTripUpdates, Checked.bind_eq_ok] at h
  obtain ⟨train, htrain, disruption, hdisruption, trainDate, -, trainNumbers, -,
    operateur, -, trainCompany, -, modeDict, -, trainMode, -, trainSubmode, -,
    trainTypemode, -, listAds, -, arret, -, h⟩ := h
  split at h
  · cases h
  · simp only [Checked.bind_eq_ok, Checked.pure_eq_ok] at h
    obtain ⟨found, -, t, ht, rfl⟩ := h
    refine ⟨_, found, t, rfl, makeTripUpdate_ok ht, ?_⟩
    rw [chooseDisruption_ok hdisruption, withoutDisruption, htrain,
      List.isEmpty_iff]

end Piv
end Kirin
