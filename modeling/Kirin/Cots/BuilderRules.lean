import Kirin.Cots.ModelMaker
import Kirin.Core.FeedRun
import Kirin.Library.Checked

/-!
# Kirin: what the COTS builder returns

The trip updates of a COTS feed that is accepted, by their status, their effect
and their stops.

* `makePdp_ok`: what the loop does at one point.
* `makeTripUpdate_cancelled`, `makeTripUpdate_running`: the two kinds of trains.
* `makeTripUpdate_ok`: the header and the stops of a trip update.
* `buildTripUpdates_ok`: the steps of a feed that is accepted.
* `getNavitiaVjs_added`: the vehicle journeys of an added train.
-/

namespace Kirin
namespace Cots

open Kirin.Core

section Points

variable {services : Services} {navVj : NavVj} {st st' : PdpState}
variable {pdps : List Pdp} {pdp : Pdp}

/-- A point is skipped, or else it is checked and appends one stop. -/
theorem makePdp_ok
    (h : makePdp services navVj st pdp = .ok st') :
    (getNavitiaStopPoint services pdp navVj = .ok none ∧ st' = st) ∨
      ∃ navStop arrival departure pdpCode stUpdate,
        getNavitiaStopPoint services pdp navVj = .ok (some navStop) ∧
        makeEventUpdate pdp .arrival = .ok arrival ∧
        makeEventUpdate pdp .departure = .ok departure ∧
        checkStopTimeConsistency st.lastStopTimeDepart arrival.projected
          departure.projected pdpCode = .ok () ∧
        stUpdate.order = st.stopTimeUpdates.length ∧
        stUpdate.arrivalStatus = arrival.status ∧
        stUpdate.departureStatus = departure.status ∧
        st' =
          { lastStopTimeDepart := departure.projected
            highestStStatus :=
              getHigherStatus
                (getHigherStatus st.highestStStatus arrival.status)
                departure.status
            stopTimeUpdates := st.stopTimeUpdates ++ [stUpdate] } := by
  simp only [makePdp, Checked.bind_eq_ok] at h
  obtain ⟨found, hfound, h⟩ := h
  cases found with
  | none =>
      rw [Checked.pure_eq_ok] at h
      exact Or.inl ⟨hfound, h.symm⟩
  | some navStop =>
      simp only [Checked.bind_eq_ok, Checked.pure_eq_ok] at h
      obtain ⟨arrival, harrival, departure, hdeparture, _, hcheck, rfl⟩ := h
      exact Or.inr ⟨navStop, arrival, departure, _, _, hfound, harrival,
        hdeparture, hcheck, rfl, rfl, rfl, rfl⟩

/-- A point appends at most one stop, with the next order. -/
theorem makePdp_indexed
    (h : makePdp services navVj st pdp = .ok st')
    (hst : Indexed st.stopTimeUpdates) :
    Indexed st'.stopTimeUpdates := by
  rcases makePdp_ok h with ⟨-, rfl⟩ |
    ⟨navStop, arrival, departure, pdpCode, stUpdate, -, -, -, -, horder, -, -,
      rfl⟩
  · exact hst
  · exact hst.concat horder

/-- The stops of the points have their places as orders. -/
theorem foldlM_makePdp_indexed
    (h : pdps.foldlM (makePdp services navVj) st = .ok st')
    (hst : Indexed st.stopTimeUpdates) :
    Indexed st'.stopTimeUpdates := by
  refine Checked.foldlM_invariant
    (P := fun st => Indexed st.stopTimeUpdates) ?_ h hst
  intro st1 pdp st2 _ hst1 h1
  exact makePdp_indexed h1 hst1

end Points

/-- What the trip update of a vehicle journey takes from the feed. -/
structure MadeFrom
    (contributorId : String) (jsonTrain : DictVersion) (found : FoundVj)
    (actionOnTrip : ActionOnTrip) (t : NewTripUpdate) : Prop where
  vj : t.vj = found.vj
  navitiaVj : t.navitiaVj = found.navVj.toNavitiaVj
  contributorId : t.contributorId = contributorId
  indexed : Indexed t.stopTimeUpdates
  effect : EffectInDatabase t.toTripUpdate
  cancelled : jsonTrain.statutOperationnel = some .supprimee →
    t.status = .delete ∧ t.stopTimeUpdates = []
  added : jsonTrain.statutOperationnel ≠ some .supprimee →
    actionOnTrip ≠ .notAdded → t.status = .add
  updated : jsonTrain.statutOperationnel ≠ some .supprimee →
    actionOnTrip = .notAdded → t.status = .update

section Trip

variable {services : Services} {contributorId : String}
variable {jsonTrain : DictVersion} {found : FoundVj}
variable {actionOnTrip : ActionOnTrip} {t : NewTripUpdate}

theorem getValue_ok
    {α : Type} {key : String} {value : Option α} {v : α}
    (h : getValue key value = .ok v) :
    value = some v := by
  cases value with
  | none =>
      cases h
  | some v' =>
      cases h
      rfl

/-- The loop over the points, before any of them. -/
abbrev startPdp : PdpState where
  lastStopTimeDepart := none
  highestStStatus := .none
  stopTimeUpdates := []

/-- A train that is suppressed has no stop, whatever its points. -/
theorem makeTripUpdate_cancelled
    (h : makeTripUpdate services contributorId jsonTrain found actionOnTrip =
      .ok t)
    (hcancelled : jsonTrain.statutOperationnel = some .supprimee) :
    t.vj = found.vj ∧ t.navitiaVj = found.navVj.toNavitiaVj ∧
      t.contributorId = contributorId ∧ t.status = .delete ∧
      t.effect = some .noService ∧ t.stopTimeUpdates = [] := by
  simp only [makeTripUpdate, Checked.bind_eq_ok, hcancelled, getValue] at h
  obtain ⟨companyId, -, tripStatus, htrip, h⟩ := h
  cases htrip
  rw [if_pos rfl, Checked.pure_eq_ok] at h
  subst h
  exact ⟨rfl, rfl, rfl, rfl, rfl, rfl⟩

/-- Any other train has the stops of its points. -/
theorem makeTripUpdate_running
    (h : makeTripUpdate services contributorId jsonTrain found actionOnTrip =
      .ok t)
    (hrunning : jsonTrain.statutOperationnel ≠ some .supprimee) :
    ∃ st, (retrieveInterestingPdp
          (jsonTrain.listePointDeParcours.getD [])).foldlM
          (makePdp services found.navVj) startPdp = .ok st ∧
      t.vj = found.vj ∧ t.navitiaVj = found.navVj.toNavitiaVj ∧
      t.contributorId = contributorId ∧
      t.stopTimeUpdates = st.stopTimeUpdates ∧
      (actionOnTrip ≠ .notAdded →
        t.status = .add ∧ t.effect = some .additionalService) ∧
      (actionOnTrip = .notAdded →
        t.status = .update ∧
          t.effect = some (getEffectByStopTimeStatus st.highestStStatus)) := by
  simp only [makeTripUpdate, Checked.bind_eq_ok] at h
  obtain ⟨companyId, -, tripStatus, hstatus, h⟩ := h
  rw [getValue_ok hstatus, ne_eq, Option.some.injEq] at hrunning
  rw [if_neg hrunning] at h
  split at h
  · rename_i hadded
    simp only [Checked.bind_eq_ok, Checked.pure_eq_ok] at h
    obtain ⟨physicalModeId, -, base, rfl, listPdp, hlist, st, hst, rfl⟩ := h
    rw [getValue_ok hlist]
    exact ⟨st, hst, rfl, rfl, rfl, rfl, fun _ => ⟨rfl, rfl⟩,
      fun heq => absurd heq hadded⟩
  · rename_i hnotAdded
    simp only [Checked.bind_eq_ok, Checked.pure_eq_ok] at h
    obtain ⟨base, rfl, listPdp, hlist, st, hst, rfl⟩ := h
    rw [getValue_ok hlist]
    exact ⟨st, hst, rfl, rfl, rfl, rfl, fun hne => absurd hne hnotAdded,
      fun _ => ⟨rfl, rfl⟩⟩

/-- The header and the stops of a trip update. -/
theorem makeTripUpdate_ok
    (h : makeTripUpdate services contributorId jsonTrain found actionOnTrip =
      .ok t) :
    MadeFrom contributorId jsonTrain found actionOnTrip t := by
  have hempty : Indexed ([] : List StopTimeUpdate) := rfl
  by_cases hcancelled : jsonTrain.statutOperationnel = some .supprimee
  · obtain ⟨hvj, hnavitiaVj, hcontributorId, hstatus, heffect, hstus⟩ :=
      makeTripUpdate_cancelled h hcancelled
    exact
      { vj := hvj, navitiaVj := hnavitiaVj, contributorId := hcontributorId
        indexed := hstus ▸ hempty
        effect := effectInDatabase_of_eq heffect rfl
        cancelled := fun _ => ⟨hstatus, hstus⟩
        added := fun hne => absurd hcancelled hne
        updated := fun hne => absurd hcancelled hne }
  · obtain ⟨st, hst, hvj, hnavitiaVj, hcontributorId, hstus, hadded,
      hupdated⟩ := makeTripUpdate_running h hcancelled
    exact
      { vj := hvj, navitiaVj := hnavitiaVj, contributorId := hcontributorId
        indexed := hstus ▸ foldlM_makePdp_indexed hst hempty
        effect := by
          by_cases haction : actionOnTrip = .notAdded
          · exact effectInDatabase_of_eq (hupdated haction).2
              (getEffectByStopTimeStatus_inDatabase st.highestStStatus)
          · exact effectInDatabase_of_eq (hadded haction).2 rfl
        cancelled := fun heq => absurd heq hcancelled
        added := fun _ hne => (hadded hne).1
        updated := fun _ heq => (hupdated heq).1 }

end Trip

/-- The number and the points of a feed that can be read. -/
structure Reads (raw : RawData) (dictVersion : DictVersion) (number : String)
    (pdps : List Pdp) : Prop where
  version : readVersion raw = .ok dictVersion
  number : dictVersion.numeroCourse = some number
  points : ∃ listPdp, dictVersion.listePointDeParcours = some listPdp ∧
    pdps = retrieveInterestingPdp listPdp

/-- What is read in a feed is determined by it. -/
theorem Reads.unique
    {raw : RawData} {v v' : DictVersion} {n n' : String} {ps ps' : List Pdp}
    (h : Reads raw v n ps) (h' : Reads raw v' n' ps') :
    v' = v ∧ n' = n ∧ ps' = ps := by
  obtain ⟨l, hl, rfl⟩ := h.points
  obtain ⟨l', hl', rfl⟩ := h'.points
  have hv := h'.version
  rw [h.version] at hv
  cases hv
  have hn := h'.number
  rw [h.number] at hn
  cases hn
  rw [hl] at hl'
  cases hl'
  exact ⟨rfl, rfl, rfl⟩

/-- The first departure and the last arrival of a list of points. -/
structure Spans (pdps : List Pdp) (vjStart vjEnd : Datetime) : Prop where
  departure : getFirstStopDatetime pdps .departure false = .ok (some vjStart)
  arrival : getFirstStopDatetime pdps.reverse .arrival false = .ok (some vjEnd)

section Feed

variable {services : Services} {contributorId : String}
variable {newId : String → String} {rows : List TripUpdate} {raw : RawData}
variable {ts : List NewTripUpdate}

/-- The steps of a feed that is accepted. -/
theorem buildTripUpdates_ok
    (h : buildTripUpdates services contributorId newId rows raw = .ok ts) :
    ∃ v n pdps action vjs, Reads raw v n pdps ∧
      getActionOnTrip rows n v pdps = .ok action ∧
      getVjs services newId n pdps action = .ok vjs ∧
      List.Forall₂ (MadeFrom contributorId v · action ·) vjs ts := by
  simp only [buildTripUpdates, Checked.bind_eq_ok] at h
  obtain ⟨v, hv, n, hn, listPdp, hl, h⟩ := h
  split at h
  · cases h
  · simp only [Checked.bind_eq_ok, Checked.mapM_eq_ok] at h
    obtain ⟨action, haction, vjs, hvjs, hts⟩ := h
    exact ⟨v, n, _, action, vjs,
      ⟨hv, getValue_ok hn, listPdp, getValue_ok hl, rfl⟩, haction, hvjs,
      hts.imp (fun _ _ hmade => makeTripUpdate_ok hmade)⟩

end Feed

section Action

variable {rows : List TripUpdate} {n : String} {v : DictVersion}
variable {pdps : List Pdp} {vjStart vjEnd : Datetime}

/-- The action of a feed whose points have their times. -/
theorem getActionOnTrip_of_spans
    (h : Spans pdps vjStart vjEnd) :
    getActionOnTrip rows n v pdps =
      actionOnStored n v.statutOperationnel
        (findTripAddedInDb rows n vjStart vjEnd) := by
  simp [getActionOnTrip, h.departure, h.arrival, requireDatetime, bind,
    Except.bind]

theorem Spans.unique
    {vjStart' vjEnd' : Datetime} (h : Spans pdps vjStart vjEnd)
    (h' : Spans pdps vjStart' vjEnd') :
    vjStart' = vjStart ∧ vjEnd' = vjEnd := by
  have hstart := h'.departure
  rw [h.departure] at hstart
  cases hstart
  have hend := h'.arrival
  rw [h.arrival] at hend
  cases hend
  exact ⟨rfl, rfl⟩

/-- A feed whose action is known has its times. -/
theorem spans_of_getActionOnTrip
    {action : ActionOnTrip}
    (h : getActionOnTrip rows n v pdps = .ok action) :
    ∃ vjStart vjEnd, Spans pdps vjStart vjEnd := by
  simp only [getActionOnTrip, Checked.bind_eq_ok] at h
  obtain ⟨start, hstart, arrival, hend, vjStart, hsome, vjEnd, hsome', -⟩ := h
  cases start with
  | none =>
      cases hsome
  | some start =>
      cases arrival with
      | none =>
          cases hsome'
      | some arrival =>
          exact ⟨start, arrival, hstart, hend⟩

end Action

/-- The vehicle journey of an added train, for one of its numbers. -/
def addedVj (newId : String → String) (vjStart : Datetime) (number : String) :
    FoundVj where
  navVj := makeNavitiaEmptyVj number
  vj :=
    { id := newId (trainIdFormat number)
      navitiaTripId := trainIdFormat number
      startTimestamp := vjStart }

/-- The trip that a train adds is dated at the departure of its feed. -/
theorem MadeFrom.datedKey
    {contributorId n : String} {v : DictVersion} {newId : String → String}
    {vjStart : Datetime} {action : ActionOnTrip} {t : NewTripUpdate}
    (h : MadeFrom contributorId v (addedVj newId vjStart n) action t) :
    t.vj.datedKey = (trainIdFormat n, vjStart) := by
  rw [h.vj]
  rfl

/-- Navitia has no vehicle journey for the numbers of a train. -/
def UnknownTo (services : Services) (number : String) : Prop :=
  ∀ h ∈ headsigns number, ∀ since until' vjs,
    services.vehicleJourneys h since until' = .ok vjs → vjs = []

section Vjs

variable {services : Services} {newId : String → String} {number : String}
variable {sinceDt untilDt : Datetime} {action : ActionOnTrip}
variable {vjs : List FoundVj}

/-- An added train has one vehicle journey for each of its numbers. -/
theorem getNavitiaVjs_added
    (hadded : action ≠ .notAdded)
    (h : getNavitiaVjs services newId number (some sinceDt) (some untilDt)
      action = .ok vjs) :
    vjs = (headsigns number).foldl
      (fun vjs n => putVj vjs (addedVj newId sinceDt n)) [] := by
  simp only [getNavitiaVjs, Checked.bind_eq_ok] at h
  obtain ⟨vjs', hfold, h⟩ := h
  split at h
  · cases h
  · rw [Checked.pure_eq_ok] at h
    subst h
    refine Checked.foldlM_eq_foldl ?_ hfold
    intro vjs1 n vjs2 hturn
    simp only [Checked.bind_eq_ok, Checked.pure_eq_ok] at hturn
    obtain ⟨navitiaVjs, hcandidates, rfl⟩ := hturn
    have hempty : navitiaVjs = [makeNavitiaEmptyVj n] := by
      simp only [candidateVjs, if_neg hadded, Checked.bind_eq_ok] at hcandidates
      obtain ⟨found, -, hcandidates⟩ := hcandidates
      split at hcandidates
      · cases hcandidates
      · exact (Checked.pure_eq_ok.1 hcandidates).symm
    subst hempty
    rfl

/-- A train that navitia does not know has no vehicle journey by itself. -/
theorem getNavitiaVjs_notAdded
    (hunknown : UnknownTo services number) {since until' : Option Datetime}
    (h : getNavitiaVjs services newId number since until' .notAdded =
      .ok vjs) :
    vjs = [] := by
  match since, until' with
  | none, _ =>
      cases h
      rfl
  | some sinceDt, none =>
      cases h
      rfl
  | some sinceDt, some untilDt =>
      simp only [getNavitiaVjs, Checked.bind_eq_ok] at h
      obtain ⟨vjs', hfold, h⟩ := h
      -- no turn of the loop finds anything
      have hnone : vjs' = [] := by
        refine Checked.foldlM_invariant (P := fun vjs => vjs = []) ?_ hfold rfl
        intro vjs1 n vjs2 hn hvjs1 hturn
        simp only [Checked.bind_eq_ok, Checked.pure_eq_ok] at hturn
        obtain ⟨navitiaVjs, hcandidates, rfl⟩ := hturn
        simp only [candidateVjs, if_true, Checked.bind_eq_ok,
          Checked.pure_eq_ok] at hcandidates
        obtain ⟨found, hfound, rfl⟩ := hcandidates
        rw [hunknown n hn _ _ _ hfound]
        exact hvjs1
      subst hnone
      cases h

/-- What is kept was there, or has just been put. -/
theorem mem_putVj_or
    {found added : FoundVj} (h : found ∈ putVj vjs added) :
    found ∈ vjs ∨ found = added := by
  unfold putVj at h
  split at h
  · obtain ⟨f, hf, rfl⟩ := List.mem_map.1 h
    split
    · exact Or.inr rfl
    · exact Or.inl hf
  · rcases List.mem_append.1 h with hold | hnew
    · exact Or.inl hold
    · exact Or.inr (List.mem_singleton.1 hnew)

theorem mem_putVj_self
    (vjs : List FoundVj) (added : FoundVj) :
    added ∈ putVj vjs added := by
  unfold putVj
  split
  · rename_i hany
    obtain ⟨f, hf, hid⟩ := List.any_eq_true.1 hany
    exact List.mem_map.2 ⟨f, hf, if_pos (eq_of_beq hid)⟩
  · exact List.mem_append.2 (Or.inr List.mem_cons_self)

/-- What has another identifier is kept. -/
theorem mem_putVj_of_ne
    {found added : FoundVj} (h : found ∈ vjs)
    (hne : found.navVj.id ≠ added.navVj.id) :
    found ∈ putVj vjs added := by
  unfold putVj
  split
  · exact List.mem_map.2 ⟨found, h, if_neg hne⟩
  · exact List.mem_append.2 (Or.inl h)

/-- Every vehicle journey of an added train is the one of a number. -/
theorem mem_foldl_putVj
    {newId : String → String} {sinceDt : Datetime} {numbers : List String}
    {found : FoundVj}
    (h : found ∈ numbers.foldl
      (fun vjs n => putVj vjs (addedVj newId sinceDt n)) []) :
    ∃ n ∈ numbers, found = addedVj newId sinceDt n := by
  have hfold : ∀ (numbers : List String) (vjs : List FoundVj),
      found ∈ numbers.foldl
        (fun vjs n => putVj vjs (addedVj newId sinceDt n)) vjs →
      found ∈ vjs ∨ ∃ n ∈ numbers, found = addedVj newId sinceDt n := by
    intro numbers
    induction numbers with
    | nil =>
        intro vjs hmem
        exact Or.inl hmem
    | cons n rest ih =>
        intro vjs hmem
        rcases ih _ hmem with hone | ⟨n', hn', rfl⟩
        · refine (mem_putVj_or hone).imp_right (fun heq => ?_)
          exact ⟨n, List.mem_cons_self, heq⟩
        · exact Or.inr ⟨n', List.mem_cons_of_mem n hn', rfl⟩
  exact (hfold numbers [] h).resolve_left List.not_mem_nil

/-- An added train with a single number has a single vehicle journey. -/
theorem foldl_putVj_single
    (newId : String → String) (sinceDt : Datetime) {numbers : List String}
    {h : String} (hall : ∀ n ∈ numbers, n = h) (hne : numbers ≠ []) :
    numbers.foldl (fun vjs n => putVj vjs (addedVj newId sinceDt n)) [] =
      [addedVj newId sinceDt h] := by
  have hkeep : ∀ numbers : List String, (∀ n ∈ numbers, n = h) →
      numbers.foldl (fun vjs n => putVj vjs (addedVj newId sinceDt n))
          [addedVj newId sinceDt h] =
        [addedVj newId sinceDt h] := by
    intro numbers hall
    induction numbers with
    | nil =>
        rfl
    | cons n rest ih =>
        rw [List.forall_mem_cons] at hall
        rw [List.foldl_cons, hall.1]
        simpa [putVj] using ih hall.2
  cases numbers with
  | nil =>
      exact absurd rfl hne
  | cons n rest =>
      rw [List.forall_mem_cons] at hall
      rw [List.foldl_cons, hall.1]
      exact hkeep rest hall.2

end Vjs

/-- A train always has a number. -/
theorem headsigns_ne_nil
    (number : String) :
    headsigns number ≠ [] := by
  simp only [headsigns]
  split <;> simp

section Added

variable {services : Services} {contributorId : String}
variable {newId : String → String} {rows : List TripUpdate} {raw : RawData}
variable {ts : List NewTripUpdate}

/-- A feed whose train is added, at first or again. -/
structure Adds
    (rows : List TripUpdate) (v : DictVersion) (n : String) (pdps : List Pdp)
    (action : ActionOnTrip) (vjStart vjEnd : Datetime) : Prop where
  spans : Spans pdps vjStart vjEnd
  known : actionOnStored n v.statutOperationnel
    (findTripAddedInDb rows n vjStart vjEnd) = .ok action
  added : action ≠ .notAdded

/-- The trip updates of a feed that adds its train, whatever navitia knows. -/
theorem buildTripUpdates_added
    {v : DictVersion} {n : String} {pdps : List Pdp} {action : ActionOnTrip}
    {vjStart vjEnd : Datetime} (hreads : Reads raw v n pdps)
    (hadds : Adds rows v n pdps action vjStart vjEnd)
    (h : buildTripUpdates services contributorId newId rows raw = .ok ts) :
    List.Forall₂ (MadeFrom contributorId v · action ·)
      ((headsigns n).foldl
        (fun vjs hs => putVj vjs (addedVj newId vjStart hs)) []) ts := by
  obtain ⟨v', n', pdps', action', vjs, hreads', haction, hvjs, hts⟩ :=
    buildTripUpdates_ok h
  obtain ⟨rfl, rfl, rfl⟩ := hreads.unique hreads'
  rw [getActionOnTrip_of_spans hadds.spans, hadds.known] at haction
  cases haction
  simp only [getVjs, decide_eq_false hadds.added, hadds.spans.departure,
    hadds.spans.arrival, Checked.bind_eq_ok] at hvjs
  obtain ⟨since, hsince, until', huntil, hvjs⟩ := hvjs
  cases hsince
  cases huntil
  rw [getNavitiaVjs_added hadds.added hvjs] at hts
  exact hts

/--
A feed on a train that navitia does not know has no trip update, or adds the
train: one vehicle journey for each of its numbers, at its first departure.
-/
theorem buildTripUpdates_unknown
    {v : DictVersion} {n : String} {pdps : List Pdp}
    (hreads : Reads raw v n pdps) (hunknown : UnknownTo services n)
    (h : buildTripUpdates services contributorId newId rows raw = .ok ts) :
    (getActionOnTrip rows n v pdps = .ok .notAdded ∧ ts = []) ∨
      ∃ action vjStart vjEnd, Adds rows v n pdps action vjStart vjEnd ∧
        List.Forall₂ (MadeFrom contributorId v · action ·)
          ((headsigns n).foldl
            (fun vjs hs => putVj vjs (addedVj newId vjStart hs)) []) ts := by
  obtain ⟨v', n', pdps', action, vjs, hreads', haction, hvjs, hts⟩ :=
    buildTripUpdates_ok h
  obtain ⟨rfl, rfl, rfl⟩ := hreads.unique hreads'
  by_cases hadded : action = .notAdded
  · subst hadded
    simp only [getVjs, decide_true, Checked.bind_eq_ok] at hvjs
    obtain ⟨since, -, until', -, hvjs⟩ := hvjs
    rw [getNavitiaVjs_notAdded hunknown hvjs] at hts
    cases hts
    exact Or.inl ⟨haction, rfl⟩
  · obtain ⟨vjStart, vjEnd, hspans⟩ := spans_of_getActionOnTrip haction
    rw [getActionOnTrip_of_spans hspans] at haction
    have hadds : Adds rows v' n' pdps' action vjStart vjEnd :=
      ⟨hspans, haction, hadded⟩
    exact Or.inr ⟨action, vjStart, vjEnd, hadds,
      buildTripUpdates_added hreads hadds h⟩

end Added

end Cots
end Kirin
