import Kirin.Core.MergeAdditions
import Kirin.Cots.EventReading

/-!
# Kirin: the points of a COTS feed with missing values

A feed that cannot be read is to be rejected with an exception of Kirin, by the
builder of the trip update or by the merge, and with no other one.

* `makePdp_handled_iff`: the points that raise something else are the ones of
  which an event crashes.
* `stopsOf`: the stops that the points of a feed give.
* `foldlM_makePdp_ok_iff`, `foldlM_makePdp_stops`: the loop over the points.
* `makeTripUpdate_of_loop`, `makeTripUpdate_handled_iff`: the trip update.
* `buildsAndMerges_iff`: the feeds that are built and merged without any other
  exception.
-/

namespace Kirin
namespace Cots

open Kirin.Core Checked

/-- The stop that a point gives. -/
def pointStop
    (services : Services) (order : Nat) (navStop : NavStopPoint) (pdp : Pdp) :
    StopTimeUpdate where
  stopId := navStop.id
  order := order
  message :=
    messageOf services
      (truthyText pdp.idMotifInterneDepartReference <|>
        pdp.idMotifInterneArriveeReference)
  departure := (updateOf pdp .departure).time
  departureDelay := (updateOf pdp .departure).delay
  departureStatus := (updateOf pdp .departure).status
  arrival := (updateOf pdp .arrival).time
  arrivalDelay := (updateOf pdp .arrival).delay
  arrivalStatus := (updateOf pdp .arrival).status

/-- The stops that some points give, from an order on. -/
def stopsOf (services : Services) (navVj : NavVj) :
    Nat → List Pdp → List StopTimeUpdate
  | _, [] => []
  | order, pdp :: rest =>
      match getNavitiaStopPoint services pdp navVj with
      | .ok (some navStop) =>
          pointStop services order navStop pdp ::
            stopsOf services navVj (order + 1) rest
      | _ => stopsOf services navVj order rest

/-- Both events of a point are read, and follow the last departure. -/
structure Readable (last : Option Datetime) (pdp : Pdp) : Prop where
  events : ∀ e, ∃ update, makeEventUpdate pdp e = .ok update
  consistent : ∀ pdpCode,
    checkStopTimeConsistency last (updateOf pdp .arrival).projected
      (updateOf pdp .departure).projected pdpCode = .ok ()

/-- The points with a stop are read, one after the other. -/
def Accepted (services : Services) (navVj : NavVj) :
    Option Datetime → List Pdp → Prop
  | _, [] => True
  | last, pdp :: rest =>
      match getNavitiaStopPoint services pdp navVj with
      | .error _ => False
      | .ok none => Accepted services navVj last rest
      | .ok (some _) =>
          Readable last pdp ∧
            Accepted services navVj (updateOf pdp .departure).projected rest

/-- A point with a stop, of which an event crashes when it is read. -/
def PointCrashes (services : Services) (navVj : NavVj) (pdp : Pdp) : Prop :=
  (∃ navStop, getNavitiaStopPoint services pdp navVj = .ok (some navStop)) ∧
    (EventCrashes pdp .arrival ∨
      (∃ arrival, makeEventUpdate pdp .arrival = .ok arrival) ∧
        EventCrashes pdp .departure)

section Points

variable {services : Services} {navVj : NavVj} {st st' : PdpState}
variable {pdp : Pdp} {pdps : List Pdp}

/-- The check does not depend on the name of the point. -/
theorem checkStopTimeConsistency_ok_of_ok
    {last arrival departure : Option Datetime} {pdpCode : String}
    (h : checkStopTimeConsistency last arrival departure pdpCode = .ok ())
    (pdpCode' : String) :
    checkStopTimeConsistency last arrival departure pdpCode' = .ok () := by
  unfold checkStopTimeConsistency at h ⊢
  simp only at h ⊢
  split at h
  · rename_i hconsistent
    exact if_pos hconsistent
  · cases h

theorem checkStopTimeConsistency_handled
    (last arrival departure : Option Datetime) (pdpCode : String) :
    Handled (checkStopTimeConsistency last arrival departure pdpCode) := by
  unfold checkStopTimeConsistency
  simp only
  split
  · exact raisesOnly_ok _ _
  · exact raisesOnly_error.2 rfl

/-- A point without a stop is skipped. -/
theorem makePdp_of_unknown
    (h : getNavitiaStopPoint services pdp navVj = .ok none) :
    makePdp services navVj st pdp = .ok st := by
  simp [makePdp, h, bind, Except.bind, pure, Except.pure]

/-- A point whose events are read appends the stop that it gives. -/
theorem makePdp_of_readable
    {navStop : NavStopPoint}
    (h : getNavitiaStopPoint services pdp navVj = .ok (some navStop))
    (hreadable : Readable st.lastStopTimeDepart pdp) :
    ∃ highest, makePdp services navVj st pdp = .ok
      { lastStopTimeDepart := (updateOf pdp .departure).projected
        highestStStatus := highest
        stopTimeUpdates := st.stopTimeUpdates ++
          [pointStop services st.stopTimeUpdates.length navStop pdp] } := by
  obtain ⟨arrival, harrival⟩ := hreadable.events .arrival
  obtain ⟨departure, hdeparture⟩ := hreadable.events .departure
  have hcheck := hreadable.consistent
  rw [updateOf_of_ok harrival, updateOf_of_ok hdeparture] at hcheck
  simp [makePdp, h, harrival, hdeparture, hcheck, pointStop,
    updateOf_of_ok harrival, updateOf_of_ok hdeparture, bind, Except.bind, pure,
    Except.pure]

theorem readable_of_makePdp
    {navStop : NavStopPoint}
    (h : getNavitiaStopPoint services pdp navVj = .ok (some navStop))
    (hst : makePdp services navVj st pdp = .ok st') :
    Readable st.lastStopTimeDepart pdp := by
  rcases makePdp_ok hst with ⟨hnone, -⟩ |
    ⟨_, arrival, departure, pdpCode, -, -, harrival, hdeparture, hcheck, -⟩
  · rw [h] at hnone
    cases hnone
  · refine ⟨fun e => ?_, ?_⟩
    · cases e with
      | arrival =>
          exact ⟨arrival, harrival⟩
      | departure =>
          exact ⟨departure, hdeparture⟩
    · rw [updateOf_of_ok harrival, updateOf_of_ok hdeparture]
      exact checkStopTimeConsistency_ok_of_ok hcheck

/-- The loop returns when the points are accepted. -/
theorem foldlM_makePdp_ok_iff :
    (∃ st', pdps.foldlM (makePdp services navVj) st = .ok st') ↔
      Accepted services navVj st.lastStopTimeDepart pdps := by
  induction pdps generalizing st with
  | nil =>
      exact iff_of_true ⟨st, rfl⟩ trivial
  | cons pdp rest ih =>
      simp only [List.foldlM_cons, Checked.bind_eq_ok, Accepted]
      cases hfound : getNavitiaStopPoint services pdp navVj with
      | error err =>
          refine iff_of_false ?_ not_false
          rintro ⟨st', st1, hturn, -⟩
          rw [makePdp, hfound] at hturn
          cases hturn
      | ok found =>
          cases found with
          | none =>
              rw [makePdp_of_unknown hfound, ← ih]
              simp
          | some navStop =>
              constructor
              · rintro ⟨st', st1, hturn, hrest⟩
                have hreadable := readable_of_makePdp hfound hturn
                obtain ⟨highest, hst1⟩ := makePdp_of_readable hfound hreadable
                rw [hst1] at hturn
                cases hturn
                exact ⟨hreadable, ih.1 ⟨st', hrest⟩⟩
              · rintro ⟨hreadable, hrest⟩
                obtain ⟨highest, hst1⟩ := makePdp_of_readable hfound hreadable
                have hafter : ∀ st1 : PdpState, Accepted services navVj
                    st1.lastStopTimeDepart rest →
                      ∃ st', rest.foldlM (makePdp services navVj) st1 = .ok st' :=
                  fun _ => ih.2
                exact (hafter _ hrest).imp (fun st' hst' => ⟨_, hst1, hst'⟩)

/-- The loop appends the stops that the points give. -/
theorem foldlM_makePdp_stops
    (h : pdps.foldlM (makePdp services navVj) st = .ok st') :
    st'.stopTimeUpdates = st.stopTimeUpdates ++
      stopsOf services navVj st.stopTimeUpdates.length pdps := by
  induction pdps generalizing st with
  | nil =>
      cases h
      exact (List.append_nil _).symm
  | cons pdp rest ih =>
      rw [List.foldlM_cons, Checked.bind_eq_ok] at h
      obtain ⟨st1, hturn, hrest⟩ := h
      rw [stopsOf]
      cases hfound : getNavitiaStopPoint services pdp navVj with
      | error err =>
          rw [makePdp, hfound] at hturn
          cases hturn
      | ok found =>
          cases found with
          | none =>
              rw [makePdp_of_unknown hfound] at hturn
              cases hturn
              exact ih hrest
          | some navStop =>
              obtain ⟨highest, hst1⟩ :=
                makePdp_of_readable hfound (readable_of_makePdp hfound hturn)
              rw [hst1] at hturn
              cases hturn
              rw [ih hrest, List.length_append, List.length_singleton,
                List.append_assoc, List.singleton_append]

/-- The search of a stop point raises what the request to navitia does. -/
theorem getNavitiaStopPoint_handled
    (hservices : ∀ code, Handled (services.stopPoint code))
    (pdp : Pdp) (navVj : NavVj) :
    Handled (getNavitiaStopPoint services pdp navVj) := by
  refine raisesOnly_bind.2 ⟨getValue_handled _ _, fun cr _ => ?_⟩
  refine raisesOnly_bind.2 ⟨getValue_handled _ _, fun ci _ => ?_⟩
  refine raisesOnly_bind.2 ⟨getValue_handled _ _, fun ch _ => ?_⟩
  simp only
  split
  · exact raisesOnly_pure _ _
  · exact hservices _

/-- A point raises an exception that is not one of Kirin when it crashes. -/
theorem makePdp_handled_iff
    (hservices : ∀ code, Handled (services.stopPoint code)) :
    Handled (makePdp services navVj st pdp) ↔
      ¬PointCrashes services navVj pdp := by
  have hfinish : ∀ (arrival departure : EventUpdate) (pdpCode : String)
      (st' : PdpState),
      Handled (checkStopTimeConsistency st.lastStopTimeDepart arrival.projected
        departure.projected pdpCode >>= fun _ => pure st') := by
    intro arrival departure pdpCode st'
    exact raisesOnly_bind.2
      ⟨checkStopTimeConsistency_handled _ _ _ _, fun _ _ => raisesOnly_pure _ _⟩
  unfold makePdp
  refine raisesOnly_bind.trans ?_
  rw [and_iff_right (getNavitiaStopPoint_handled hservices pdp navVj),
    PointCrashes]
  cases hfound : getNavitiaStopPoint services pdp navVj with
  | error err =>
      exact iff_of_true nofun (fun h => nomatch h.1.choose_spec)
  | ok found =>
      cases found with
      | none =>
          refine iff_of_true ?_ (fun h => nomatch h.1.choose_spec)
          rintro _ ⟨⟩
          exact raisesOnly_pure _ _
      | some navStop =>
          rw [and_iff_right ⟨navStop, rfl⟩, not_or, not_and,
            ← makeEventUpdate_handled_iff, ← makeEventUpdate_handled_iff,
            forall_exists_index]
          constructor
          · intro h
            obtain ⟨harrival, hrest⟩ := raisesOnly_bind.1 (h _ rfl)
            exact ⟨harrival, fun arrival hok =>
              (raisesOnly_bind.1 (hrest arrival hok)).1⟩
          · rintro ⟨harrival, hdeparture⟩ _ ⟨⟩
            refine raisesOnly_bind.2 ⟨harrival, fun arrival hok => ?_⟩
            exact raisesOnly_bind.2 ⟨hdeparture arrival hok,
              fun departure _ => hfinish arrival departure _ _⟩

/-- The loop crashes at a point that crashes, once the earlier ones are accepted. -/
theorem foldlM_makePdp_handled_iff
    (hservices : ∀ code, Handled (services.stopPoint code)) :
    Handled (pdps.foldlM (makePdp services navVj) st) ↔
      ∀ before pdp after, pdps = before ++ pdp :: after →
        Accepted services navVj st.lastStopTimeDepart before →
          ¬PointCrashes services navVj pdp := by
  refine raisesOnly_foldlM.trans ?_
  constructor
  · intro h before pdp after heq haccepted
    obtain ⟨st', hst'⟩ := foldlM_makePdp_ok_iff.2 haccepted
    exact (makePdp_handled_iff hservices).1 (h before pdp after st' heq hst')
  · intro h before pdp after st' heq hst'
    exact (makePdp_handled_iff hservices).2
      (h before pdp after heq (foldlM_makePdp_ok_iff.1 ⟨st', hst'⟩))

/-- The updates of the stops that the points give carry their delays. -/
theorem stopsOf_carriesDelays
    {order : Nat} :
    ∀ stu ∈ stopsOf services navVj order pdps, CarriesDelays stu := by
  induction pdps generalizing order with
  | nil =>
      intro stu hstu
      cases hstu
  | cons pdp rest ih =>
      rw [stopsOf]
      split
      · rw [List.forall_mem_cons]
        refine ⟨fun e hstatus => ?_, ih⟩
        cases e with
        | arrival =>
            exact updateOf_delay hstatus
        | departure =>
            exact updateOf_delay hstatus
      · exact ih

end Points

/-- The loop goes over the points of the train, once the header is read. -/
structure LoopOver
    (services : Services) (jsonTrain : DictVersion) (actionOnTrip : ActionOnTrip)
    (points : List Pdp) : Prop where
  company : ∃ companyId,
    getNavitiaCompany services
      ((truthyText jsonTrain.codeCompagnieTransporteur).getD defaultCompanyId) =
        .ok companyId
  running : ∃ status, jsonTrain.statutOperationnel = some status ∧
    status ≠ .supprimee
  mode : actionOnTrip ≠ .notAdded → ∃ physicalModeId,
    getNavitiaPhysicalMode services jsonTrain.indicateurFer = .ok physicalModeId
  points : ∃ listPdp, jsonTrain.listePointDeParcours = some listPdp ∧
    points = retrieveInterestingPdp listPdp

/-- Navitia answers, or its failure comes as an exception of Kirin. -/
structure HandledServices (services : Services) : Prop where
  stopPoint : ∀ code, Handled (services.stopPoint code)
  company : ∀ code, Handled (services.company code)
  physicalMode : ∀ mode, Handled (services.physicalMode mode)

/--
No point crashes when it is read, and once they all are, no stop outside the base
vehicle journey that is kept is without times, and no addition of the merge leaves
the datetimes of the language.
-/
structure NoCrash
    (services : Services) (found : FoundVj) (db : Option TripUpdate)
    (points : List Pdp) : Prop where
  read : ∀ before pdp after, points = before ++ pdp :: after →
    Accepted services found.navVj none before →
      ¬PointCrashes services found.navVj pdp
  merged : Accepted services found.navVj none points →
    ∀ (order : Nat) (stu : StopTimeUpdate),
      (stopsOf services found.navVj 0 points)[order]? = some stu →
      findStInVj stu.stopId found.navVj.toNavitiaVj.stopTimes = none →
      isKept db order stu = true → ¬Timeless db order stu
  additions : Accepted services found.navVj none points →
    AdditionsFit db found.navVj.toNavitiaVj.stopTimes 0
      (initialMergeState found.vj).calendar
      (stopsOf services found.navVj 0 points)

/--
The trip update is built, and merged with what is stored, with no exception but
the ones of Kirin.
-/
def BuildsAndMerges
    (services : Services) (contributorId : String) (jsonTrain : DictVersion)
    (found : FoundVj) (actionOnTrip : ActionOnTrip) (navitiaVj : NavitiaVj)
    (db : Option TripUpdate) : Prop :=
  Handled (makeTripUpdate services contributorId jsonTrain found actionOnTrip) ∧
    ∀ new,
      makeTripUpdate services contributorId jsonTrain found actionOnTrip =
        .ok new →
      Handled (mergeInRange navitiaVj db new true)

section Trip

variable {services : Services} {contributorId : String}
variable {jsonTrain : DictVersion} {found : FoundVj}
variable {actionOnTrip : ActionOnTrip} {new : NewTripUpdate}
variable {points : List Pdp}

theorem LoopOver.unique
    {points' : List Pdp} (h : LoopOver services jsonTrain actionOnTrip points)
    (h' : LoopOver services jsonTrain actionOnTrip points') :
    points' = points := by
  obtain ⟨listPdp, hlist, rfl⟩ := h.points
  obtain ⟨listPdp', hlist', rfl⟩ := h'.points
  rw [hlist] at hlist'
  cases hlist'
  rfl

/-- The trip update of a train that runs, from what the loop leaves. -/
theorem makeTripUpdate_of_loop
    (h : LoopOver services jsonTrain actionOnTrip points) :
    ∃ build : PdpState → NewTripUpdate,
      makeTripUpdate services contributorId jsonTrain found actionOnTrip =
        (points.foldlM (makePdp services found.navVj) startPdp).map build := by
  obtain ⟨companyId, hcompany⟩ := h.company
  obtain ⟨status, hstatus, hrunning⟩ := h.running
  obtain ⟨listPdp, hlist, rfl⟩ := h.points
  by_cases haction : actionOnTrip = .notAdded
  · simp only [makeTripUpdate, hcompany, hstatus, hlist, hrunning, haction, getValue,
      if_false, ne_eq, not_true, bind, Except.bind, pure, Except.pure]
    exact ⟨_, rfl⟩
  · obtain ⟨physicalModeId, hmode⟩ := h.mode haction
    simp only [makeTripUpdate, hcompany, hstatus, hlist, hrunning, haction, hmode,
      getValue, if_false, if_true, ne_eq, not_false_eq_true, bind, Except.bind,
      pure, Except.pure]
    exact ⟨_, rfl⟩

/-- A trip update that is built is the one of a train that runs, or is cancelled. -/
theorem loopOver_of_makeTripUpdate
    (h : makeTripUpdate services contributorId jsonTrain found actionOnTrip =
      .ok new) :
    jsonTrain.statutOperationnel = some .supprimee ∨
      ∃ points, LoopOver services jsonTrain actionOnTrip points := by
  simp only [makeTripUpdate, Checked.bind_eq_ok] at h
  obtain ⟨companyId, hcompany, status, hstatus, h⟩ := h
  have hstatus := getValue_ok hstatus
  split at h
  · rename_i hcancelled
    rw [hcancelled] at hstatus
    exact Or.inl hstatus
  · rename_i hrunning
    have hloop : ∀ listPdp,
        getValue "listePointDeParcours" jsonTrain.listePointDeParcours =
          .ok listPdp →
        (actionOnTrip ≠ .notAdded → ∃ physicalModeId,
          getNavitiaPhysicalMode services jsonTrain.indicateurFer =
            .ok physicalModeId) →
        LoopOver services jsonTrain actionOnTrip
          (retrieveInterestingPdp listPdp) := by
      intro listPdp hlist hmode
      exact ⟨⟨companyId, hcompany⟩, ⟨status, hstatus, hrunning⟩, hmode,
        ⟨listPdp, getValue_ok hlist, rfl⟩⟩
    split at h
    · simp only [Checked.bind_eq_ok] at h
      obtain ⟨physicalModeId, hmode, -, -, listPdp, hlist, -⟩ := h
      exact Or.inr ⟨_, hloop listPdp hlist (fun _ => ⟨physicalModeId, hmode⟩)⟩
    · rename_i hnotAdded
      simp only [Checked.bind_eq_ok] at h
      obtain ⟨-, -, listPdp, hlist, -⟩ := h
      exact Or.inr ⟨_, hloop listPdp hlist (fun hadded => absurd hadded hnotAdded)⟩

/-- The company and the mode are looked up again with a default. -/
theorem truthyText_or_handled
    {x y : Except PyException (Option String)} (hx : Handled x) (hy : Handled y) :
    Handled (do
      match truthyText (← x) with
      | some text => return some text
      | none => y) := by
  refine raisesOnly_bind.2 ⟨hx, fun text _ => ?_⟩
  cases truthyText text with
  | none =>
      exact hy
  | some text =>
      exact raisesOnly_pure _ _

/-- The building of a trip update raises what the loop over its points does. -/
theorem makeTripUpdate_handled_iff
    (hservices : HandledServices services) :
    Handled (makeTripUpdate services contributorId jsonTrain found actionOnTrip) ↔
      ∀ points, LoopOver services jsonTrain actionOnTrip points →
        Handled (points.foldlM (makePdp services found.navVj) startPdp) := by
  constructor
  · intro h points hloop
    obtain ⟨build, hbuild⟩ := makeTripUpdate_of_loop hloop
    rw [hbuild] at h
    exact raisesOnly_map.1 h
  · intro h
    unfold makeTripUpdate
    refine raisesOnly_bind.2 ⟨truthyText_or_handled (hservices.company _)
      (hservices.company _), fun companyId hcompany => ?_⟩
    refine raisesOnly_bind.2 ⟨getValue_handled _ _, fun status hstatus => ?_⟩
    have hstatus := getValue_ok hstatus
    simp only
    split
    · exact raisesOnly_pure _ _
    · rename_i hrunning
      have hpoints : ∀ listPdp,
          getValue "listePointDeParcours" jsonTrain.listePointDeParcours =
            .ok listPdp →
          (actionOnTrip ≠ .notAdded → ∃ physicalModeId,
            getNavitiaPhysicalMode services jsonTrain.indicateurFer =
              .ok physicalModeId) →
          Handled ((retrieveInterestingPdp listPdp).foldlM
            (makePdp services found.navVj) startPdp) := by
        intro listPdp hlist hmode
        exact h _ ⟨⟨companyId, hcompany⟩, ⟨status, hstatus, hrunning⟩, hmode,
          ⟨listPdp, getValue_ok hlist, rfl⟩⟩
      split
      · refine raisesOnly_bind.2 ⟨truthyText_or_handled (hservices.physicalMode _)
          (hservices.physicalMode _), fun physicalModeId hmode => ?_⟩
        refine raisesOnly_bind.2 ⟨raisesOnly_pure _ _, fun base _ => ?_⟩
        refine raisesOnly_bind.2 ⟨getValue_handled _ _, fun listPdp hlist => ?_⟩
        exact raisesOnly_bind.2
          ⟨hpoints listPdp hlist (fun _ => ⟨physicalModeId, hmode⟩),
            fun st _ => raisesOnly_pure _ _⟩
      · rename_i hnotAdded
        refine raisesOnly_bind.2 ⟨raisesOnly_pure _ _, fun base _ => ?_⟩
        refine raisesOnly_bind.2 ⟨getValue_handled _ _, fun listPdp hlist => ?_⟩
        exact raisesOnly_bind.2
          ⟨hpoints listPdp hlist (fun hadded => absurd hadded hnotAdded),
            fun st _ => raisesOnly_pure _ _⟩

/-- The merge of a trip that is suppressed reads none of its stops. -/
theorem mergeInRange_handled_of_delete
    {navitiaVj : NavitiaVj} {db : Option TripUpdate} {isNewComplete : Bool}
    (h : new.status = .delete) :
    Handled (mergeInRange navitiaVj db new isNewComplete) := by
  rw [mergeInRange, if_pos h]
  exact raisesOnly_ok _ _

/-- The merge of a train that runs, from the stops that its points give. -/
theorem mergeInRange_handled_iff_stopsOf
    {navitiaVj : NavitiaVj} {db : Option TripUpdate}
    (hloop : LoopOver services jsonTrain actionOnTrip points)
    (h : makeTripUpdate services contributorId jsonTrain found actionOnTrip =
      .ok new) :
    Handled (mergeInRange navitiaVj db new true) ↔
      (∀ (order : Nat) (stu : StopTimeUpdate),
        (stopsOf services found.navVj 0 points)[order]? = some stu →
        findStInVj stu.stopId found.navVj.toNavitiaVj.stopTimes = none →
        isKept db order stu = true → ¬Timeless db order stu) ∧
      AdditionsFit db found.navVj.toNavitiaVj.stopTimes 0
        (initialMergeState found.vj).calendar
        (stopsOf services found.navVj 0 points) := by
  obtain ⟨status, hstatus, hrunning⟩ := hloop.running
  have hnotCancelled : jsonTrain.statutOperationnel ≠ some .supprimee := by
    rw [hstatus]
    exact fun heq => hrunning (Option.some_inj.1 heq)
  obtain ⟨st, hst, hvj, hnavitiaVj, -, hstus, hadded, hupdated⟩ :=
    makeTripUpdate_running h hnotCancelled
  obtain ⟨listPdp, hlist, rfl⟩ := hloop.points
  rw [hlist, Option.getD_some] at hst
  have hstops : new.stopTimeUpdates =
      stopsOf services found.navVj 0 (retrieveInterestingPdp listPdp) := by
    rw [hstus, foldlM_makePdp_stops hst]
    rfl
  have hdelays : FeedCarriesDelays new := by
    intro stu hstu
    rw [hstops] at hstu
    exact stopsOf_carriesDelays stu hstu
  have hdelete : new.status ≠ .delete := by
    by_cases haction : actionOnTrip = .notAdded
    · rw [(hupdated haction).1]
      exact nofun
    · rw [(hadded haction).1]
      exact nofun
  rw [mergeInRange_handled_iff navitiaVj hdelete (makeTripUpdate_ok h).indexed
    hdelays, hstops, hnavitiaVj, hvj]

end Trip

namespace Sample

theorem handledServices : HandledServices services where
  stopPoint := fun _ => raisesOnly_ok _ _
  company := fun _ => raisesOnly_ok _ _
  physicalMode := fun _ => raisesOnly_ok _ _

/-- A vehicle journey without stops. -/
def emptyVj : FoundVj where
  navVj := makeNavitiaEmptyVj "1"
  vj := { id := "vj", navitiaTripId := "OCE:SN:1", startTimestamp := 0 }

/-- Three points, the arrival at the second one being late and without its time. -/
def undatedPoints : List Pdp :=
  let t := Core.Sample.clock 10 0
  [pdp 0 "a" t t,
    { pdp 1 "b" t t with
      horaireVoyageurArrivee := some
        { isEmpty := false, dateHeure := none, statutCirculationOPE := none
          empty := nofun }
      listeHoraireProjeteArrivee := some
        [{ source := none, pronosticIV := some 300 }] },
    pdp 2 "c" t t]

end Sample

end Cots
end Kirin
