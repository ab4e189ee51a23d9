import Kirin.Cots.Recognition
import Kirin.Cots.TripIdentity

/-!
# Kirin: the life cycle of an added COTS trip

An added trip is absent, added or deleted, and the feeds of its train move it
from one stage to another or are refused.

* `Stage.next`: the life cycle, as a machine of its own.
* `LifeStep`: what a feed does, in the terms of the life cycle.
* `step_oneLife`: a feed does what the life cycle says to the one trip of its
  train.
* `added_trip_lifeCycle`: every feed of a run does, from a database without any
  trip of the train in the period.
-/

namespace Kirin
namespace Cots

open Kirin.Core

/-- Where the life of an added trip stands. -/
inductive Stage
  | absent
  | added
  | deleted
deriving DecidableEq, Repr

/-- What a feed asks for. -/
inductive Order
  | add
  | cancel
  | modify
deriving DecidableEq, Repr

/-- What a feed asks for, by its `statutOperationnel`. -/
def orderOf : Option TripStatus → Order
  | some .ajoutee => .add
  | some .supprimee => .cancel
  | _ => .modify

namespace Stage

/-- The stage that an order leads to, unless it is refused. -/
def next : Stage → Order → Option Stage
  | absent, .add => some added
  | absent, _ => some absent
  | added, .add => none
  | added, .cancel => some deleted
  | added, .modify => some added
  | deleted, .add => some added
  | deleted, _ => none

/-- What is stored for a trip at a given stage. -/
def Holds : Stage → Option TripUpdate → Prop
  | absent, stored => stored = none
  | added, stored => ∃ row, stored = some row ∧ row.status = .add
  | deleted, stored => ∃ row, stored = some row ∧ row.status = .delete ∧
      row.stopTimeUpdates = []

end Stage

/-- A feed on a circulation of a train that navitia does not know. -/
structure OnTrip (n : String) (vjStart vjEnd : Datetime) (f : Feed) : Prop where
  reads : ∃ v pdps, Reads f.raw v n pdps ∧ Spans pdps vjStart vjEnd
  unknown : UnknownTo f.services n

/-- What a feed does to the trip of its train, which is at a given stage. -/
inductive LifeStep
    (c n : String) (vjStart vjEnd : Datetime) (db : Db) (f : Feed)
    (stage : Stage) (order : Order) : Prop
  | refused
      (hnext : stage.next order = none) (detail : String)
      (houtcome : (receive c db f).outcome = .error (.invalidArguments detail))
      (hleaves : LeavesTrips c db f)
  | unbuilt
      (hnext : stage.next order ≠ none) {e : PyException}
      (hbuild : f.build c db.tripUpdates = .error e)
      (houtcome : (receive c db f).outcome.isOk = false)
      (hleaves : LeavesTrips c db f)
  | unwritten
      (hnext : stage.next order ≠ none) {t : NewTripUpdate}
      (hbuild : f.build c db.tripUpdates = .ok [t])
      (hunwritable : ¬ Writable c f
        (findTripAddedInDb db.tripUpdates n vjStart vjEnd) t)
      (houtcome : (receive c db f).outcome.isOk = false)
      (hleaves : LeavesTrips c db f)
  | unaccepted
      (hstage : stage = .absent) (horder : order = .add)
      (hrows : (receive c db f).db.tripUpdates = db.tripUpdates)
  | moved
      {stage' : Stage} (hnext : stage.next order = some stage')
      (hholds : stage'.Holds
        (findTripAddedInDb (step c db f).tripUpdates n vjStart vjEnd))

/-- The trips of a train around a period are one that is at some stage. -/
def OneLife
    (n : String) (vjStart vjEnd : Datetime) (rows : List TripUpdate) : Prop :=
  KeepsDeparture rows n vjStart vjEnd ∧
    ∃ stage, Stage.Holds stage (findTripAddedInDb rows n vjStart vjEnd)

/-- A feed does to the trip of its train what the life cycle says. -/
def FollowsLifeCycle
    (c n : String) (vjStart vjEnd : Datetime) (db : Db) (f : Feed) : Prop :=
  ∃ stage, Stage.Holds stage
      (findTripAddedInDb db.tripUpdates n vjStart vjEnd) ∧
    ∀ v pdps, Reads f.raw v n pdps →
      LifeStep c n vjStart vjEnd db f stage (orderOf v.statutOperationnel)

section Orders

variable {n : String} {status : Option TripStatus} {stored : Option TripUpdate}
variable {stage stage' : Stage} {order : Order}

theorem orderOf_eq_add :
    orderOf status = .add ↔ status = some .ajoutee := by
  unfold orderOf
  split <;> simp_all

theorem orderOf_eq_cancel :
    orderOf status = .cancel ↔ status = some .supprimee := by
  unfold orderOf
  split <;> simp_all

/-- What is refused is to add a trip twice, and anything else on a deleted one. -/
theorem Stage.next_eq_none :
    stage.next order = none ↔
      stage = .added ∧ order = .add ∨ stage = .deleted ∧ order ≠ .add := by
  cases stage <;> cases order <;> simp [next]

/-- An order on a stored trip leads to its deletion, or has it added. -/
theorem Stage.next_of_present
    (hpresent : stage ≠ .absent) (hnext : stage.next order = some stage') :
    stage' = if order = .cancel then .deleted else .added := by
  cases stage <;> cases order <;> simp_all [next]

/-- An order that the life cycle refuses is refused for what is stored. -/
theorem actionOnStored_refused
    (hholds : stage.Holds stored)
    (hnext : stage.next (orderOf status) = none) (htext : hasNul n = false) :
    ∃ detail, actionOnStored n status stored =
        .error (.invalidArguments detail) ∧ hasNul detail = false := by
  rcases Stage.next_eq_none.1 hnext with ⟨rfl, horder⟩ | ⟨rfl, horder⟩
  · obtain ⟨row, rfl, hadd⟩ := hholds
    rw [orderOf_eq_add] at horder
    simp only [actionOnStored]
    refine ⟨_, if_pos ⟨horder, hadd⟩, ?_⟩
    simp only [hasNul_append, htext]
    decide
  · obtain ⟨row, rfl, hdelete, -⟩ := hholds
    rw [ne_eq, orderOf_eq_add] at horder
    simp only [actionOnStored]
    rw [if_neg (fun h => horder h.1)]
    refine ⟨_, if_pos ⟨horder, hdelete⟩, ?_⟩
    simp only [hasNul_append, htext]
    decide

/-- An order that the life cycle takes on a stored trip adds its train. -/
theorem actionOnStored_taken
    (hholds : stage.Holds stored) (hpresent : stage ≠ .absent)
    (htaken : stage.next (orderOf status) ≠ none) :
    ∃ action, actionOnStored n status stored = .ok action ∧
      action ≠ .notAdded := by
  rw [ne_eq, Stage.next_eq_none] at htaken
  cases stage with
  | absent =>
      exact absurd rfl hpresent
  | added =>
      obtain ⟨row, rfl, hadd⟩ := hholds
      have hother : status ≠ some .ajoutee :=
        fun h => htaken (Or.inl ⟨rfl, orderOf_eq_add.2 h⟩)
      exact ⟨.previouslyAdded, by simp [actionOnStored, hadd, hother], by simp⟩
  | deleted =>
      obtain ⟨row, rfl, hdelete, -⟩ := hholds
      have hajoutee : status = some .ajoutee := by
        by_contra h
        exact htaken (Or.inr ⟨rfl, fun horder => h (orderOf_eq_add.1 horder)⟩)
      exact ⟨.firstTimeAdded, by simp [actionOnStored, hdelete, hajoutee],
        by simp⟩

/-- An order on an absent trip adds it, or does not add its train. -/
theorem actionOnStored_absent :
    actionOnStored n status none =
      .ok (if orderOf status = .add then .firstTimeAdded else .notAdded) := by
  simp only [actionOnStored, orderOf_eq_add]
  split <;> rfl

end Orders

section Step

variable {c n : String} {vjStart vjEnd : Datetime} {db : Db} {f : Feed}
variable {v : DictVersion} {pdps : List Pdp} {stage stage' : Stage}

theorem OnTrip.onTrain
    (h : OnTrip n vjStart vjEnd f) :
    OnTrain n f := by
  obtain ⟨v, pdps, hreads, -⟩ := h.reads
  exact ⟨fun v' n' pdps' hreads' => (hreads.unique hreads').2.1, h.unknown⟩

/-- The trip that a feed adds starts at its departure, added or deleted. -/
theorem added_header
    {c : String} {action : ActionOnTrip} {newId : String → String}
    {t : NewTripUpdate}
    (hmade : MadeFrom c v (addedVj newId vjStart n) action t)
    (hadded : action ≠ .notAdded) (b : Builder) (old : Option TripUpdate) :
    Stage.Holds
      (if orderOf v.statutOperationnel = .cancel then .deleted else .added)
      (some (processTripUpdate b old t).tripUpdate) := by
  have hstatus : (processTripUpdate b old t).tripUpdate.status = t.status :=
    processTripUpdate_header.1
  split
  · rename_i horder
    have hcancelled := hmade.cancelled (orderOf_eq_cancel.1 horder)
    refine ⟨_, rfl, hstatus.trans hcancelled.1, ?_⟩
    rw [processTripUpdate_cancelled hcancelled.1]
  · rename_i horder
    rw [orderOf_eq_cancel] at horder
    exact ⟨_, rfl, hstatus.trans (hmade.added horder hadded)⟩

/-- The trips of a train keep the departure of its feeds. -/
theorem step_keepsDeparture
    (c : String) (hplain : PlainNumber n) (htrip : OnTrip n vjStart vjEnd f)
    (hkeeps : KeepsDeparture db.tripUpdates n vjStart vjEnd) :
    KeepsDeparture (step c db f).tripUpdates n vjStart vjEnd := by
  obtain ⟨v, pdps, hreads, hspans⟩ := htrip.reads
  have hsingle := singleNumber_of_plain hplain
  obtain ⟨h, hsingle', hdeparture⟩ := hkeeps
  refine ⟨h, hsingle', fun row hrow htrain hwindow => ?_⟩
  cases hbuild : f.build c db.tripUpdates with
  | error e =>
      rw [step, (receive_rejected hbuild).2.rows] at hrow
      exact hdeparture row hrow htrain hwindow
  | ok ts =>
      rcases receive_touched hbuild hrow with hold | ⟨t, ht, -, hkey⟩
      · exact hdeparture row hold htrain hwindow
      · rcases build_single hreads htrip.unknown hsingle' hbuild with
          ⟨-, rfl⟩ | ⟨action, vjStart', vjEnd', t', hadds, rfl, hmade⟩
        · cases ht
        · obtain rfl := List.mem_singleton.1 ht
          obtain ⟨rfl, rfl⟩ := hspans.unique hadds.spans
          exact hkey.trans hmade.datedKey

/-- A feed on a trip that is absent adds it, or does not. -/
theorem step_absent
    (hplain : PlainNumber n) (hwindow : vjStart ≤ vjEnd + sncfSearchMargin)
    (hreads : Reads f.raw v n pdps) (hspans : Spans pdps vjStart vjEnd)
    (hunknown : UnknownTo f.services n)
    (habsent : findTripAddedInDb db.tripUpdates n vjStart vjEnd = none) :
    LifeStep c n vjStart vjEnd db f .absent (orderOf v.statutOperationnel) := by
  have htaken : Stage.absent.next (orderOf v.statutOperationnel) ≠ none := by
    simp [Stage.next_eq_none]
  have haction : getActionOnTrip db.tripUpdates n v pdps =
      .ok (if orderOf v.statutOperationnel = .add then .firstTimeAdded
        else .notAdded) := by
    rw [getActionOnTrip_of_spans hspans, habsent, actionOnStored_absent]
  cases hbuild : f.build c db.tripUpdates with
  | error e =>
      exact .unbuilt htaken hbuild (receive_rejected hbuild).1
        (receive_rejected hbuild).2
  | ok ts =>
      rcases build_single hreads hunknown (singleNumber_of_plain hplain)
          hbuild with
        ⟨hnot, rfl⟩ | ⟨action, vjStart', vjEnd', t, hadds, rfl, hmade⟩
      · -- the feed is not an addition
        have horder : orderOf v.statutOperationnel ≠ .add := by
          intro horder
          rw [haction, if_pos horder] at hnot
          cases hnot
        have hnext : Stage.absent.next (orderOf v.statutOperationnel) =
            some .absent := by
          cases horder' : orderOf v.statutOperationnel with
          | add =>
              exact absurd horder' horder
          | _ => rfl
        refine .moved hnext ?_
        rw [step, receive_empty hbuild]
        exact habsent
      · obtain ⟨rfl, rfl⟩ := hspans.unique hadds.spans
        have horder : orderOf v.statutOperationnel = .add := by
          by_contra horder
          rw [getActionOnTrip_of_spans hspans, hadds.known, if_neg horder]
            at haction
          cases haction
          exact absurd rfl hadds.added
        have hkey : (processTripUpdate (builder c) none t).tripUpdate.vj.datedKey =
            (trainIdFormat n, vjStart') := by
          rw [processTripUpdate_vj]
          exact hmade.datedKey
        have hfind := findByDatedVj_eq_none_of_absent habsent hwindow
          hmade.datedKey
        rcases receive_none hbuild hfind with hsame | hconcat
        · exact .unaccepted rfl horder hsame
        · have hnext : Stage.absent.next (orderOf v.statutOperationnel) =
              some .added := by
            rw [horder]
            rfl
          refine .moved hnext ?_
          have hadded := added_header hmade hadds.added (builder c) none
          rw [if_neg (by rw [horder]; simp)] at hadded
          rw [step, hconcat, findTripAddedInDb_append habsent
            (congrArg Prod.fst hkey)
            (inWindow_of_start hwindow (congrArg Prod.snd hkey))]
          exact hadded

/-- The number of a stored trip is a text that the driver takes. -/
theorem hasNul_of_stored
    {old : TripUpdate}
    (hold : findTripAddedInDb db.tripUpdates n vjStart vjEnd = some old) :
    hasNul n = false := by
  obtain ⟨hmem, hid, -⟩ := findTripAddedInDb_some hold
  have htext : hasNul old.vj.navitiaTripId = false :=
    db.texts old hmem _ (by simp [TripUpdate.texts, TripUpdate.headerTexts])
  rw [hid, trainIdFormat, hasNul_append, Bool.or_eq_false_iff] at htext
  exact htext.2

/-- A feed on a stored trip is refused, overwrites it, or is not written. -/
theorem step_present
    (hplain : PlainNumber n) (htrip : OnTrip n vjStart vjEnd f)
    (hreads : Reads f.raw v n pdps) (hspans : Spans pdps vjStart vjEnd)
    (hnew : Unlinked db f.rtu)
    (hkeeps : KeepsDeparture db.tripUpdates n vjStart vjEnd)
    (hpresent : stage ≠ .absent)
    (hholds : stage.Holds
      (findTripAddedInDb db.tripUpdates n vjStart vjEnd)) :
    LifeStep c n vjStart vjEnd db f stage (orderOf v.statutOperationnel) := by
  obtain ⟨old, hold⟩ : ∃ old,
      findTripAddedInDb db.tripUpdates n vjStart vjEnd = some old := by
    cases stage with
    | absent => exact absurd rfl hpresent
    | _ => exact ⟨hholds.choose, hholds.choose_spec.1⟩
  cases hnext : stage.next (orderOf v.statutOperationnel) with
  | none =>
      obtain ⟨detail, hrefused, htext⟩ := actionOnStored_refused hholds hnext
        (hasNul_of_stored hold)
      obtain ⟨detail', hbuild, htext'⟩ := build_refused (c := c) hreads
        ((getActionOnTrip_of_spans hspans).trans hrefused) htext
      exact .refused hnext detail' (receive_invalid hbuild htext')
        (receive_rejected hbuild).2
  | some stage' =>
      have htaken : stage.next (orderOf v.statutOperationnel) ≠ none := by
        simp [hnext]
      cases hbuild : f.build c db.tripUpdates with
      | error e =>
          exact .unbuilt htaken hbuild (receive_rejected hbuild).1
            (receive_rejected hbuild).2
      | ok ts =>
          obtain ⟨action, haction, hadded⟩ :=
            actionOnStored_taken (n := n) hholds hpresent htaken
          have haction' :=
            (getActionOnTrip_of_spans hspans).trans haction
          obtain ⟨t, rfl, -, hrows⟩ := step_keepsIdentity (c := c) hnew
            htrip.onTrain (steady_of_keepsDeparture hreads hspans hkeeps)
            v n pdps vjStart vjEnd action old ts hreads hspans haction' hadded
            hold hbuild
          obtain ⟨t', hone, hmade⟩ := build_adds hreads htrip.unknown
            (singleNumber_of_plain hplain) hspans haction' hadded hbuild
          cases hone
          rcases hrows with hrows | ⟨hunwritable, hraises, hleaves⟩
          · refine .moved hnext ?_
            rw [step, hrows, findTripAddedInDb_replaceRow db.uniqueVj hold
              processTripUpdate_vj, Stage.next_of_present hpresent hnext]
            exact added_header hmade hadded (builder c) (some old)
          · exact .unwritten htaken hbuild (hold ▸ hunwritable) hraises hleaves

/-- The stage of a trip after a feed that follows its life cycle. -/
theorem FollowsLifeCycle.holds_after
    (h : FollowsLifeCycle c n vjStart vjEnd db f)
    (htrip : OnTrip n vjStart vjEnd f) :
    ∃ stage', Stage.Holds stage'
      (findTripAddedInDb (step c db f).tripUpdates n vjStart vjEnd) := by
  obtain ⟨stage, hholds, hstep⟩ := h
  obtain ⟨v, pdps, hreads, -⟩ := htrip.reads
  have hsame : (step c db f).tripUpdates = db.tripUpdates →
      ∃ stage', Stage.Holds stage'
        (findTripAddedInDb (step c db f).tripUpdates n vjStart vjEnd) := by
    intro hrows
    exact ⟨stage, hrows ▸ hholds⟩
  cases hstep v pdps hreads with
  | refused hnext detail houtcome hleaves => exact hsame hleaves.rows
  | unbuilt hnext hbuild houtcome hleaves => exact hsame hleaves.rows
  | unwritten hnext hbuild hunwritable houtcome hleaves =>
      exact hsame hleaves.rows
  | unaccepted hstage horder hrows => exact hsame hrows
  | moved hnext hholds' => exact ⟨_, hholds'⟩

/-- A feed does what the life cycle says to the one trip of its train. -/
theorem step_oneLife
    (c : String) (hplain : PlainNumber n)
    (hwindow : vjStart ≤ vjEnd + sncfSearchMargin)
    (htrip : OnTrip n vjStart vjEnd f) (hnew : Unlinked db f.rtu)
    (hlife : OneLife n vjStart vjEnd db.tripUpdates) :
    OneLife n vjStart vjEnd (step c db f).tripUpdates ∧
      FollowsLifeCycle c n vjStart vjEnd db f := by
  obtain ⟨hkeeps, stage, hholds⟩ := hlife
  have hfollows : FollowsLifeCycle c n vjStart vjEnd db f := by
    refine ⟨stage, hholds, fun v pdps hreads => ?_⟩
    obtain ⟨v', pdps', hreads', hspans⟩ := htrip.reads
    obtain ⟨rfl, -, rfl⟩ := hreads'.unique hreads
    by_cases hstage : stage = .absent
    · subst hstage
      exact step_absent hplain hwindow hreads hspans htrip.unknown hholds
    · exact step_present hplain htrip hreads hspans hnew hkeeps hstage hholds
  exact ⟨⟨step_keepsDeparture c hplain htrip hkeeps,
    hfollows.holds_after htrip⟩, hfollows⟩

end Step

/--
Along the feeds on a circulation of a train that navitia does not know, from a
database without any trip of the train in the period, every feed does what the
life cycle of an added trip says, and the train has one trip at most, which is
added or deleted.
-/
theorem added_trip_lifeCycle
    {c n : String} {vjStart vjEnd : Datetime} {db : Db} {feeds : List Feed}
    (hplain : PlainNumber n) (hwindow : vjStart ≤ vjEnd + sncfSearchMargin)
    (htrip : ∀ f ∈ feeds, OnTrip n vjStart vjEnd f)
    (hnew : Runs.Along (step c) (fun db f => Unlinked db f.rtu) db feeds)
    (habsent : ∀ row ∈ db.tripUpdates, OfTrain n row.vj →
      ¬ InWindow vjStart vjEnd row.vj) :
    Runs.Along (step c) (FollowsLifeCycle c n vjStart vjEnd) db feeds ∧
      OneLife n vjStart vjEnd (feeds.foldl (step c) db).tripUpdates := by
  have hlife : OneLife n vjStart vjEnd db.tripUpdates := by
    refine ⟨⟨n, singleNumber_of_plain hplain, fun row hrow htrain hin =>
      absurd hin (habsent row hrow htrain)⟩, .absent, ?_⟩
    cases hfind : findTripAddedInDb db.tripUpdates n vjStart vjEnd with
    | none => rfl
    | some row =>
        obtain ⟨hrow, hid, hin⟩ := findTripAddedInDb_some hfind
        exact absurd hin (habsent row hrow (Or.inl hid))
  have hstep : ∀ db f, OneLife n vjStart vjEnd db.tripUpdates →
      OnTrip n vjStart vjEnd f ∧ Unlinked db f.rtu →
      OneLife n vjStart vjEnd (step c db f).tripUpdates ∧
        FollowsLifeCycle c n vjStart vjEnd db f :=
    fun db f hlife h => step_oneLife c hplain hwindow h.1 h.2 hlife
  obtain ⟨hend, hfollows⟩ := Runs.along_of_invariant hstep
    ((Runs.along_of_forall htrip).and hnew) hlife
  exact ⟨hfollows, hend⟩

namespace Sample

/-- A train that is added, modified, deleted, then added again. -/
def wholeLife : List Feed :=
  [received "1" "8000" .ajoutee (points (Core.Sample.clock 8 0)),
    received "2" "8000" .perturbee (points (Core.Sample.clock 8 0)),
    received "3" "8000" .supprimee (points (Core.Sample.clock 8 0)),
    received "4" "8000" .ajoutee (points (Core.Sample.clock 8 0))]

/-- A train that arrives two hours before it departs, but for its delay. -/
def earlyArrival : List Pdp :=
  [pdp 0 "a" (Core.Sample.clock 8 0) (Core.Sample.clock 8 0),
    { pdp 1 "b" (Core.Sample.clock 6 0) (Core.Sample.clock 6 0) with
      horaireVoyageurDepart := none
      listeHoraireProjeteArrivee :=
        some [{ source := none, pronosticIV := some 10800 }] }]

/-- A train whose second stop is before the first one. -/
def backInTime : List Pdp :=
  [pdp 0 "a" (Core.Sample.clock 8 0) (Core.Sample.clock 8 0),
    pdp 1 "c" (Core.Sample.clock 7 0) (Core.Sample.clock 7 0),
    pdp 2 "b" (Core.Sample.clock 10 0) (Core.Sample.clock 10 0)]

/-- The database once feeds are processed. -/
def after (feeds : List Feed) : Db :=
  feeds.foldl (step "realtime.cots") Core.Sample.emptyDb

end Sample

theorem added_trip_lifeCycle_wholeLife :
    Runs.Along (step "realtime.cots")
        (FollowsLifeCycle "realtime.cots" "8000" (Core.Sample.clock 8 0)
          (Core.Sample.clock 10 0))
        Core.Sample.emptyDb Sample.wholeLife ∧
      OneLife "8000" (Core.Sample.clock 8 0) (Core.Sample.clock 10 0)
        (Sample.wholeLife.foldl (step "realtime.cots")
          Core.Sample.emptyDb).tripUpdates := by
  have hspans : Spans
      (retrieveInterestingPdp (Sample.points (Core.Sample.clock 8 0)))
      (Core.Sample.clock 8 0) (Core.Sample.clock 10 0) :=
    ⟨by decide, by decide⟩
  refine added_trip_lifeCycle (by decide) (by decide) ?_
    ⟨by decide, by decide, by decide, by decide, trivial⟩ (by decide)
  intro f hf
  have hreceived : ∃ id status, f = Sample.received id "8000" status
      (Sample.points (Core.Sample.clock 8 0)) := by
    simp only [Sample.wholeLife, List.mem_cons, List.not_mem_nil, or_false] at hf
    rcases hf with rfl | rfl | rfl | rfl <;> exact ⟨_, _, rfl⟩
  obtain ⟨id, status, rfl⟩ := hreceived
  exact ⟨⟨_, _, Sample.reads_received id "8000" status _, hspans⟩,
    Sample.unknownTo_services "8000"⟩

/--
A train that arrives long before it departs is added twice without being
refused, and one whose times are not consistent is not added again.
-/
theorem added_trip_lifeCycle_fails :
    ((Sample.after [Sample.received "1" "8000" .ajoutee
        Sample.earlyArrival]).tripUpdates.map TripUpdate.status = [.add] ∧
      (receive "realtime.cots"
        (Sample.after [Sample.received "1" "8000" .ajoutee Sample.earlyArrival])
        (Sample.received "2" "8000" .ajoutee Sample.earlyArrival)).outcome.isOk =
          true) ∧
    ((Sample.after [Sample.received "1" "8000" .ajoutee
          (Sample.points (Core.Sample.clock 8 0)),
        Sample.received "2" "8000" .supprimee
          (Sample.points (Core.Sample.clock 8 0))]).tripUpdates.map
            TripUpdate.status = [.delete] ∧
      (Sample.after [Sample.received "1" "8000" .ajoutee
          (Sample.points (Core.Sample.clock 8 0)),
        Sample.received "2" "8000" .supprimee
          (Sample.points (Core.Sample.clock 8 0)),
        Sample.received "3" "8000" .ajoutee
          Sample.backInTime]).tripUpdates.map TripUpdate.status = [.delete]) := by
  decide

end Cots
end Kirin
