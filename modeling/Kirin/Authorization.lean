import Kirin.Application
import Kirin.Library.History

/-!
# Kirin: the contributors of the rows

A process looks for its contributor before it processes anything, and the table may
change in between.

* `once_authorized`: a process has the builder of a contributor that was active.
* `Referenced`: what the stored rows refer to, and `Step.referenced`.
* `rows_authorized`: every row belongs to a contributor that was active and had
  its connector when a process found it, and that is still in the table.
* `deactivated_brings_nothing`: once a contributor is deactivated and its processes
  are over, it brings no row any more.
-/

namespace Kirin

open Kirin.Core
open Kirin.Resources (Contributor ContributorTable Request)
open History (Once once_of_now)
open Relation (ReflTransGen)

section Steps

variable {ι : Type} [DecidableEq ι]
variable {confReloadInterval : Timedelta} {s s' start : App ι} {b : Builder}

section Run

variable (hrun : ReflTransGen (Step confReloadInterval) start s)
include hrun

/-- A process has the builder of a contributor that was authorized once. -/
theorem once_authorized
    (hidle : ∀ i, start.process i = .idle) (hb : Holds s b) :
    Once (Step confReloadInterval) start
      (fun s1 => Authorizes s1.contributors b) s := by
  have hcomes := History.once_of_comes Holds
    (fun b (s1 : App ι) => Authorizes s1.contributors b)
    (fun _ _ _ hrun hstep hb =>
      (hstep.holds hb).imp_right (fun h => once_of_now hrun h)) hrun hb
  refine hcomes.resolve_left ?_
  rintro ⟨i, hi⟩
  rw [hidle i] at hi
  cases hi

end Run

/-- What the stored rows refer to: their contributors, and the rows of the links. -/
structure Referenced (s : App ι) : Prop where
  feeds : ∀ row, HasRow s row → row.contributorId ∈ s.ids
  trips : ∀ trip, HasTrip s.store trip → trip.2 ∈ s.ids
  links : s.store.db.Linked

/-- No link of the store dangles after a step. -/
theorem Step.linked
    (hstep : Step confReloadInterval s s') (h : s.store.db.Linked) :
    s'.store.db.Linked := by
  have hpurged : s.store.Step s'.store → s'.store.db.Linked := fun hstore =>
    (Store.consistent_iff _).1
      (hstore.consistent ((Store.consistent_iff _).2 h)).1
  cases hstep.changes with
  | leaves hstore =>
      exact hstore ▸ h
  | receives b p hb hid hnew hstore =>
      rw [hstore]
      exact (linked_wrapBuildFeed h _ _ _ _).2
  | saves b rtu hb hid hcontributor hconnector hstore =>
      rw [hstore]
      exact h.of_same rfl rfl (keepsFeeds_saveRtu _ rtu)
  | purgesTripUpdates config locked today hplanned htables =>
      exact hpurged (.purgedTripUpdates config locked today _ htables)
  | purgesRtUpdates config locked today hplanned htables =>
      exact hpurged (.purgedRtUpdates config locked today _ htables)

/-- A row that is stored refers to a contributor, which stays or has no row. -/
theorem Step.referenced
    (hstep : Step confReloadInterval s s') (h : Referenced s) :
    Referenced s' := by
  refine ⟨fun row hrow => ?_, fun trip htrip => ?_, hstep.linked h.links⟩
  · have hknown : row.contributorId ∈ s.ids :=
      (hstep.rows hrow).elim (h.feeds row) (fun hnew => hnew.2)
    refine (hstep.keepsIds hknown).resolve_right ?_
    rintro ⟨hstore, hfree⟩
    rw [HasRow, hstore] at hrow
    have hrefers := refersTo_eq_true_iff.2 (Or.inl ⟨row, hrow, rfl⟩)
    exact Bool.false_ne_true (hfree.symm.trans hrefers)
  · have hknown : trip.2 ∈ s.ids := by
      rcases hstep.trips htrip with hold | ⟨b, -, hid, hcontributor⟩
      · exact h.trips trip hold
      · exact hcontributor ▸ hid
    refine (hstep.keepsIds hknown).resolve_right ?_
    rintro ⟨hstore, hfree⟩
    rw [hstore] at htrip
    obtain ⟨tu, htu, rfl⟩ := htrip
    have hrefers := refersTo_eq_true_iff.2 (Or.inr ⟨tu, htu, rfl⟩)
    exact Bool.false_ne_true (hfree.symm.trans hrefers)

/-- A feed is authorized by the contributors of a state. -/
def RowAuthorized (row : RealTimeUpdate) (s : App ι) : Prop :=
  Authorizes s.contributors
    { contributorId := row.contributorId, connector := row.connector }

/-- A trip is authorized by the contributors of a state. -/
def TripAuthorized (trip : Trip) (s : App ι) : Prop :=
  ∃ connector, Authorizes s.contributors
    { contributorId := trip.2, connector := connector }

def HasTask (s : App ι) (task : PurgeTask) : Prop :=
  task ∈ s.planned

/-- A task is what a contributor of a state asks for. -/
def TaskAsked (task : PurgeTask) (s : App ι) : Prop :=
  ∃ c ∈ s.contributors.rows, PlannedBy task c

/-- A contributor is not active, if it is in the table. -/
def Inactive (c : String) (s : App ι) : Prop :=
  ∀ row ∈ s.contributors.rows, row.id = c → row.isActive = false

omit [DecidableEq ι] in
theorem Inactive.not_authorizes
    {c : String} (h : Inactive c s) (hb : b.contributorId = c) :
    ¬Authorizes s.contributors b := by
  rintro ⟨row, hrow, hid, hactive, -⟩
  rw [h row hrow (hid.trans hb)] at hactive
  cases hactive

/-- No process has the builder of a contributor. -/
def Free (c : String) (s : App ι) : Prop :=
  ∀ b, Holds s b → b.contributorId ≠ c

/-- A step where a contributor stays inactive. -/
def QuietStep (confReloadInterval : Timedelta) (c : String) (s s' : App ι) :
    Prop :=
  Step confReloadInterval s s' ∧ Inactive c s'

/-- An inactive contributor that no process has gets no process. -/
theorem Step.free
    {c : String} (hstep : Step confReloadInterval s s') (hinactive : Inactive c s)
    (hfree : Free c s) :
    Free c s' := by
  intro b hb hc
  rcases hstep.holds hb with hold | hauthorized
  · exact hfree b hold hc
  · exact hinactive.not_authorizes hc hauthorized

/-- The feeds of a contributor that no process has were stored. -/
theorem Step.hasRow_of_free
    {c : String} (hstep : Step confReloadInterval s s') (hfree : Free c s)
    {row : RealTimeUpdate} (hrow : HasRow s' row) (hc : row.contributorId = c) :
    HasRow s row :=
  (hstep.rows hrow).resolve_right (fun hnew => hfree _ hnew.1 hc)

/-- The trips of a contributor that no process has were stored. -/
theorem Step.hasTrip_of_free
    {c : String} (hstep : Step confReloadInterval s s') (hfree : Free c s)
    {trip : Trip} (htrip : HasTrip s'.store trip) (hc : trip.2 = c) :
    HasTrip s.store trip := by
  refine (hstep.trips htrip).resolve_right ?_
  rintro ⟨b, hb, -, hcontributor⟩
  exact hfree b hb (hcontributor.symm.trans hc)

/-- An inactive contributor that no process has stays so along a quiet run. -/
theorem quiet_of_run
    {c : String} (hinactive : Inactive c start) (hfree : Free c start)
    (hrun : ReflTransGen (QuietStep confReloadInterval c) start s) :
    Inactive c s ∧ Free c s := by
  induction hrun with
  | refl =>
      exact ⟨hinactive, hfree⟩
  | tail _ hstep ih =>
      exact ⟨hstep.2, hstep.1.free ih.1 ih.2⟩

/--
In a run where a contributor stays inactive, from a state where no process has it
any more, no process gets it again, and every feed and every trip that is stored
for it in the end was stored at the start.
-/
theorem deactivated_brings_nothing
    {c : String} (hinactive : Inactive c start)
    (hfree : ∀ b, Holds start b → b.contributorId ≠ c)
    (hrun : ReflTransGen
      (fun s s' => Step confReloadInterval s s' ∧ Inactive c s') start s) :
    (∀ b, Holds s b → b.contributorId ≠ c) ∧
    (∀ row, HasRow s row → row.contributorId = c → HasRow start row) ∧
    ∀ trip, HasTrip s.store trip → trip.2 = c → HasTrip start.store trip := by
  refine ⟨(quiet_of_run hinactive hfree hrun).2, ?_⟩
  induction hrun with
  | refl =>
      exact ⟨fun _ hrow _ => hrow, fun _ htrip _ => htrip⟩
  | tail hrun hstep ih =>
      obtain ⟨hrows, htrips⟩ := ih
      have hquiet := (quiet_of_run hinactive hfree hrun).2
      exact ⟨fun row hrow hc =>
          hrows row (hstep.1.hasRow_of_free hquiet hrow hc) hc,
        fun trip htrip hc =>
          htrips trip (hstep.1.hasTrip_of_free hquiet htrip hc) hc⟩

end Steps

namespace Sample

/-- A feed on a late train, as it is sent. -/
def latePost (newId : String) (minutes : Int) : Post where
  newId := newId
  source := .piv Piv.Sample.services "7b1a" (late minutes)
  network := .up

/-- The builder of a request. -/
def pivBuilder (id : String) : Builder :=
  EndPoint.piv.builder (pivContributor id)

/-- A contributor is found, and is deactivated before its feed is processed. -/
def deactivatedApp : App Unit :=
  { emptyApp.goTo () (.handling (pivBuilder "realtime.piv")) with
    contributors :=
      Resources.step
        (Resources.step Resources.emptyTable (pivCreated "realtime.piv"))
        pivDeleted }

/-- The feed is stored. -/
def storedApp : App Unit :=
  deactivatedApp.write
    (EndPoint.piv.post (pivBuilder "realtime.piv") deactivatedApp.store.db
      (some (latePost "1" 5))).2
    () .idle

/-- Another contributor is found, for a later feed. -/
def otherApp : App Unit :=
  { storedApp.goTo () (.handling (pivBuilder "realtime.other")) with
    contributors :=
      Resources.step storedApp.contributors (pivCreated "realtime.other") }

def otherStoredApp : App Unit :=
  otherApp.write
    (EndPoint.piv.post (pivBuilder "realtime.other") otherApp.store.db
      (some (latePost "2" 7))).2
    () .idle

/-- The row of a feed that is received without error. -/
def receivedRow (newId id : String) : RealTimeUpdate :=
  (receivedBy (pivBuilder id) (latePost newId 5)).rtu

end Sample

/-- The feeds that `otherStoredApp` has for the inactive contributor were stored. -/
theorem deactivated_brings_nothing_other :
    HasRow Sample.otherStoredApp (Sample.receivedRow "1" "realtime.piv") ∧
      HasRow Sample.otherStoredApp (Sample.receivedRow "2" "realtime.other") ∧
      ∀ row, HasRow Sample.otherStoredApp row →
        row.contributorId = "realtime.piv" → HasRow Sample.storedApp row := by
  have hinactive : Inactive "realtime.piv" Sample.storedApp := by
    unfold Inactive
    decide
  have hother : Inactive "realtime.piv" Sample.otherApp := by
    unfold Inactive
    decide
  have hfound : EndPoint.piv.findContributor
      (Resources.step Sample.storedApp.contributors
        (Sample.pivCreated "realtime.other"))
      (some "realtime.other") = .ok (Sample.pivContributor "realtime.other") := by
    decide
  have hrun : ReflTransGen
      (fun s s' => Step 60000000 s s' ∧ Inactive "realtime.piv" s')
      Sample.storedApp Sample.otherStoredApp :=
    ((ReflTransGen.single
      ⟨.configure (Sample.pivCreated "realtime.other"), hother⟩).tail
      ⟨.find (i := ()) (e := EndPoint.piv) rfl (by decide) hfound, hother⟩).tail
      ⟨.post (i := ()) (e := EndPoint.piv) rfl (by decide)
        (Sample.latePost "2" 7) rfl rfl (by decide), hother⟩
  have hfree : ∀ b, Holds Sample.storedApp b → b.contributorId ≠ "realtime.piv" :=
    fun _ ⟨_, hi⟩ => nomatch hi
  refine ⟨?_, ?_, (deactivated_brings_nothing hinactive hfree hrun).2.1⟩
  · unfold HasRow
    decide
  · unfold HasRow
    decide

end Kirin
