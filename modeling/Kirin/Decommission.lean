import Kirin.Authorization

/-!
# Kirin: the removal of a contributor

To remove a contributor for good, it is deactivated, its data are left to the purge
tasks, and `purge_contributor` is run in the end.  In between, the other contributors
go on, and their feeds may be on the trips of this one.

* `Expirable`: what is stored for a contributor is old enough for two purges.
* `Step.expirable`, `Step.unlinked`: what is so stays so as long as the contributor
  is inactive and no process has it.
* `unlinked_of_purge`, `rowless_of_purge`: what the two purges leave.
* `decommissioned`: the contributor is removed in the end, and no other one.
-/

namespace Kirin

open Kirin.Core
open Kirin.Resources (Contributor ContributorTable Request)
open Relation (ReflTransGen)

section Steps

variable {ι : Type} [DecidableEq ι]
variable {confReloadInterval : Timedelta} {s s' start : App ι} {c : String}
variable {trips feeds : PurgeConfig} {day day' : Date}

/--
The trips and the feeds of a contributor are old enough for two purges, and its
feeds are linked to no trip of another one.
-/
structure Expirable (c : String) (trips feeds : PurgeConfig) (day day' : Date)
    (s : App ι) : Prop where
  trips : ∀ trip, HasTrip s.store trip → trip.2 = c →
    Covers trips true day c trip.1.startTimestamp
  feeds : ∀ row, HasFeed s.store row → row.realTimeUpdate.contributorId = c →
    Covers feeds true day' c row.createdAt
  links : ∀ row, HasFeed s.store row → row.realTimeUpdate.contributorId = c →
    ∀ trip, HasLink s.store (row.id, trip) → trip.2 = c

/-- A contributor has no trip, and feeds that are old enough and not linked. -/
structure Unlinked (c : String) (feeds : PurgeConfig) (day' : Date) (s : App ι) :
    Prop where
  trips : ∀ trip, HasTrip s.store trip → trip.2 ≠ c
  feeds : ∀ row, HasFeed s.store row → row.realTimeUpdate.contributorId = c →
    Covers feeds true day' c row.createdAt
  links : ∀ row, HasFeed s.store row → row.realTimeUpdate.contributorId = c →
    ∀ p ∈ s.store.db.associations, p.1 ≠ row.id

/-- A contributor has no row. -/
structure Rowless (c : String) (s : App ι) : Prop where
  trips : ∀ trip, HasTrip s.store trip → trip.2 ≠ c
  feeds : ∀ row, HasRow s row → row.contributorId ≠ c

/-- The feeds of a contributor that no process has were stored at their time. -/
theorem Step.hasFeed_of_free
    (hstep : Step confReloadInterval s s') (hfree : Free c s)
    {row : RealTimeUpdateRow} (hrow : HasFeed s'.store row)
    (hc : row.realTimeUpdate.contributorId = c) :
    HasFeed s.store row := by
  refine (hstep.feeds hrow).resolve_right ?_
  rintro ⟨b, hb, -, hcontributor, -⟩
  exact hfree b hb (hcontributor.symm.trans hc)

/-- A feed that was stored gets no link. -/
theorem Step.associations
    (hstep : Step confReloadInterval s s') {p : String × String}
    (hid : p.1 ∈ s.store.db.realTimeUpdates.map RealTimeUpdate.id)
    (hp : p ∈ s'.store.db.associations) :
    p ∈ s.store.db.associations := by
  cases hstep.changes with
  | leaves hstore =>
      exact hstore ▸ hp
  | receives b f hb hknown hnew hstore =>
      rw [hstore] at hp
      have houtcome := wrapBuildFeed_outcome (receivedBy b f).builder
        (receivedBy b f).network s.store.db (receivedBy b f).rtu
        (receivedBy b f).build
      rcases houtcome.rows with hsame | ⟨_, session, _, -, -, -, hlinks⟩
      · exact hsame.2 ▸ hp
      · have hall : p ∈ s.store.db.associations ++
            session.links.map (fun vjId => ((receivedBy b f).rtu.id, vjId)) :=
          hlinks ▸ hp
        refine (List.mem_append.1 hall).resolve_right (fun hadded => ?_)
        obtain ⟨vjId, -, rfl⟩ := List.mem_map.1 hadded
        exact hnew hid
  | saves b rtu hb hknown hcontributor hconnector hstore =>
      rw [hstore] at hp
      exact hp
  | purgesTripUpdates config locked today hplanned htables =>
      exact mem_associations_of_purgeTripUpdate htables hp
  | purgesRtUpdates config locked today hplanned htables =>
      rw [associations_of_purgeRtUpdate htables] at hp
      exact hp

/-- A trip with the row of a stored one is this one. -/
theorem Step.hasTrip_of_id
    (hstep : Step confReloadInterval s s') {tu : TripUpdate}
    (htu : tu ∈ s.store.db.tripUpdates) {trip : Trip}
    (htrip : HasTrip s'.store trip) (hid : trip.1.id = rowId tu) :
    HasTrip s.store trip := by
  obtain ⟨tu', htu', rfl⟩ := htrip
  cases hstep.changes with
  | leaves hstore =>
      exact ⟨tu', hstore ▸ htu', rfl⟩
  | receives b f hb hknown hnew hstore =>
      rw [hstore] at htu'
      obtain ⟨kept, hkept, hvj, hcontributor⟩ :=
        receive_keepsTrip htu (receivedBy b f)
      have hsame : kept = tu' :=
        KeyedStore.eq_of_key_eq (receive s.store.db (receivedBy b f)).uniqueVj
          hkept htu' ((congrArg VehicleJourney.id hvj).symm.trans hid.symm)
      subst hsame
      exact ⟨tu, htu, Prod.ext hvj hcontributor⟩
  | saves b rtu hb hknown hcontributor hconnector hstore =>
      rw [hstore] at htu'
      exact ⟨tu', htu', rfl⟩
  | purgesTripUpdates config locked today hplanned htables =>
      exact ⟨tu', ((mem_rows_of_purgeTripUpdate htables).1 htu').1, rfl⟩
  | purgesRtUpdates config locked today hplanned htables =>
      exact ⟨tu', rows_of_purgeRtUpdate htables ▸ htu', rfl⟩

/-- A feed that is stored has its identifier among those of the feeds. -/
theorem HasFeed.mem_ids
    {store : Store} {row : RealTimeUpdateRow} (hrow : HasFeed store row) :
    row.id ∈ store.db.realTimeUpdates.map RealTimeUpdate.id := by
  obtain ⟨rtu, hrtu, rfl⟩ := List.mem_map.1 hrow
  exact List.mem_map_of_mem hrtu

/-- What is old enough stays so. -/
theorem Step.expirable
    (hstep : Step confReloadInterval s s') (hfree : Free c s)
    (hlinked : s.store.db.Linked) (h : Expirable c trips feeds day day' s) :
    Expirable c trips feeds day day' s' := by
  refine ⟨fun trip htrip hc => ?_, fun row hrow hc => ?_,
    fun row hrow hc trip hlink => ?_⟩
  · exact h.trips trip (hstep.hasTrip_of_free hfree htrip hc) hc
  · exact h.feeds row (hstep.hasFeed_of_free hfree hrow hc) hc
  · have hold := hstep.hasFeed_of_free hfree hrow hc
    have hassociation := hstep.associations hold.mem_ids hlink.1
    obtain ⟨tu, htu, hid⟩ := List.mem_map.1 (hlinked _ hassociation).2
    exact h.links row hold hc trip
      ⟨hassociation, hstep.hasTrip_of_id htu hlink.2 hid.symm⟩

theorem Step.unlinked
    (hstep : Step confReloadInterval s s') (hfree : Free c s)
    (h : Unlinked c feeds day' s) :
    Unlinked c feeds day' s' := by
  refine ⟨fun trip htrip hc => ?_, fun row hrow hc => ?_,
    fun row hrow hc p hp hid => ?_⟩
  · exact h.trips trip (hstep.hasTrip_of_free hfree htrip hc) hc
  · exact h.feeds row (hstep.hasFeed_of_free hfree hrow hc) hc
  · have hold := hstep.hasFeed_of_free hfree hrow hc
    have hmem : p.1 ∈ s.store.db.realTimeUpdates.map RealTimeUpdate.id :=
      hid ▸ hold.mem_ids
    exact h.links row hold hc p (hstep.associations hmem hp) hid

theorem Step.rowless
    (hstep : Step confReloadInterval s s') (hfree : Free c s)
    (h : Rowless c s) :
    Rowless c s' :=
  ⟨fun trip htrip hc =>
      h.trips trip (hstep.hasTrip_of_free hfree htrip hc) hc,
    fun row hrow hc => h.feeds row (hstep.hasRow_of_free hfree hrow hc) hc⟩

omit [DecidableEq ι] in
/-- A purge leaves no trip of the contributor. -/
theorem unlinked_of_purge
    (hlinked : s'.store.db.Linked) (h : Expirable c trips feeds day day' s)
    (htables : s'.store.tables = purgeTripUpdate trips true day s.store.tables) :
    Unlinked c feeds day' s' := by
  have htrips : ∀ trip, HasTrip s'.store trip →
      HasTrip s.store trip ∧
        ¬Covers trips true day trip.2 trip.1.startTimestamp := by
    rintro trip ⟨tu, htu, rfl⟩
    obtain ⟨hmem, hnot⟩ := (mem_rows_of_purgeTripUpdate htables).1 htu
    exact ⟨⟨tu, hmem, rfl⟩, hnot⟩
  have hfeeds : ∀ row, HasFeed s'.store row → HasFeed s.store row := by
    intro row hrow
    rw [HasFeed, feeds_of_purgeTripUpdate htables] at hrow
    exact hrow
  have hnone : ∀ trip, HasTrip s'.store trip → trip.2 ≠ c := by
    intro trip htrip hc
    obtain ⟨hold, hnot⟩ := htrips trip htrip
    exact hnot (hc ▸ h.trips trip hold hc)
  refine ⟨hnone, fun row hrow hc => h.feeds row (hfeeds row hrow) hc, ?_⟩
  intro row hrow hc p hp hid
  obtain ⟨tu, htu, htuId⟩ := List.mem_map.1 (hlinked p hp).2
  have htrip : HasTrip s'.store (tu.vj, tu.contributorId) := ⟨tu, htu, rfl⟩
  have hassociation : (row.id, tu.vj.id) ∈ s.store.db.associations := by
    have hmem := mem_associations_of_purgeTripUpdate htables hp
    rw [← hid, show tu.vj.id = p.2 from htuId]
    exact hmem
  exact hnone _ htrip (h.links row (hfeeds row hrow) hc _
    ⟨hassociation, (htrips _ htrip).1⟩)

omit [DecidableEq ι] in
/-- A second purge leaves no row of the contributor. -/
theorem rowless_of_purge
    (h : Unlinked c feeds day' s)
    (htables : s'.store.tables = purgeRtUpdate feeds true day' s.store.tables) :
    Rowless c s' := by
  constructor
  · rintro trip ⟨tu, htu, rfl⟩
    exact h.trips _ ⟨tu, rows_of_purgeRtUpdate htables ▸ htu, rfl⟩
  · intro row hrow hc
    obtain ⟨hold, hkept⟩ :=
      (hasFeed_of_purgeRtUpdate htables).1 (List.mem_map_of_mem hrow)
    obtain ⟨p, hp, hid⟩ := hkept (hc.symm ▸ h.feeds _ hold hc)
    exact h.links _ hold hc p hp hid

omit [DecidableEq ι] in
/-- A contributor that is not active and has no row is removed. -/
theorem purgeContributor_of_rowless
    (hinactive : Inactive c s) (h : Rowless c s) :
    (purgeContributor s.contributors s.store.db c).rows =
      s.contributors.rows.filter (fun c' => c'.id != c) := by
  have hnot : refersTo s.store.db c = false := by
    rw [← Bool.not_eq_true, refersTo_eq_true_iff]
    rintro (⟨row, hrow, hc⟩ | ⟨tu, htu, hc⟩)
    · exact h.feeds row hrow hc
    · exact h.trips _ ⟨tu, htu, rfl⟩ hc
  rw [Resources.purgeContributor_eq]
  split
  · rfl
  · rename_i hkept
    have hnone : Resources.lookup s.contributors c = none := by
      refine Option.eq_none_iff_forall_not_mem.2 (fun c' hget => hkept ?_)
      obtain ⟨hc', hid⟩ := Resources.lookup_eq_some_iff.1 hget
      rw [Option.mem_def.1 hget, Option.any_some, hinactive c' hc' hid, hnot]
      rfl
    symm
    rw [List.filter_eq_self]
    intro c' hc'
    rw [bne_iff_ne]
    rintro rfl
    exact Resources.lookup_eq_none_iff.1 hnone (List.mem_map_of_mem hc')

/-- A property that a step keeps while a contributor is not active stays. -/
theorem quiet_invariant
    {P : App ι → Prop}
    (hP : ∀ s s', Step confReloadInterval s s' → Free c s → P s → P s')
    (hinactive : Inactive c start) (hfree : Free c start) (hstart : P start)
    (hrun : ReflTransGen (QuietStep confReloadInterval c) start s) :
    P s := by
  induction hrun with
  | refl =>
      exact hstart
  | tail hrun hstep ih =>
      exact hP _ _ hstep.1 (quiet_of_run hinactive hfree hrun).2 ih

/--
In a run where a contributor stays inactive, from a state where no process has it
any more and what is stored for it is old enough, with a purge of its trip updates
and later one of its feeds: nothing is stored for it in the end, and
`purge_contributor` removes it from the table, and no other contributor.
-/
theorem decommissioned
    (hlinked : start.store.db.Linked) (hinactive : Inactive c start)
    (hfree : Free c start) (h : Expirable c trips feeds day day' start)
    {s1 s1' s2 s2' : App ι}
    (hrun1 : ReflTransGen (QuietStep confReloadInterval c) start s1)
    (hpurge1 : QuietStep confReloadInterval c s1 s1')
    (htables1 : s1'.store.tables = purgeTripUpdate trips true day s1.store.tables)
    (hrun2 : ReflTransGen (QuietStep confReloadInterval c) s1' s2)
    (hpurge2 : QuietStep confReloadInterval c s2 s2')
    (htables2 : s2'.store.tables = purgeRtUpdate feeds true day' s2.store.tables)
    (hrun3 : ReflTransGen (QuietStep confReloadInterval c) s2' s) :
    Rowless c s ∧
      (purgeContributor s.contributors s.store.db c).rows =
        s.contributors.rows.filter (fun c' => c'.id != c) := by
  have hexpirable : s1.store.db.Linked ∧ Expirable c trips feeds day day' s1 :=
    quiet_invariant
      (P := fun s => s.store.db.Linked ∧ Expirable c trips feeds day day' s)
      (fun _ _ hstep hfree hs =>
        ⟨hstep.linked hs.1, hstep.expirable hfree hs.1 hs.2⟩)
      hinactive hfree ⟨hlinked, h⟩ hrun1
  have hunlinked : Unlinked c feeds day' s1' :=
    unlinked_of_purge (hpurge1.1.linked hexpirable.1) hexpirable.2 htables1
  obtain ⟨hinactive1, hfree1⟩ :=
    quiet_of_run hinactive hfree (hrun1.tail hpurge1)
  have hunlinked2 : Unlinked c feeds day' s2 :=
    quiet_invariant (fun _ _ hstep hfree hs => hstep.unlinked hfree hs)
      hinactive1 hfree1 hunlinked hrun2
  have hrowless : Rowless c s2' := rowless_of_purge hunlinked2 htables2
  obtain ⟨hinactive2, hfree2⟩ :=
    quiet_of_run hinactive1 hfree1 (hrun2.tail hpurge2)
  have hend : Rowless c s :=
    quiet_invariant (fun _ _ hstep hfree hs => hstep.rowless hfree hs)
      hinactive2 hfree2 hrowless hrun3
  exact ⟨hend, purgeContributor_of_rowless
    (quiet_of_run hinactive2 hfree2 hrun3).1 hend⟩

end Steps

namespace Sample

/-- The tasks of the PIV contributors are planned. -/
def plannedApp : App Unit :=
  { storedApp with
    planned :=
      [.tripUpdate { contributor := "realtime.piv", nbDaysToKeep := 3 },
        .rtUpdate { contributor := "realtime.piv", nbDaysToKeep := 30 }] }

end Sample

/-- The contributor of `storedApp` is removed after its two purges. -/
theorem decommissioned_stored :
    ReflTransGen (QuietStep 60000000 "realtime.piv") Sample.storedApp
        Sample.plannedApp ∧
      ∃ store1 store2,
        QuietStep 60000000 "realtime.piv" Sample.plannedApp
            { Sample.plannedApp with store := store1 } ∧
          QuietStep 60000000 "realtime.piv"
            { Sample.plannedApp with store := store1 }
            { Sample.plannedApp with store := store2 } ∧
          Rowless "realtime.piv" { Sample.plannedApp with store := store2 } ∧
          (purgeContributor Sample.plannedApp.contributors store2.db
            "realtime.piv").rows = [] := by
  have hinactive : Inactive "realtime.piv" Sample.storedApp := by
    unfold Inactive
    decide
  have hfree : Free "realtime.piv" Sample.storedApp := by
    rintro b ⟨i, hi⟩
    cases hi
  have hday : firstDayKept 15700 3 = some 15697 := by
    decide
  have hday' : firstDayKept 15700 30 = some 15670 := by
    decide
  have hold : ∀ tu ∈ Sample.storedApp.store.db.tripUpdates,
      tu.contributorId = "realtime.piv" ∧
        tu.vj.startTimestamp < combine 15697 midnight := by
    decide
  have hcreated : ∀ row ∈ Sample.storedApp.store.tables.realTimeUpdates,
      row.createdAt < combine 15670 midnight := by
    decide
  have hlinked : Sample.storedApp.store.db.Linked := by
    unfold Db.Linked
    decide
  have hexpirable : Expirable "realtime.piv"
      { contributor := "realtime.piv", nbDaysToKeep := 3 }
      { contributor := "realtime.piv", nbDaysToKeep := 30 } 15700 15700
      Sample.storedApp := by
    refine ⟨?_, ?_, ?_⟩
    · rintro trip ⟨tu, htu, rfl⟩ _
      exact (covers_iff_of_some hday).2 ⟨rfl, (hold tu htu).2⟩
    · intro row hrow _
      exact (covers_iff_of_some hday').2 ⟨rfl, hcreated row hrow⟩
    · rintro row _ _ trip ⟨_, tu, htu, rfl⟩
      exact (hold tu htu).1
  have hrun : ReflTransGen (QuietStep 60000000 "realtime.piv")
      Sample.storedApp Sample.plannedApp :=
    (ReflTransGen.single ⟨.planTripUpdates .piv, hinactive⟩).tail
      ⟨.planRtUpdates .piv, hinactive⟩
  obtain ⟨store1, -, htables1⟩ := (Sample.plannedApp.store.exists_purge
    { contributor := "realtime.piv", nbDaysToKeep := 3 } true 15700).1
  obtain ⟨store2, -, htables2⟩ := (store1.exists_purge
    { contributor := "realtime.piv", nbDaysToKeep := 30 } true 15700).2
  have hpurge1 : QuietStep 60000000 "realtime.piv" Sample.plannedApp
      { Sample.plannedApp with store := store1 } :=
    ⟨.purgeTripUpdates List.mem_cons_self true 15700 store1 htables1, hinactive⟩
  have hpurge2 : QuietStep 60000000 "realtime.piv"
      { Sample.plannedApp with store := store1 }
      { Sample.plannedApp with store := store2 } :=
    ⟨.purgeRtUpdates (List.mem_cons_of_mem _ List.mem_cons_self) true 15700
      store2 htables2, hinactive⟩
  obtain ⟨hend, hremoved⟩ := decommissioned hlinked hinactive hfree hexpirable hrun
    hpurge1 htables1 .refl hpurge2 htables2 .refl
  exact ⟨hrun, store1, store2, hpurge1, hpurge2, hend, hremoved⟩

end Kirin
