import Kirin.Core.Tables
import Kirin.Core.TouchedRows

/-!
# Kirin: the purges of the database

The tasks `purge_trip_update` and `purge_rt_update` of `kirin/tasks.py` run
between the feeds.  A trip update and a feed refer to each other through the
associations, along which both cascade their deletion, so that what a purge
takes depends on the associations it finds.

* `handleLoop_linksStored`: the trip updates linked by a feed are those it stores.
* `linked_handle`, `linked_wrapBuildFeed`: a feed leaves no dangling association.
* `tables_find`: the rows found in the tables are those of the loaded trips.
* `exists_withoutTrips`, `exists_withoutFeeds`: a purge leaves a store.
* `Reachable.consistent`: no association dangles in any reachable store.
* `Reachable.purges`: what the purges take from any of them.
-/

namespace Kirin
namespace Core

/-- What a purge task is configured with. -/
structure PurgeConfig where
  contributor : String
  nbDaysToKeep : Int
deriving DecidableEq, Repr

/--
The first day that is kept.  Dates go from the year 1 to the year 9999, outside
of which the task raises.
-/
def firstDayKept (today : Date) (nbDaysToKeep : Int) : Option Date :=
  let untilDate := today - nbDaysToKeep
  if -719162 ≤ untilDate ∧ untilDate ≤ 2932896 then some untilDate else none

/-- The task does nothing unless it gets its lock. -/
def purgeTripUpdate
    (config : PurgeConfig) (locked : Bool) (today : Date) (t : Tables) :
    Tables :=
  if !locked then t
  else
    match firstDayKept today config.nbDaysToKeep with
    | none => t
    | some untilDate =>
        t.removeByContributorsAndPeriod [config.contributor] none
          (some untilDate)

/-- The task does nothing unless it gets its lock. -/
def purgeRtUpdate
    (config : PurgeConfig) (locked : Bool) (today : Date) (t : Tables) :
    Tables :=
  if !locked then t
  else
    match firstDayKept today config.nbDaysToKeep with
    | none => t
    | some untilDate =>
        t.removeByContributorsUntil [config.contributor] untilDate

/-- A trip update with its own columns only. -/
def TripUpdate.row (tu : TripUpdate) : TripUpdateRow where
  vjId := tu.vj.id
  status := tu.status
  message := tu.message
  companyId := tu.companyId
  effect := tu.effect
  physicalModeId := tu.physicalModeId
  headsign := tu.headsign
  contributorId := tu.contributorId

/-- The database, with the creation time of each feed. -/
structure Store where
  db : Db
  createdAt : String → Datetime

namespace Store

/-- The tables of the database. -/
def tables (s : Store) : Tables where
  vehicleJourneys := s.db.tripUpdates.map TripUpdate.vj
  tripUpdates := s.db.tripUpdates.map TripUpdate.row
  stopTimeUpdates := s.db.tripUpdates.flatMap
    (fun tu => tu.stopTimeUpdates.map (fun st => (tu.vj.id, st)))
  realTimeUpdates := s.db.realTimeUpdates.map
    (fun rtu => { realTimeUpdate := rtu, createdAt := s.createdAt rtu.id })
  associations := s.db.associations

/-- The store once a feed has written the database at some time. -/
def written (s : Store) (db : Db) (now : Datetime) : Store where
  db := db
  createdAt := fun id =>
    if id ∈ s.db.realTimeUpdates.map RealTimeUpdate.id then s.createdAt id
    else now

/-- What changes the store: a call to `handle`, a feed or a purge. -/
inductive Step (s : Store) : Store → Prop
  | handled
      (b : Builder) (brokerUp : Bool) (rtu : RealTimeUpdate)
      (tripUpdates : List NewTripUpdate) (now : Datetime) :
      Step s (s.written (handle b brokerUp s.db rtu tripUpdates).db now)
  | received
      (b : Builder) (network : Network) (rtu : RealTimeUpdate)
      (build : List TripUpdate → Except PyException BuiltFeed)
      (now : Datetime) :
      Step s (s.written (wrapBuildFeed b network s.db rtu build).db now)
  | purgedTripUpdates
      (config : PurgeConfig) (locked : Bool) (today : Date) (s' : Store)
      (h : s'.tables = purgeTripUpdate config locked today s.tables) :
      Step s s'
  | purgedRtUpdates
      (config : PurgeConfig) (locked : Bool) (today : Date) (s' : Store)
      (h : s'.tables = purgeRtUpdate config locked today s.tables) :
      Step s s'

/-- The stores that feeds and purges lead to, from an empty one. -/
inductive Reachable : Store → Prop
  | empty
      (s : Store) (htrips : s.db.tripUpdates = [])
      (hfeeds : s.db.realTimeUpdates = [])
      (hassociations : s.db.associations = []) :
      Reachable s
  | step
      {s s' : Store} (h : Reachable s) (hstep : s.Step s') :
      Reachable s'

end Store

/-- Every association refers to a feed and to a trip update of the tables. -/
def Tables.Consistent (t : Tables) : Prop :=
  ∀ p ∈ t.associations,
    p.1 ∈ t.realTimeUpdates.map RealTimeUpdateRow.id ∧
      p.2 ∈ t.tripUpdates.map TripUpdateRow.vjId

/-- Every association refers to a feed and to a trip update of the database. -/
def Db.Linked (db : Db) : Prop :=
  ∀ p ∈ db.associations,
    p.1 ∈ db.realTimeUpdates.map RealTimeUpdate.id ∧
      p.2 ∈ db.tripUpdates.map rowId

section Loop

variable {b : Builder} {s s' : Session} {t : NewTripUpdate}
variable {ts : List NewTripUpdate} {r : Except PyException Unit}

/-- One turn of the loop links what it stores. -/
theorem handleTripUpdate_linksStored
    (hnodup : (s.rows.map rowId).Nodup)
    (h : ∀ id ∈ s.links, id ∈ s.allRows.map rowId) :
    ∀ id ∈ (handleTripUpdate b s t).1.links,
      id ∈ (handleTripUpdate b s t).1.allRows.map rowId := by
  have hrows : (handleTripUpdate b s t).1.rows.map rowId =
      s.rows.map rowId :=
    map_of_vj_eq VehicleJourney.id (handleTripUpdate_rows_vj hnodup)
  have hcreated := handleTripUpdate_created_eq b s t
  intro id hid
  rw [Session.allRows, List.map_append, hrows, hcreated, List.map_append,
    List.mem_append, List.mem_append]
  rw [handleTripUpdate_links_eq, List.mem_append] at hid
  rcases hid with hold | hnew
  · have hstored := h id hold
    rw [Session.allRows, List.map_append, List.mem_append] at hstored
    exact hstored.imp_right Or.inl
  · unfold linkOf at hnew
    split at hnew
    · rename_i hlinked
      rw [Option.mem_toList, Option.some.injEq] at hnew
      subst hnew
      cases hfind : findByDatedVj s.rows t.vj with
      | some old =>
          have hvj : (processTripUpdate b (some old) t).tripUpdate.vj =
              old.vj := processTripUpdate_vj
          refine Or.inl (List.mem_map.2 ⟨old, findByDatedVj_mem hfind, ?_⟩)
          exact congrArg VehicleJourney.id hvj.symm
      | none =>
          rw [hfind] at hlinked
          refine Or.inr (Or.inr ?_)
          rw [createdOf, if_pos ⟨hfind, hlinked⟩]
          simp
    · simp at hnew

/-- The trip updates that a loop links are rows of its session. -/
theorem handleLoop_linksStored
    (hnodup : (s.rows.map rowId).Nodup)
    (h : ∀ id ∈ s.links, id ∈ s.allRows.map rowId)
    (hloop : handleLoop b s ts = (s', r)) :
    ∀ id ∈ s'.links, id ∈ s'.allRows.map rowId := by
  obtain ⟨_, ⟨-, hlinks⟩, -⟩ := handleLoop_invariant
    (P := fun s1 _ => (s1.rows.map rowId).Nodup ∧
      ∀ id ∈ s1.links, id ∈ s1.allRows.map rowId)
    (fun s1 t _ h1 => ⟨handleTripUpdate_rowIds h1.1,
      handleTripUpdate_linksStored h1.1 h1.2⟩)
    ⟨hnodup, h⟩ hloop
  exact hlinks

end Loop

section Feeds

variable {db db' : Db} {b : Builder} {rtu : RealTimeUpdate}

theorem mem_putRtu_ids
    {rtus : List RealTimeUpdate} {id : String} :
    id ∈ (putRtu rtus rtu).map RealTimeUpdate.id ↔
      id ∈ rtus.map RealTimeUpdate.id ∨ id = rtu.id := by
  rw [putRtu_ids]
  split
  · rename_i hmem
    constructor
    · exact Or.inl
    · rintro (hid | rfl)
      · exact hid
      · exact hmem
  · rw [List.mem_append, List.mem_singleton]

/-- The feeds stored in a database are among those of another one. -/
def KeepsFeeds (db db' : Db) : Prop :=
  ∀ id ∈ db.realTimeUpdates.map RealTimeUpdate.id,
    id ∈ db'.realTimeUpdates.map RealTimeUpdate.id

theorem keepsFeeds_saveRtu
    (db : Db) (rtu : RealTimeUpdate) :
    KeepsFeeds db (db.saveRtu rtu) :=
  fun _ hid => mem_putRtu_ids.2 (Or.inl hid)

/-- Marking a feed afterwards keeps the feeds kept so far. -/
theorem KeepsFeeds.saveRtu
    (h : KeepsFeeds db db') (rtu : RealTimeUpdate) :
    KeepsFeeds db (db'.saveRtu rtu) :=
  fun id hid => keepsFeeds_saveRtu db' rtu id (h id hid)

/-- A commit stores its feed and keeps the other ones. -/
theorem dbCommit_feeds
    {s : Session} (hcommit : dbCommit db s rtu = .ok db') :
    KeepsFeeds db db' ∧ rtu.id ∈ db'.realTimeUpdates.map RealTimeUpdate.id := by
  have hfeeds := dbCommit_realTimeUpdates hcommit
  refine ⟨fun id hid => ?_, ?_⟩
  · rw [hfeeds]
    exact mem_putRtu_ids.2 (Or.inl hid)
  · rw [hfeeds]
    exact mem_putRtu_ids.2 (Or.inr rfl)

/-- The associations that are kept still refer to stored rows. -/
theorem Db.Linked.of_same
    (h : db.Linked) (hrows : db'.tripUpdates = db.tripUpdates)
    (hassociations : db'.associations = db.associations)
    (hkeeps : KeepsFeeds db db') :
    db'.Linked := by
  intro p hp
  rw [hassociations] at hp
  exact ⟨hkeeps _ (h p hp).1, hrows ▸ (h p hp).2⟩

/-- The associations that a loop adds refer to stored rows. -/
theorem Db.Linked.of_loop
    (h : db.Linked) {ts : List NewTripUpdate} {s : Session}
    {r : Except PyException Unit}
    (hloop : handleLoop b db.session ts = (s, r))
    (hrows : db'.tripUpdates = s.allRows)
    (hassociations : db'.associations =
      db.associations ++ s.links.map (fun vjId => (rtu.id, vjId)))
    (hkeeps : KeepsFeeds db db')
    (hrtu : rtu.id ∈ db'.realTimeUpdates.map RealTimeUpdate.id) :
    db'.Linked := by
  have hvjs := handleLoop_rows_vj (s := db.session) db.uniqueVj hloop
  have hstored := handleLoop_linksStored (s := db.session) db.uniqueVj
    (by simp [Db.session]) hloop
  intro p hp
  rw [hassociations, List.mem_append] at hp
  rcases hp with hold | hnew
  · refine ⟨hkeeps _ (h p hold).1, ?_⟩
    have hids : s.rows.map rowId = db.tripUpdates.map rowId :=
      map_of_vj_eq VehicleJourney.id hvjs
    rw [hrows, Session.allRows, List.map_append, hids]
    exact List.mem_append_left _ (h p hold).2
  · obtain ⟨id, hid, rfl⟩ := List.mem_map.1 hnew
    exact ⟨hrtu, hrows ▸ hstored id hid⟩

/-- A call to `handle` keeps the feeds and leaves no dangling association. -/
theorem linked_handle
    (h : db.Linked) (b : Builder) (brokerUp : Bool) (rtu : RealTimeUpdate)
    (ts : List NewTripUpdate) :
    KeepsFeeds db (handle b brokerUp db rtu ts).db ∧
      (handle b brokerUp db rtu ts).db.Linked := by
  cases hloop : handleLoop b db.session ts with
  | mk s r =>
      cases r with
      | error e =>
          simp only [handle, hloop]
          exact ⟨fun _ hid => hid, h⟩
      | ok u =>
          cases hcommit : dbCommit db s rtu with
          | error e =>
              simp only [handle, hloop, hcommit]
              exact ⟨fun _ hid => hid, h⟩
          | ok db1 =>
              obtain ⟨hkeeps, hrtu⟩ := dbCommit_feeds hcommit
              obtain ⟨hrows, hassociations⟩ := dbCommit_ok hcommit
              have hlinked : db1.Linked :=
                h.of_loop hloop hrows hassociations hkeeps hrtu
              simp only [handle, hloop, hcommit]
              split
              · exact ⟨hkeeps, hlinked⟩
              · split
                · exact ⟨hkeeps, hlinked⟩
                · split
                  · exact ⟨hkeeps.saveRtu _,
                      hlinked.of_same rfl rfl (keepsFeeds_saveRtu _ _)⟩
                  · exact ⟨hkeeps, hlinked⟩

/-- The processing of a feed keeps the feeds stored before. -/
theorem FeedOutcome.keepsFeeds
    {network : Network} {build : Except PyException BuiltFeed}
    {result : HandleResult} (h : FeedOutcome b network db rtu build result) :
    KeepsFeeds db result.db :=
  h.feeds_induction
    (P := fun rtus => ∀ id ∈ db.realTimeUpdates.map RealTimeUpdate.id,
      id ∈ rtus.map RealTimeUpdate.id)
    (fun _ _ _ hrtus id hid => mem_putRtu_ids.2 (Or.inl (hrtus id hid)))
    (fun _ hid => hid)

/-- A feed keeps the stored feeds and leaves no dangling association. -/
theorem linked_wrapBuildFeed
    (h : db.Linked) (b : Builder) (network : Network) (rtu : RealTimeUpdate)
    (build : List TripUpdate → Except PyException BuiltFeed) :
    KeepsFeeds db (wrapBuildFeed b network db rtu build).db ∧
      (wrapBuildFeed b network db rtu build).db.Linked := by
  have houtcome := wrapBuildFeed_outcome b network db rtu build
  have hkeeps := houtcome.keepsFeeds
  have hsaved : (db.saveRtu rtu).Linked :=
    h.of_same rfl rfl (keepsFeeds_saveRtu db rtu)
  refine ⟨fun id hid => hkeeps id (keepsFeeds_saveRtu db rtu id hid), ?_⟩
  rcases houtcome.rows with hsame | ⟨built, s, r, -, hloop, hrows, hlinks⟩
  · exact hsaved.of_same hsame.1 hsame.2 hkeeps
  · exact hsaved.of_loop hloop hrows hlinks hkeeps
      (hkeeps rtu.id (mem_putRtu_ids.2 (Or.inr rfl)))

end Feeds

section Tables

variable {s : Store}

@[simp] theorem Store.tables_tripIds
    (s : Store) :
    s.tables.tripUpdates.map TripUpdateRow.vjId =
      s.db.tripUpdates.map rowId := by
  rw [Store.tables, List.map_map]
  rfl

@[simp] theorem Store.tables_feedIds
    (s : Store) :
    s.tables.realTimeUpdates.map RealTimeUpdateRow.id =
      s.db.realTimeUpdates.map RealTimeUpdate.id := by
  rw [Store.tables, List.map_map]
  rfl

theorem Store.consistent_iff
    (s : Store) :
    s.tables.Consistent ↔ s.db.Linked := by
  rw [Tables.Consistent, Store.tables_feedIds, Store.tables_tripIds]
  exact Iff.rfl

theorem Store.tables_vehicleJourneyIds
    (s : Store) :
    s.tables.vehicleJourneys.map VehicleJourney.id =
      s.db.tripUpdates.map rowId := by
  rw [Store.tables, List.map_map]
  rfl

/-- A trip update of the tables is read with its own vehicle journey. -/
theorem vehicleJourneyOf_row
    {tu : TripUpdate} (htu : tu ∈ s.db.tripUpdates) :
    s.tables.vehicleJourneyOf tu.row = some tu.vj := by
  have hmem : tu.vj ∈ s.tables.vehicleJourneys := List.mem_map.2 ⟨tu, htu, rfl⟩
  have hids : (s.tables.vehicleJourneys.map VehicleJourney.id).Nodup := by
    rw [Store.tables_vehicleJourneyIds]
    exact s.db.uniqueVj
  exact KeyedStore.find?_eq_some_of_key hids (by simp [TripUpdate.row]) hmem

/-- The rows found in the tables are those of the trip updates, once loaded. -/
theorem tables_find
    (s : Store) (contributors : List String)
    (startDate endDate : Option Date) :
    s.tables.findByContributorPeriod contributors startDate endDate =
      (TripUpdate.findByContributorPeriod s.db.tripUpdates contributors
        startDate endDate).map TripUpdate.row := by
  have hrows : s.tables.tripUpdates = s.db.tripUpdates.map TripUpdate.row := rfl
  rw [Tables.findByContributorPeriod, TripUpdate.findByContributorPeriod,
    hrows, List.filter_map]
  refine congrArg (List.map TripUpdate.row)
    (List.filter_congr (fun tu htu => ?_))
  rw [Function.comp_apply, vehicleJourneyOf_row htu]
  rfl

/-- Some trips of the database are left out, with all that is theirs. -/
theorem exists_withoutTrips
    (s : Store) (gone : String → Bool) :
    ∃ s' : Store, s'.tables = s.tables.withoutTrips gone := by
  have hsub : (s.db.tripUpdates.filter (fun tu => !gone tu.vj.id)).Sublist
      s.db.tripUpdates := List.filter_sublist
  refine ⟨
    { db :=
        { tripUpdates := s.db.tripUpdates.filter (fun tu => !gone tu.vj.id)
          realTimeUpdates := s.db.realTimeUpdates
          associations := s.db.associations.filter (fun p => !gone p.2)
          uniqueVj := s.db.uniqueVj.sublist (hsub.map _)
          uniqueDatedVj := s.db.uniqueDatedVj.sublist (hsub.map _)
          uniqueRtu := s.db.uniqueRtu
          uniqueAssociation := s.db.uniqueAssociation.filter _
          effects := fun tu htu => s.db.effects tu (hsub.subset htu)
          texts := fun tu htu => s.db.texts tu (hsub.subset htu) }
      createdAt := s.createdAt }, ?_⟩
  have hstops : (s.db.tripUpdates.flatMap (fun tu =>
      tu.stopTimeUpdates.map (fun st => (tu.vj.id, st)))).filter
        (fun stop => !gone stop.1) =
      (s.db.tripUpdates.filter (fun tu => !gone tu.vj.id)).flatMap (fun tu =>
        tu.stopTimeUpdates.map (fun st => (tu.vj.id, st))) := by
    induction s.db.tripUpdates with
    | nil =>
        rfl
    | cons tu rest ih =>
        rw [List.flatMap_cons, List.filter_append, ih, List.filter_map]
        cases hgone : gone tu.vj.id with
        | true =>
            simp [hgone, Function.comp_def]
        | false =>
            simp [hgone, Function.comp_def]
  simp only [Store.tables, Tables.withoutTrips, hstops, List.filter_map]
  rfl

/-- Some feeds of the database are left out. -/
theorem exists_withoutFeeds
    (s : Store) (gone : String → Bool) :
    ∃ s' : Store, s'.tables = s.tables.withoutFeeds gone := by
  have hsub : (s.db.realTimeUpdates.filter (fun rtu => !gone rtu.id)).Sublist
      s.db.realTimeUpdates := List.filter_sublist
  refine ⟨
    { db :=
        { s.db with
          realTimeUpdates :=
            s.db.realTimeUpdates.filter (fun rtu => !gone rtu.id)
          uniqueRtu := s.db.uniqueRtu.sublist (hsub.map _) }
      createdAt := s.createdAt }, ?_⟩
  simp only [Store.tables, Tables.withoutFeeds, List.filter_map]
  rfl

end Tables

section Purges

variable {s s' : Store} {t : Tables}

/-- The purge of the trip updates takes the expired ones from a store. -/
theorem Store.removeExpiredTrips
    (s : Store) (contributor : String) (untilDate : Date) :
    s.tables.removeByContributorsAndPeriod [contributor] none
        (some untilDate) =
      s.tables.withoutTrips
        (fun id => decide (s.tables.TripExpired contributor untilDate id)) := by
  refine Tables.removeExpiredTrips_eq ?_ ?_ contributor untilDate
  · rw [Store.tables_vehicleJourneyIds]
    exact s.db.uniqueVj
  · rw [Store.tables_tripIds]
    exact s.db.uniqueVj

/-- The purge of the trip updates leaves out some of them, maybe none. -/
theorem purgeTripUpdate_eq
    (s : Store) (config : PurgeConfig) (locked : Bool) (today : Date) :
    ∃ gone, purgeTripUpdate config locked today s.tables =
      s.tables.withoutTrips gone := by
  have hnothing : s.tables = s.tables.withoutTrips (fun _ => false) := by
    simp [Tables.withoutTrips]
  unfold purgeTripUpdate
  split
  · exact ⟨_, hnothing⟩
  · split
    · exact ⟨_, hnothing⟩
    · exact ⟨_, s.removeExpiredTrips _ _⟩

/-- The purge of the feeds leaves out some that no association refers to. -/
theorem purgeRtUpdate_eq
    (t : Tables) (config : PurgeConfig) (locked : Bool) (today : Date) :
    ∃ gone, purgeRtUpdate config locked today t = t.withoutFeeds gone ∧
      ∀ p ∈ t.associations, gone p.1 = false := by
  have hnothing : t = t.withoutFeeds (fun _ => false) := by
    simp [Tables.withoutFeeds]
  unfold purgeRtUpdate
  split
  · exact ⟨_, hnothing, fun _ _ => rfl⟩
  · split
    · exact ⟨_, hnothing, fun _ _ => rfl⟩
    · rename_i untilDate _
      refine ⟨_, t.removeByContributorsUntil_eq _ untilDate, fun p hp => ?_⟩
      simpa using Tables.not_mem_unlinkedUntil hp untilDate

/-- A trip update leaves with its associations. -/
theorem Tables.Consistent.withoutTrips
    (h : t.Consistent) (gone : String → Bool) :
    (t.withoutTrips gone).Consistent := by
  intro p hp
  obtain ⟨hmem, hkept⟩ := List.mem_filter.1 hp
  refine ⟨(h p hmem).1, ?_⟩
  obtain ⟨row, hrow, hid⟩ := List.mem_map.1 (h p hmem).2
  exact List.mem_map.2
    ⟨row, List.mem_filter.2 ⟨hrow, by rw [hid]; exact hkept⟩, hid⟩

/-- A feed that no association refers to can leave. -/
theorem Tables.Consistent.withoutFeeds
    (h : t.Consistent) {gone : String → Bool}
    (hfree : ∀ p ∈ t.associations, gone p.1 = false) :
    (t.withoutFeeds gone).Consistent := by
  intro p hp
  refine ⟨?_, (h p hp).2⟩
  obtain ⟨row, hrow, hid⟩ := List.mem_map.1 (h p hp).1
  refine List.mem_map.2 ⟨row, List.mem_filter.2 ⟨hrow, ?_⟩, hid⟩
  rw [hid, hfree p hp]
  rfl

end Purges

namespace Store

section Runs

variable {s s' : Store}

/--
A step leaves no dangling association, and keeps the feeds that an association
refers to.
-/
theorem Step.consistent
    (h : s.tables.Consistent) (hstep : s.Step s') :
    s'.tables.Consistent ∧
      ∀ p ∈ s.tables.associations,
        p.1 ∈ s'.tables.realTimeUpdates.map RealTimeUpdateRow.id := by
  have hlinked := s.consistent_iff.1 h
  cases hstep with
  | handled b brokerUp rtu tripUpdates now =>
      obtain ⟨hkeeps, hnext⟩ :=
        linked_handle hlinked b brokerUp rtu tripUpdates
      refine ⟨(consistent_iff _).2 hnext, fun p hp => ?_⟩
      rw [tables_feedIds]
      exact hkeeps p.1 (hlinked p hp).1
  | received b network rtu build now =>
      obtain ⟨hkeeps, hnext⟩ :=
        linked_wrapBuildFeed hlinked b network rtu build
      refine ⟨(consistent_iff _).2 hnext, fun p hp => ?_⟩
      rw [tables_feedIds]
      exact hkeeps p.1 (hlinked p hp).1
  | purgedTripUpdates config locked today _ heq =>
      obtain ⟨gone, hgone⟩ := purgeTripUpdate_eq s config locked today
      rw [heq, hgone]
      exact ⟨h.withoutTrips gone, fun p hp => (h p hp).1⟩
  | purgedRtUpdates config locked today _ heq =>
      obtain ⟨gone, hgone, hfree⟩ :=
        purgeRtUpdate_eq s.tables config locked today
      have hnext := h.withoutFeeds hfree
      rw [heq, hgone]
      exact ⟨hnext, fun p hp => (hnext p hp).1⟩

/-- No association dangles in any reachable store. -/
theorem Reachable.consistent
    (h : Reachable s) :
    s.tables.Consistent := by
  induction h with
  | empty s htrips hfeeds hassociations =>
      intro p hp
      have hnone : s.tables.associations = [] := hassociations
      rw [hnone] at hp
      cases hp
  | step h hstep ih =>
      exact (hstep.consistent ih).1

/-- A purge can take place in any store. -/
theorem exists_purge
    (s : Store) (config : PurgeConfig) (locked : Bool) (today : Date) :
    (∃ s', s.Step s' ∧
      s'.tables = purgeTripUpdate config locked today s.tables) ∧
      ∃ s', s.Step s' ∧
        s'.tables = purgeRtUpdate config locked today s.tables := by
  obtain ⟨gone, hgone⟩ := purgeTripUpdate_eq s config locked today
  obtain ⟨gone', hgone', -⟩ := purgeRtUpdate_eq s.tables config locked today
  obtain ⟨s1, hs1⟩ := exists_withoutTrips s gone
  obtain ⟨s2, hs2⟩ := exists_withoutFeeds s gone'
  have htrips := hs1.trans hgone.symm
  have hfeeds := hs2.trans hgone'.symm
  exact ⟨⟨s1, .purgedTripUpdates config locked today s1 htrips, htrips⟩,
    ⟨s2, .purgedRtUpdates config locked today s2 hfeeds, hfeeds⟩⟩

/--
In any reachable store no association dangles, each purge can take place and
takes the expired rows only, and no step removes a feed linked to a trip update
that it keeps.
-/
theorem Reachable.purges
    (h : Reachable s) :
    s.tables.Consistent ∧
      (∀ contributor untilDate,
        s.tables.removeByContributorsAndPeriod [contributor] none
            (some untilDate) =
          s.tables.withoutTrips (fun id =>
            decide (s.tables.TripExpired contributor untilDate id))) ∧
      (∀ contributor untilDate,
        s.tables.removeByContributorsUntil [contributor] untilDate =
          s.tables.withoutFeeds (fun id =>
            decide (s.tables.FeedExpired contributor untilDate id))) ∧
      (∀ s', s.Step s' → ∀ p ∈ s.tables.associations,
        p.2 ∈ s'.tables.tripUpdates.map TripUpdateRow.vjId →
        p.1 ∈ s'.tables.realTimeUpdates.map RealTimeUpdateRow.id) ∧
      ∀ config locked today,
        (∃ s', s.Step s' ∧
          s'.tables = purgeTripUpdate config locked today s.tables) ∧
        ∃ s', s.Step s' ∧
          s'.tables = purgeRtUpdate config locked today s.tables := by
  refine ⟨h.consistent, s.removeExpiredTrips,
    s.tables.removeExpiredFeeds_eq, ?_, s.exists_purge⟩
  intro s' hstep p hp _
  exact (hstep.consistent h.consistent).2 p hp

end Runs

end Store

namespace Sample

/-- The store once the feed on three stops is handled. -/
def onTimeStore : Store :=
  ({ db := emptyDb, createdAt := fun _ => 0 } : Store).written onTimeDb
    (clock 7 0)

/-- Its tables once the trips that start before the following day are purged. -/
def purgedTables : Tables :=
  onTimeStore.tables.removeByContributorsAndPeriod ["realtime.cots"] none
    (some 15665)

end Sample

/-- The feed of a trip can be purged once the trip is, and not before. -/
theorem onTimeStore_purges :
    Sample.onTimeStore.tables.Consistent ∧
      Sample.onTimeStore.tables.removeByContributorsUntil ["realtime.cots"]
        15665 = Sample.onTimeStore.tables ∧
      Sample.purgedTables.tripUpdates = [] ∧
      Sample.purgedTables.realTimeUpdates.length = 1 ∧
      (Sample.purgedTables.removeByContributorsUntil ["realtime.cots"]
        15665).realTimeUpdates = [] := by
  have hreachable : Store.Reachable Sample.onTimeStore :=
    .step (.empty _ rfl rfl rfl)
      (.handled Sample.cots true (Sample.received "1") [Sample.onTime]
        (Sample.clock 7 0))
  obtain ⟨hconsistent, htrips, hfeeds, -⟩ := hreachable.purges
  refine ⟨hconsistent, ?_, ?_, ?_, by decide⟩
  · rw [hfeeds]
    decide
  · rw [Sample.purgedTables, htrips]
    decide
  · rw [Sample.purgedTables, htrips]
    decide

end Core
end Kirin
