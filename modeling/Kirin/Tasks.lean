import Kirin.Core.LoadedRows
import Kirin.Library.Lifetime
import Kirin.PublishedTrips
import Kirin.Resources.Contributors

/-!
# Kirin: how long the rows are kept

Every night, `kirin/tasks.py` starts the purges of each contributor, those of its
trip updates and then those of its feeds, while feeds may still come in.

* `purgeTripUpdateByConnectorType`, `purgeRtUpdateByConnectorType`: the tasks of
  the contributors of a connector.
* `StoreEvent`, `StoreStep`: what happens to the store, with its label.
* `keepsTrips`, `comesTrips`: the purge that a trip expires at, and the feeds that
  bring one.
* `keepsLinks`, `keepsFeeds`: a feed stays as long as a trip that it is linked to,
  and as long as no purge is late enough.
* `retention`: what is left at the end of every run.
-/

namespace Kirin

open Kirin.Core
open Kirin.Resources (Contributor ContributorTable)
open Lifetime (Run Keeps Comes)

def purgeTripUpdateByConnectorType (table : ContributorTable)
    (connectorType : ConnectorType) : List PurgeConfig :=
  (table.findByConnectorType connectorType true).map (fun c =>
    { contributor := c.id, nbDaysToKeep := c.nbDaysToKeepTripUpdate })

def purgeRtUpdateByConnectorType (table : ContributorTable)
    (connectorType : ConnectorType) : List PurgeConfig :=
  (table.findByConnectorType connectorType true).map (fun c =>
    { contributor := c.id, nbDaysToKeep := c.nbDaysToKeepRtUpdate })

/-- What happens to the store. -/
inductive StoreEvent
  | received (f : ReceivedFeed) (now : Datetime)
  | purgedTripUpdates (config : PurgeConfig) (locked : Bool) (today : Date)
  | purgedRtUpdates (config : PurgeConfig) (locked : Bool) (today : Date)

/-- What an event makes of the store; a feed that comes in gets a new row. -/
inductive StoreStep (s : Store) : StoreEvent → Store → Prop
  | received
      (f : ReceivedFeed) (now : Datetime)
      (hnew : f.rtu.id ∉ s.db.realTimeUpdates.map RealTimeUpdate.id) :
      StoreStep s (.received f now) (s.written (receive s.db f) now)
  | purgedTripUpdates
      (config : PurgeConfig) (locked : Bool) (today : Date) (s' : Store)
      (h : s'.tables = purgeTripUpdate config locked today s.tables) :
      StoreStep s (.purgedTripUpdates config locked today) s'
  | purgedRtUpdates
      (config : PurgeConfig) (locked : Bool) (today : Date) (s' : Store)
      (h : s'.tables = purgeRtUpdate config locked today s.tables) :
      StoreStep s (.purgedRtUpdates config locked today) s'

/-- A trip on its day, with the contributor of its row. -/
abbrev Trip :=
  VehicleJourney × String

def HasTrip (s : Store) (trip : Trip) : Prop :=
  ∃ tu ∈ s.db.tripUpdates, (tu.vj, tu.contributorId) = trip

/-- The first day that a task keeps is after an instant. -/
def Covers (config : PurgeConfig) (locked : Bool) (today : Date)
    (contributorId : String) (t : Datetime) : Prop :=
  locked = true ∧ config.contributor = contributorId ∧
    ∃ untilDate, firstDayKept today config.nbDaysToKeep = some untilDate ∧
      t < combine untilDate midnight

section Covers

variable {config : PurgeConfig} {locked : Bool} {today : Date}
variable {contributorId : String} {t : Datetime}

/-- A task that raises covers nothing. -/
theorem not_covers_of_none
    (hday : firstDayKept today config.nbDaysToKeep = none) :
    ¬Covers config locked today contributorId t := by
  rintro ⟨-, -, untilDate, hsome, -⟩
  rw [hday] at hsome
  cases hsome

theorem covers_iff_of_some
    {untilDate : Date}
    (hday : firstDayKept today config.nbDaysToKeep = some untilDate) :
    Covers config true today contributorId t ↔
      config.contributor = contributorId ∧ t < combine untilDate midnight := by
  rw [Covers, hday]
  simp

end Covers

namespace StoreEvent

/-- A purge of the trip updates expires the trips that start too early. -/
def ExpiresTrip (e : StoreEvent) (trip : Trip) : Prop :=
  match e with
  | .purgedTripUpdates config locked today =>
      Covers config locked today trip.2 trip.1.startTimestamp
  | _ => False

/-- A feed brings the trips that are built from it. -/
def BringsTrip (e : StoreEvent) (trip : Trip) : Prop :=
  match e with
  | .received f _ =>
      ∃ rows built, f.build rows = .ok built ∧
        ∃ t ∈ built.tripUpdates, (t.vj, t.contributorId) = trip
  | _ => False

/-- A purge of the feeds may delete those that are too old. -/
def ExpiresFeed (e : StoreEvent) (row : RealTimeUpdateRow) : Prop :=
  match e with
  | .purgedRtUpdates config locked today =>
      Covers config locked today row.realTimeUpdate.contributorId row.createdAt
  | _ => False

end StoreEvent

section Steps

variable {s s' : Store} {e : StoreEvent}

/-- An event is a step of the store. -/
theorem StoreStep.step
    (h : StoreStep s e s') :
    s.Step s' := by
  cases h with
  | received f now hnew =>
      exact .received f.builder f.network f.rtu f.build now
  | purgedTripUpdates config locked today _ h =>
      exact .purgedTripUpdates config locked today s' h
  | purgedRtUpdates config locked today _ h =>
      exact .purgedRtUpdates config locked today s' h

/-- A trip update of a store expires by its own vehicle journey. -/
theorem tripExpired_iff
    {tu : TripUpdate} (htu : tu ∈ s.db.tripUpdates) (contributor : String)
    (untilDate : Date) :
    s.tables.TripExpired contributor untilDate (rowId tu) ↔
      contributor = tu.contributorId ∧
        tu.vj.startTimestamp < combine untilDate midnight := by
  have hown : ∀ tu' ∈ s.db.tripUpdates, rowId tu' = rowId tu → tu' = tu :=
    fun tu' htu' heq => KeyedStore.eq_of_key_eq s.db.uniqueVj htu' htu heq
  constructor
  · rintro ⟨row, hrow, hid, rfl, vj, hvj, hvjId, hstart⟩
    obtain ⟨tu1, htu1, rfl⟩ := List.mem_map.1 hrow
    obtain ⟨tu2, htu2, rfl⟩ := List.mem_map.1 hvj
    obtain rfl := hown tu1 htu1 hid
    obtain rfl := hown tu2 htu2 hvjId
    exact ⟨rfl, hstart⟩
  · rintro ⟨rfl, hstart⟩
    exact ⟨tu.row, List.mem_map_of_mem htu, rfl, rfl, tu.vj,
      List.mem_map_of_mem htu, rfl, hstart⟩

/-- Tables that are left as they are leave the trip updates. -/
theorem rows_of_tables
    (h : s'.tables = s.tables) :
    s'.db.tripUpdates = s.db.tripUpdates := by
  rw [← s'.load_tables, h, s.load_tables]

/-- A purge of the trip updates leaves those that it does not cover. -/
theorem mem_rows_of_purgeTripUpdate
    {config : PurgeConfig} {locked : Bool} {today : Date}
    (h : s'.tables = purgeTripUpdate config locked today s.tables)
    {tu : TripUpdate} :
    tu ∈ s'.db.tripUpdates ↔
      tu ∈ s.db.tripUpdates ∧
        ¬Covers config locked today tu.contributorId tu.vj.startTimestamp := by
  unfold purgeTripUpdate at h
  cases locked with
  | false =>
      rw [rows_of_tables h]
      exact (and_iff_left (fun hcovers => Bool.false_ne_true hcovers.1)).symm
  | true =>
      simp only [Bool.not_true, Bool.false_eq_true, if_false] at h
      cases hday : firstDayKept today config.nbDaysToKeep with
      | none =>
          rw [hday] at h
          rw [rows_of_tables h]
          exact (and_iff_left (not_covers_of_none hday)).symm
      | some untilDate =>
          rw [hday] at h
          rw [Store.rows_of_withoutTrips (h.trans (s.removeExpiredTrips _ _)),
            List.mem_filter, Bool.not_eq_true', decide_eq_false_iff_not]
          refine and_congr_right (fun htu => ?_)
          rw [tripExpired_iff htu, covers_iff_of_some hday]

/-- The associations of a trip that a purge does not cover are left. -/
theorem associations_of_purgeTripUpdate
    {config : PurgeConfig} {locked : Bool} {today : Date}
    (h : s'.tables = purgeTripUpdate config locked today s.tables)
    {tu : TripUpdate} (htu : tu ∈ s'.db.tripUpdates) {id : String}
    (hlink : (id, rowId tu) ∈ s.db.associations) :
    (id, rowId tu) ∈ s'.db.associations := by
  obtain ⟨gone, hgone⟩ := purgeTripUpdate_eq s config locked today
  rw [Store.rows_of_withoutTrips (h.trans hgone), List.mem_filter] at htu
  have hassociations : s'.db.associations =
      s.db.associations.filter (fun p => !gone p.2) :=
    congrArg Tables.associations (h.trans hgone)
  rw [hassociations]
  exact List.mem_filter.2 ⟨hlink, htu.2⟩

/-- A purge of the trip updates brings no association. -/
theorem mem_associations_of_purgeTripUpdate
    {config : PurgeConfig} {locked : Bool} {today : Date}
    (h : s'.tables = purgeTripUpdate config locked today s.tables)
    {p : String × String} (hp : p ∈ s'.db.associations) :
    p ∈ s.db.associations := by
  obtain ⟨gone, hgone⟩ := purgeTripUpdate_eq s config locked today
  have hassociations : s'.db.associations =
      s.db.associations.filter (fun p => !gone p.2) :=
    congrArg Tables.associations (h.trans hgone)
  rw [hassociations] at hp
  exact List.mem_of_mem_filter hp

/-- A purge of the feeds leaves the associations. -/
theorem associations_of_purgeRtUpdate
    {config : PurgeConfig} {locked : Bool} {today : Date}
    (h : s'.tables = purgeRtUpdate config locked today s.tables) :
    s'.db.associations = s.db.associations := by
  obtain ⟨gone, hgone, -⟩ := purgeRtUpdate_eq s.tables config locked today
  exact congrArg Tables.associations (h.trans hgone)

/-- A trip that an event does not expire stays. -/
theorem keepsTrips :
    Keeps StoreStep HasTrip StoreEvent.ExpiresTrip := by
  rintro s e s' trip hstep ⟨tu, htu, rfl⟩ hnot
  cases hstep with
  | received f now hnew =>
      obtain ⟨tu', htu', hvj, hcontributor⟩ := receive_keepsTrip htu f
      exact ⟨tu', htu', Prod.ext hvj.symm hcontributor.symm⟩
  | purgedTripUpdates config locked today _ h =>
      exact ⟨tu, (mem_rows_of_purgeTripUpdate h).2 ⟨htu, hnot⟩, rfl⟩
  | purgedRtUpdates config locked today _ h =>
      exact ⟨tu, rows_of_purgeRtUpdate h ▸ htu, rfl⟩

/-- A trip that is left was there and has not expired, or is that of a feed. -/
theorem comesTrips :
    Comes StoreStep HasTrip StoreEvent.ExpiresTrip StoreEvent.BringsTrip := by
  rintro s e s' trip hstep ⟨tu, htu, rfl⟩
  cases hstep with
  | received f now hnew =>
      have houtcome := wrapBuildFeed_outcome f.builder f.network s.db f.rtu
        f.build
      rcases houtcome.rows with hsame | ⟨built, _, _, hbuild, -⟩
      · exact Or.inl ⟨⟨tu, hsame.1 ▸ htu, rfl⟩, id⟩
      · rw [hbuild] at houtcome
        rcases houtcome.owned htu with ⟨old, hold, hvj, hcontributor⟩ |
          ⟨t, ht, hvj, hcontributor⟩
        · exact Or.inl ⟨⟨old, hold, Prod.ext hvj hcontributor⟩, id⟩
        · exact Or.inr
            ⟨_, built, hbuild, t, ht, Prod.ext hvj hcontributor⟩
  | purgedTripUpdates config locked today _ h =>
      obtain ⟨hmem, hnot⟩ := (mem_rows_of_purgeTripUpdate h).1 htu
      exact Or.inl ⟨⟨tu, hmem, rfl⟩, hnot⟩
  | purgedRtUpdates config locked today _ h =>
      exact Or.inl ⟨⟨tu, rows_of_purgeRtUpdate h ▸ htu, rfl⟩, id⟩

/-- A stored trip with a feed that it is linked to. -/
def HasLink (s : Store) (link : String × Trip) : Prop :=
  (link.1, link.2.1.id) ∈ s.db.associations ∧ HasTrip s link.2

/-- A feed stays linked to a trip that an event does not expire. -/
theorem keepsLinks :
    Keeps StoreStep HasLink (fun e link => e.ExpiresTrip link.2) := by
  rintro s e s' ⟨id, trip⟩ hstep ⟨hlink, htrip⟩ hnot
  have hkept := keepsTrips s e s' trip hstep htrip hnot
  refine ⟨?_, hkept⟩
  cases hstep with
  | received f now hnew =>
      have houtcome := wrapBuildFeed_outcome f.builder f.network s.db f.rtu
        f.build
      have hsaved : (id, trip.1.id) ∈ (s.db.saveRtu f.rtu).associations := hlink
      rcases houtcome.rows with hsame | ⟨built, _, _, -, -, -, hassociations⟩
      · exact hsame.2 ▸ hsaved
      · exact hassociations ▸ List.mem_append_left _ hsaved
  | purgedTripUpdates config locked today _ h =>
      obtain ⟨tu, htu, rfl⟩ := hkept
      exact associations_of_purgeTripUpdate h htu hlink
  | purgedRtUpdates config locked today _ h =>
      rw [associations_of_purgeRtUpdate h]
      exact hlink

/-- A purge of the trip updates leaves the feeds. -/
theorem feeds_of_purgeTripUpdate
    {config : PurgeConfig} {locked : Bool} {today : Date}
    (h : s'.tables = purgeTripUpdate config locked today s.tables) :
    s'.tables.realTimeUpdates = s.tables.realTimeUpdates := by
  obtain ⟨gone, hgone⟩ := purgeTripUpdate_eq s config locked today
  rw [h, hgone]
  rfl

/-- A feed is stored, with its creation time. -/
def HasFeed (s : Store) (row : RealTimeUpdateRow) : Prop :=
  row ∈ s.tables.realTimeUpdates

/-- A feed of a store expires by its own creation time. -/
theorem feedExpired_iff
    {row : RealTimeUpdateRow} (hrow : HasFeed s row) (contributor : String)
    (untilDate : Date) :
    s.tables.FeedExpired contributor untilDate row.id ↔
      contributor = row.realTimeUpdate.contributorId ∧
        row.createdAt < combine untilDate midnight ∧
        ∀ p ∈ s.db.associations, p.1 ≠ row.id := by
  constructor
  · rintro ⟨row', hrow', hid, rfl, hcreated, hfree⟩
    have hids : (s.tables.realTimeUpdates.map RealTimeUpdateRow.id).Nodup := by
      rw [Store.tables_feedIds]
      exact s.db.uniqueRtu
    obtain rfl := KeyedStore.eq_of_key_eq hids hrow' hrow hid
    exact ⟨rfl, hcreated, hfree⟩
  · rintro ⟨rfl, hcreated, hfree⟩
    exact ⟨row, hrow, rfl, rfl, hcreated, hfree⟩

/-- The feeds that a purge leaves are not covered, or are linked to a trip. -/
theorem hasFeed_of_purgeRtUpdate
    {config : PurgeConfig} {locked : Bool} {today : Date}
    (h : s'.tables = purgeRtUpdate config locked today s.tables)
    {row : RealTimeUpdateRow} :
    HasFeed s' row ↔
      HasFeed s row ∧
        (Covers config locked today row.realTimeUpdate.contributorId
            row.createdAt →
          ∃ p ∈ s.db.associations, p.1 = row.id) := by
  unfold purgeRtUpdate at h
  cases locked with
  | false =>
      rw [HasFeed, h]
      exact (and_iff_left (fun hcovers =>
        absurd hcovers.1 Bool.false_ne_true)).symm
  | true =>
      simp only [Bool.not_true, Bool.false_eq_true, if_false] at h
      cases hday : firstDayKept today config.nbDaysToKeep with
      | none =>
          rw [hday] at h
          rw [HasFeed, h]
          exact (and_iff_left (fun hcovers =>
            absurd hcovers (not_covers_of_none hday))).symm
      | some untilDate =>
          rw [hday] at h
          rw [HasFeed, h.trans (Tables.removeExpiredFeeds_eq _ _ _),
            Tables.withoutFeeds, List.mem_filter, Bool.not_eq_true',
            decide_eq_false_iff_not]
          refine and_congr_right (fun hrow => ?_)
          rw [feedExpired_iff hrow, covers_iff_of_some hday]
          simp

/-- A feed that no purge covers stays. -/
theorem keepsFeeds :
    Keeps StoreStep HasFeed StoreEvent.ExpiresFeed := by
  rintro s e s' row hstep hrow hnot
  cases hstep with
  | received f now hnew =>
      obtain ⟨rtu, hrtu, rfl⟩ := List.mem_map.1 hrow
      have hid : rtu.id ∈ s.db.realTimeUpdates.map RealTimeUpdate.id :=
        List.mem_map_of_mem hrtu
      have hne : rtu.id ≠ f.rtu.id := fun heq => hnew (heq ▸ hid)
      have hkept : rtu ∈ (receive s.db f).realTimeUpdates := by
        have houtcome := wrapBuildFeed_outcome f.builder f.network s.db f.rtu
          f.build
        rw [receive, houtcome.mem_otherFeeds hne, Db.saveRtu_realTimeUpdates,
          mem_putRtu_of_ne hne]
        exact hrtu
      refine List.mem_map.2 ⟨rtu, hkept, ?_⟩
      simp only [Store.written, if_pos hid]
  | purgedTripUpdates config locked today _ h =>
      rw [HasFeed, feeds_of_purgeTripUpdate h]
      exact hrow
  | purgedRtUpdates config locked today _ h =>
      exact (hasFeed_of_purgeRtUpdate h).2 ⟨hrow, fun hcovers =>
        absurd hcovers hnot⟩

end Steps

section Run

variable {s s' : Store} {events : List StoreEvent}

/-- No association dangles at the end of a run. -/
theorem consistent_of_run
    (hs : s.tables.Consistent) (hrun : Run StoreStep s events s') :
    s'.tables.Consistent :=
  hrun.invariant (P := fun s => s.tables.Consistent)
    (fun _ _ _ h hstep => (hstep.step.consistent h).1) hs

/-- The trips of a contributor whose task has run are recent, unless brought. -/
theorem recent_of_night
    (hrun : Run StoreStep s events s') {config : PurgeConfig} {today : Date}
    (htask : .purgedTripUpdates config true today ∈ events)
    (hquiet : ∀ f now, .received f now ∉ events) {trip : Trip}
    (htrip : HasTrip s' trip) (hcontributor : config.contributor = trip.2)
    {untilDate : Date}
    (hday : firstDayKept today config.nbDaysToKeep = some untilDate) :
    combine untilDate midnight ≤ trip.1.startTimestamp := by
  rcases comesTrips.of_run hrun htrip with ⟨-, hnone⟩ |
    ⟨before, e, after, rfl, hbrings, -⟩
  · have hnot := hnone _ htask
    rw [StoreEvent.ExpiresTrip, covers_iff_of_some hday] at hnot
    exact Int.not_lt.1 (fun hlt => hnot ⟨hcontributor, hlt⟩)
  · cases e with
    | received f now =>
        exact absurd (List.mem_append_right _ List.mem_cons_self) (hquiet f now)
    | purgedTripUpdates =>
        exact hbrings.elim
    | purgedRtUpdates =>
        exact hbrings.elim

/-- Every contributor has its task among those of its connector. -/
theorem mem_purgeTripUpdateByConnectorType
    {table : ContributorTable} {c : Contributor} (hc : c ∈ table.rows) :
    { contributor := c.id, nbDaysToKeep := c.nbDaysToKeepTripUpdate } ∈
      purgeTripUpdateByConnectorType table c.connectorType := by
  refine List.mem_map.2 ⟨c, ?_, rfl⟩
  rw [ContributorTable.findByConnectorType, if_pos rfl]
  exact List.mem_filter.2 ⟨hc, by simp⟩

/--
In every run of feeds and purges, in any order:

* a stored trip has not expired since the start, or since a feed has brought it;
* a trip that no purge expires stays, with the feeds that it is linked to;
* a feed that no purge covers stays, and those that a purge covers are left only
  when they are linked to a trip;
* once the tasks of all the contributors have run and if no feed comes in, every
  trip starts on the first day that its contributor keeps, or later.
-/
theorem retention
    (hs : s.tables.Consistent) (hrun : Run StoreStep s events s') :
    (∀ trip, HasTrip s' trip →
      (HasTrip s trip ∧ ∀ e ∈ events, ¬e.ExpiresTrip trip) ∨
        ∃ before e after, events = before ++ e :: after ∧ e.BringsTrip trip ∧
          ∀ e' ∈ after, ¬e'.ExpiresTrip trip) ∧
      (∀ trip, HasTrip s trip → (∀ e ∈ events, ¬e.ExpiresTrip trip) →
        HasTrip s' trip ∧ ∀ id, (id, trip.1.id) ∈ s.db.associations →
          (id, trip.1.id) ∈ s'.db.associations ∧
            id ∈ s'.db.realTimeUpdates.map RealTimeUpdate.id) ∧
      (∀ row, HasFeed s row → (∀ e ∈ events, ¬e.ExpiresFeed row) →
        HasFeed s' row) ∧
      (∀ before e, events = before ++ [e] → ∀ row, HasFeed s' row →
        e.ExpiresFeed row → ∃ p ∈ s'.db.associations, p.1 = row.id) ∧
      ∀ (table : ContributorTable) (today : Date),
        (∀ connector, ∀ config ∈ purgeTripUpdateByConnectorType table connector,
          .purgedTripUpdates config true today ∈ events) →
        (∀ f now, .received f now ∉ events) →
        ∀ trip, HasTrip s' trip → ∀ c ∈ table.rows, c.id = trip.2 →
          ∀ untilDate, firstDayKept today c.nbDaysToKeepTripUpdate =
              some untilDate →
            combine untilDate midnight ≤ trip.1.startTimestamp := by
  refine ⟨fun trip htrip => comesTrips.of_run hrun htrip, ?_, ?_, ?_, ?_⟩
  · intro trip htrip hnone
    refine ⟨keepsTrips.of_run hrun htrip hnone, fun id hlink => ?_⟩
    have hkept := (keepsLinks.of_run (x := (id, trip)) hrun ⟨hlink, htrip⟩
      hnone).1
    exact ⟨hkept, (s'.consistent_iff.1 (consistent_of_run hs hrun) _ hkept).1⟩
  · exact fun row hrow hnone => keepsFeeds.of_run hrun hrow hnone
  · rintro before e rfl row hrow hexpires
    obtain ⟨s1, -, hstep⟩ := hrun.of_concat
    cases hstep with
    | received f now hnew =>
        exact hexpires.elim
    | purgedTripUpdates config locked today _ h =>
        exact hexpires.elim
    | purgedRtUpdates config locked today _ h =>
        have hlinked := ((hasFeed_of_purgeRtUpdate h).1 hrow).2 hexpires
        rw [associations_of_purgeRtUpdate h]
        exact hlinked
  · intro table today htasks hquiet trip htrip c hc hcontributor untilDate hday
    exact recent_of_night hrun
      (htasks _ _ (mem_purgeTripUpdateByConnectorType hc)) hquiet htrip
      hcontributor hday

end Run

/-- The trip of the day before is kept for a day. -/
theorem retention_onTime :
    ∃ s', Run StoreStep Core.Sample.onTimeStore
        [.purgedTripUpdates
          { contributor := "realtime.cots", nbDaysToKeep := 1 } true 15665] s' ∧
      HasTrip s' (Core.Sample.onTime.vj, "realtime.cots") := by
  obtain ⟨s', -, htables⟩ := (Core.Sample.onTimeStore.exists_purge
    { contributor := "realtime.cots", nbDaysToKeep := 1 } true 15665).1
  have hrun : Run StoreStep Core.Sample.onTimeStore _ s' :=
    .concat .nil (.purgedTripUpdates _ _ _ s' htables)
  have hreachable : Store.Reachable Core.Sample.onTimeStore :=
    .step (.empty _ rfl rfl rfl)
      (.handled Core.Sample.cots true (Core.Sample.received "1")
        [Core.Sample.onTime] (Core.Sample.clock 7 0))
  have htrip : HasTrip Core.Sample.onTimeStore
      (Core.Sample.onTime.vj, "realtime.cots") := by
    unfold HasTrip
    decide
  have hday : firstDayKept 15665 1 = some 15664 := by
    decide
  refine ⟨s', hrun,
    ((retention hreachable.consistent hrun).2.1 _ htrip ?_).1⟩
  rw [List.nil_append, List.forall_mem_singleton, StoreEvent.ExpiresTrip,
    covers_iff_of_some hday]
  decide

end Kirin
