import Kirin.EndPoints
import Kirin.Piv.ConfigurationWatch
import Kirin.Piv.Worker
import Kirin.Resources.Registry

/-!
# Kirin: the whole application

The table of contributors and the store are shared by the requests, the polls, the
workers, the purge tasks and the command of `kirin/command/purge_rt.py`, which go on
in any order.  A request or a poll looks for its contributor and processes a feed
later; a worker keeps its contributor for many messages; a purge task is planned for
a contributor, and may run much later.

* `App`, `Step`: what is shared, what the processes hold, and what they do.
* `Step.holds`: a process gets its builder from the contributors of the table.
* `Step.changes`: a step stores something for the contributor of a process, or
  purges for a task that is planned, or leaves the store.
* `Step.rows`, `Step.trips`: the rows that a step leaves were there, or belong to
  the contributor of a process.
* `Step.keepsIds`: a contributor that leaves the table has no row.
* `Step.planned`: the tasks that are planned.
-/

namespace Kirin

open Kirin.Core
open Kirin.Resources (Contributor ContributorTable Request)

/-- What a process of Kirin is doing. -/
inductive Process
  | idle
  /-- It has found the contributor of a request or of a poll. -/
  | handling (b : Builder)
  /--
  It consumes a queue, with a session that may have failed, and may wait for a
  message since its last iteration.
  -/
  | consuming (w : Piv.PivWorker) (sessionFailed : Bool)
      (waitsSince : Option Datetime)

/-- The builder that a process has for its contributor. -/
def Process.builder? : Process → Option Builder
  | .idle => none
  | .handling b => some b
  | .consuming w _ _ => some (Piv.builder w.contributorId)

/-- A purge task, as it is sent to the workers of celery. -/
inductive PurgeTask
  | tripUpdate (config : PurgeConfig)
  | rtUpdate (config : PurgeConfig)
deriving DecidableEq, Repr

/-- What the processes share, with what each of them holds. -/
structure App (ι : Type) where
  now : Datetime
  contributors : ContributorTable
  store : Store
  process : ι → Process
  planned : List PurgeTask

section Steps

variable {ι : Type} [DecidableEq ι]

namespace App

/-- The identifiers of the contributors. -/
def ids (s : App ι) : List String :=
  s.contributors.rows.map Contributor.id

def goTo (s : App ι) (i : ι) (p : Process) : App ι :=
  { s with process := Function.update s.process i p }

/-- A process goes on once it has written the database. -/
def write (s : App ι) (db : Db) (i : ι) (p : Process) : App ι :=
  { s.goTo i p with store := s.store.written db s.now }

end App

/--
What happens, in any order: time passes, the contributors are configured, and each
process goes on or ends; the queries return the contributors in any order.  The
database refuses the rows of a contributor that it does not have, and a feed that
comes in gets a new row.
-/
inductive Step (confReloadInterval : Timedelta) : App ι → App ι → Prop
  | wait
      {s : App ι} (t : Datetime) (h : s.now ≤ t) :
      Step confReloadInterval s { s with now := t }
  | configure
      {s : App ι} (request : Request) :
      Step confReloadInterval s
        { s with contributors := Resources.step s.contributors request }
  | purgeContributor
      {s : App ι} (contributorId : String) :
      Step confReloadInterval s
        { s with
          contributors :=
            purgeContributor s.contributors s.store.db contributorId }
  | findCots
      {s : App ι} {i : ι} {found : List Contributor} {c : Contributor}
      (h : s.process i = .idle)
      (hfound : found.Perm (s.contributors.findByConnectorType .cots false))
      (hc : getCotsContributor found = .ok c) :
      Step confReloadInterval s (s.goTo i (.handling (EndPoint.cots.builder c)))
  | find
      {s : App ι} {i : ι} {e : EndPoint} {id : Option String} {c : Contributor}
      (h : s.process i = .idle) (he : e.connector ≠ .cots)
      (hc : e.findContributor s.contributors id = .ok c) :
      Step confReloadInterval s (s.goTo i (.handling (e.builder c)))
  | post
      {s : App ι} {i : ι} {b : Builder} {e : EndPoint}
      (h : s.process i = .handling b) (hid : b.contributorId ∈ s.ids)
      (p : Post) (he : e.connector = b.connector)
      (hp : p.source.connector = b.connector)
      (hnew : p.newId ∉ s.store.db.realTimeUpdates.map RealTimeUpdate.id) :
      Step confReloadInterval s
        (s.write (e.post b s.store.db (some p)).2 i .idle)
  /-- A poll that fails before it has a feed stores its error. -/
  | pollFailed
      {s : App ι} {i : ι} {b : Builder} (h : s.process i = .handling b)
      (hid : b.contributorId ∈ s.ids) (hb : b.connector = .gtfsRt) (id : String)
      (error : RtuError)
      (hnew : id ∉ s.store.db.realTimeUpdates.map RealTimeUpdate.id) :
      Step confReloadInterval s
        (s.write
          (s.store.db.saveRtu
            { id := id, connector := b.connector, status := .ko
              error := some error, contributorId := b.contributorId })
          i .idle)
  /-- A process may end at any time, with an exception or without any. -/
  | close
      {s : App ι} (i : ι) :
      Step confReloadInterval s (s.goTo i .idle)
  | startWorker
      {s : App ι} {i : ι} {found : List Contributor} {c : Contributor}
      {w : Piv.PivWorker} (h : s.process i = .idle)
      (hfound : found.Perm (s.contributors.findByConnectorType .piv false))
      (hc : found.head? = some c) (hw : Piv.PivWorker.init c s.now = .ok w) :
      Step confReloadInterval s (s.goTo i (.consuming w false none))
  /--
  An iteration.  It raises when it has to look at a contributor that has been
  deleted, or in a session that has failed.
  -/
  | iterate
      {s : App ι} {i : ι} {w : Piv.PivWorker} {failed : Bool}
      {found : List Contributor} (h : s.process i = .consuming w failed none)
      (hgo : w.shouldStop = false)
      (hlook : confReloadInterval ≤ s.now - w.lastConfigCheckedTime →
        failed = false ∧ w.contributorId ∈ s.ids)
      (hfound : found.Perm (s.contributors.findByConnectorType .piv false)) :
      Step confReloadInterval s
        (s.goTo i (.consuming (w.onIteration confReloadInterval s.now found) failed
          (some s.now)))
  /-- A message is handled, and leaves nothing to be committed. -/
  | message
      {s : App ι} {i : ι} {w : Piv.PivWorker} {failed' : Bool} {t : Datetime}
      (h : s.process i = .consuming w false (some t))
      (hid : w.contributorId ∈ s.ids) (m : Piv.Message)
      (hraw : hasNul m.raw = false)
      (hnew : m.id ∉ s.store.db.realTimeUpdates.map RealTimeUpdate.id)
      (hsession :
        (Piv.Worker.processMessage w.contributorId
          { db := s.store.db, session := .clean } m).session =
            if failed' then .failed else .clean) :
      Step confReloadInterval s
        (s.write
          (Piv.Worker.processMessage w.contributorId
            { db := s.store.db, session := .clean } m).db
          i (.consuming w failed' none))
  /--
  A message raises in a session that has failed, for a contributor that has been
  deleted, which may fail the session, and when the driver refuses its text.
  -/
  | messageRefused
      {s : App ι} {i : ι} {w : Piv.PivWorker} {failed failed' : Bool}
      {t : Datetime} (h : s.process i = .consuming w failed (some t))
      (raw : String)
      (hrefused : failed = true ∨ w.contributorId ∉ s.ids ∨
        hasNul raw = true ∧ failed' = true)
      (hfailed : failed = true → failed' = true) :
      Step confReloadInterval s (s.goTo i (.consuming w failed' none))
  | noMessage
      {s : App ι} {i : ι} {w : Piv.PivWorker} {failed : Bool} {t : Datetime}
      (h : s.process i = .consuming w failed (some t)) :
      Step confReloadInterval s (s.goTo i (.consuming w failed none))
  | planTripUpdates
      {s : App ι} (connector : ConnectorType) :
      Step confReloadInterval s
        { s with
          planned := s.planned ++
            (purgeTripUpdateByConnectorType s.contributors connector).map
              .tripUpdate }
  | planRtUpdates
      {s : App ι} (connector : ConnectorType) :
      Step confReloadInterval s
        { s with
          planned := s.planned ++
            (purgeRtUpdateByConnectorType s.contributors connector).map
              .rtUpdate }
  | purgeTripUpdates
      {s : App ι} {config : PurgeConfig} (h : .tripUpdate config ∈ s.planned)
      (locked : Bool) (today : Date) (store : Store)
      (hstore : store.tables =
        purgeTripUpdate config locked today s.store.tables) :
      Step confReloadInterval s { s with store := store }
  | purgeRtUpdates
      {s : App ι} {config : PurgeConfig} (h : .rtUpdate config ∈ s.planned)
      (locked : Bool) (today : Date) (store : Store)
      (hstore : store.tables =
        purgeRtUpdate config locked today s.store.tables) :
      Step confReloadInterval s { s with store := store }

/-- The table has an active contributor with the connector of a builder. -/
def Authorizes (table : ContributorTable) (b : Builder) : Prop :=
  ∃ c ∈ table.rows, c.id = b.contributorId ∧ c.isActive = true ∧
    c.connectorType = b.connector

/-- A process has a builder. -/
def Holds (s : App ι) (b : Builder) : Prop :=
  ∃ i, (s.process i).builder? = some b

/-- A `RealTimeUpdate` that is stored. -/
def HasRow (s : App ι) (row : RealTimeUpdate) : Prop :=
  row ∈ s.store.db.realTimeUpdates

variable {confReloadInterval : Timedelta} {s s' start : App ι} {i j : ι}
variable {p : Process} {b : Builder} {w : Piv.PivWorker}

theorem goTo_process
    (s : App ι) (i j : ι) (p : Process) :
    (s.goTo i p).process j = if j = i then p else s.process j :=
  Function.update_apply ..

/-- A process that goes on has its builder, and the others have theirs. -/
theorem holds_of_process
    (hprocess : s'.process = (s.goTo i p).process) (hb : Holds s' b) :
    p.builder? = some b ∨ Holds s b := by
  obtain ⟨j, hj⟩ := hb
  rw [hprocess, goTo_process] at hj
  split at hj
  · exact Or.inl hj
  · exact Or.inr ⟨j, hj⟩

/-- A contributor that a query returns authorizes its builder. -/
theorem authorizes_of_found
    {table : ContributorTable} {found : List Contributor} {c : Contributor}
    (hfound : found.Perm (table.findByConnectorType b.connector false))
    (hc : c ∈ found) (hid : c.id = b.contributorId) :
    Authorizes table b := by
  obtain ⟨hmem, hactive, hconnector⟩ :=
    ContributorTable.mem_findByConnectorType_iff.1 (hfound.mem_iff.1 hc)
  exact ⟨c, hmem, hid, hactive, hconnector⟩

/-- A builder is held already, or its contributor has just been found. -/
theorem Step.holds
    (hstep : Step confReloadInterval s s') (hb : Holds s' b) :
    Holds s b ∨ Authorizes s.contributors b := by
  cases hstep with
  | wait t h => exact Or.inl hb
  | configure request => exact Or.inl hb
  | purgeContributor id => exact Or.inl hb
  | planTripUpdates connector => exact Or.inl hb
  | planRtUpdates connector => exact Or.inl hb
  | purgeTripUpdates h locked today store hstore => exact Or.inl hb
  | purgeRtUpdates h locked today store hstore => exact Or.inl hb
  | @findCots i found c h hfound hc =>
      rcases holds_of_process rfl hb with hown | hold
      · cases hown
        refine Or.inr (authorizes_of_found hfound ?_ rfl)
        cases found with
        | nil =>
            cases hc
        | cons first others =>
            cases hc
            exact List.mem_cons_self
      · exact Or.inl hold
  | @find i e id c h he hc =>
      rcases holds_of_process rfl hb with hown | hold
      · cases hown
        cases id with
        | none =>
            cases hc
        | some id =>
            obtain ⟨hmem, hactive, -, hconnector⟩ :=
              EndPoint.findContributor_eq_ok_iff.1 hc
            exact Or.inr ⟨c, hmem, rfl, hactive, hconnector⟩
      · exact Or.inl hold
  | @startWorker i found c w h hfound hc hw =>
      rcases holds_of_process rfl hb with hown | hold
      · cases hown
        exact Or.inr (authorizes_of_found hfound (List.mem_of_mem_head? hc)
          (Piv.init_eq_ok hw).1.symm)
      · exact Or.inl hold
  | post h hid p he hp hnew =>
      exact Or.inl ((holds_of_process rfl hb).resolve_left (fun h => nomatch h))
  | pollFailed h hid hb' id error hnew =>
      exact Or.inl ((holds_of_process rfl hb).resolve_left (fun h => nomatch h))
  | close i =>
      exact Or.inl ((holds_of_process rfl hb).resolve_left (fun h => nomatch h))
  | @iterate i w failed found h hgo hlook hfound =>
      rcases holds_of_process rfl hb with hown | hold
      · refine Or.inl ⟨i, ?_⟩
        rw [Process.builder?, Piv.onIteration_contributorId] at hown
        rw [h]
        exact hown
      · exact Or.inl hold
  | @message i w failed' t h hid m hraw hnew hsession =>
      rcases holds_of_process rfl hb with hown | hold
      · exact Or.inl ⟨i, h ▸ hown⟩
      · exact Or.inl hold
  | @messageRefused i w failed failed' t h raw hrefused hfailed =>
      rcases holds_of_process rfl hb with hown | hold
      · exact Or.inl ⟨i, h ▸ hown⟩
      · exact Or.inl hold
  | @noMessage i w failed t h =>
      rcases holds_of_process rfl hb with hown | hold
      · exact Or.inl ⟨i, h ▸ hown⟩
      · exact Or.inl hold

/-- A message is a feed of the contributor of its worker. -/
theorem processMessage_db
    (c : String) (db : Db) {m : Piv.Message} (hraw : hasNul m.raw = false) :
    (Piv.Worker.processMessage c { db := db, session := .clean } m).db =
      receive db (receivedBy (Piv.builder c)
        { newId := m.id, source := .piv m.services m.vjId m.body
          network := m.network }) := by
  have hbuilt := Piv.wrapBuild_eq (c := c)
    (w := { db := db, session := .clean }) rfl hraw
  simp only [Piv.Worker.processMessage, hbuilt]
  rfl

/-- What a step does to the store. -/
inductive Changes (s s' : App ι) : Prop
  | leaves
      (hstore : s'.store = s.store)
  | receives
      (b : Builder) (p : Post) (hb : Holds s b) (hid : b.contributorId ∈ s.ids)
      (hnew : p.newId ∉ s.store.db.realTimeUpdates.map RealTimeUpdate.id)
      (hstore : s'.store =
        s.store.written (receive s.store.db (receivedBy b p)) s.now)
  | saves
      (b : Builder) (rtu : RealTimeUpdate) (hb : Holds s b)
      (hid : b.contributorId ∈ s.ids)
      (hcontributor : rtu.contributorId = b.contributorId)
      (hconnector : rtu.connector = b.connector)
      (hstore : s'.store = s.store.written (s.store.db.saveRtu rtu) s.now)
  | purgesTripUpdates
      (config : PurgeConfig) (locked : Bool) (today : Date)
      (hplanned : .tripUpdate config ∈ s.planned)
      (htables : s'.store.tables =
        purgeTripUpdate config locked today s.store.tables)
  | purgesRtUpdates
      (config : PurgeConfig) (locked : Bool) (today : Date)
      (hplanned : .rtUpdate config ∈ s.planned)
      (htables : s'.store.tables =
        purgeRtUpdate config locked today s.store.tables)

/--
A step leaves the store, or a process stores something for the contributor that it
has found, or a planned task purges.
-/
theorem Step.changes
    (hstep : Step confReloadInterval s s') :
    Changes s s' := by
  cases hstep with
  | @post i b e h hid p he hp hnew =>
      refine .receives b p ⟨i, by rw [h]; rfl⟩ hid hnew ?_
      rw [App.write, EndPoint.post_some]
  | @pollFailed i b h hid hb id error hnew =>
      exact .saves b _ ⟨i, by rw [h]; rfl⟩ hid rfl rfl rfl
  | @message i w failed' t h hid m hraw hnew hsession =>
      exact .receives (Piv.builder w.contributorId) _ ⟨i, by rw [h]; rfl⟩ hid
        hnew (by rw [App.write, processMessage_db _ _ hraw])
  | @purgeTripUpdates config h locked today store hstore =>
      exact .purgesTripUpdates config locked today h hstore
  | @purgeRtUpdates config h locked today store hstore =>
      exact .purgesRtUpdates config locked today h hstore
  | wait | configure | purgeContributor | findCots | find | close | startWorker
  | iterate | messageRefused | noMessage | planTripUpdates | planRtUpdates =>
      exact .leaves rfl

/-- The feeds that are written were stored at their time, or are new. -/
theorem hasFeed_of_written
    {store : Store} {db : Db} {now : Datetime} {row : RealTimeUpdateRow}
    (hrow : HasFeed (store.written db now) row) :
    row.realTimeUpdate ∈ db.realTimeUpdates ∧
      (row.realTimeUpdate ∈ store.db.realTimeUpdates → HasFeed store row) := by
  obtain ⟨rtu, hrtu, rfl⟩ := List.mem_map.1 hrow
  refine ⟨hrtu, fun hold => List.mem_map.2 ⟨rtu, hold, ?_⟩⟩
  simp only [Store.written, if_pos (List.mem_map_of_mem hold)]

/-- A feed was stored, or is that of a process for its contributor. -/
theorem Step.feeds
    (hstep : Step confReloadInterval s s') {row : RealTimeUpdateRow}
    (hrow : HasFeed s'.store row) :
    HasFeed s.store row ∨
      ∃ b, Holds s b ∧ b.contributorId ∈ s.ids ∧
        row.realTimeUpdate.contributorId = b.contributorId ∧
        row.realTimeUpdate.connector = b.connector := by
  cases hstep.changes with
  | leaves hstore =>
      exact Or.inl (hstore ▸ hrow)
  | receives b p hb hid hnew hstore =>
      rw [hstore] at hrow
      obtain ⟨hmem, hkept⟩ := hasFeed_of_written hrow
      exact (receive_feeds hmem).imp hkept (fun h => ⟨b, hb, hid, h⟩)
  | saves b rtu hb hid hcontributor hconnector hstore =>
      rw [hstore] at hrow
      obtain ⟨hmem, hkept⟩ := hasFeed_of_written hrow
      rcases of_mem_putRtu hmem with hown | hold
      · refine Or.inr ⟨b, hb, hid, ?_, ?_⟩
        · rw [hown, hcontributor]
        · rw [hown, hconnector]
      · exact Or.inl (hkept hold)
  | purgesTripUpdates config locked today hplanned htables =>
      rw [HasFeed, feeds_of_purgeTripUpdate htables] at hrow
      exact Or.inl hrow
  | purgesRtUpdates config locked today hplanned htables =>
      exact Or.inl ((hasFeed_of_purgeRtUpdate htables).1 hrow).1

/-- A row was stored, or is that of a process for its contributor. -/
theorem Step.rows
    (hstep : Step confReloadInterval s s') {row : RealTimeUpdate}
    (hrow : HasRow s' row) :
    HasRow s row ∨
      Holds s { contributorId := row.contributorId, connector := row.connector } ∧
        row.contributorId ∈ s.ids := by
  rcases hstep.feeds (List.mem_map_of_mem hrow) with
    hold | ⟨b, hb, hid, hcontributor, hconnector⟩
  · obtain ⟨row', hrow', hsame⟩ := List.mem_map.1 hold
    have heq : row' = row := congrArg RealTimeUpdateRow.realTimeUpdate hsame
    exact Or.inl (heq ▸ hrow')
  · rw [hcontributor, hconnector]
    exact Or.inr ⟨hb, hid⟩

/-- A trip was stored, or is that of a process for its contributor. -/
theorem Step.trips
    (hstep : Step confReloadInterval s s') {trip : Trip}
    (htrip : HasTrip s'.store trip) :
    HasTrip s.store trip ∨
      ∃ b, Holds s b ∧ b.contributorId ∈ s.ids ∧ trip.2 = b.contributorId := by
  obtain ⟨tu, htu, rfl⟩ := htrip
  cases hstep.changes with
  | leaves hstore =>
      exact Or.inl ⟨tu, hstore ▸ htu, rfl⟩
  | receives b p hb hid hnew hstore =>
      rw [hstore] at htu
      rcases receive_trips htu with ⟨old, hold, hvj, hcontributor⟩ | hcontributor
      · exact Or.inl ⟨old, hold, Prod.ext hvj hcontributor⟩
      · exact Or.inr ⟨b, hb, hid, hcontributor⟩
  | saves b rtu hb hid hcontributor hconnector hstore =>
      rw [hstore] at htu
      exact Or.inl ⟨tu, htu, rfl⟩
  | purgesTripUpdates config locked today hplanned htables =>
      exact Or.inl ⟨tu, ((mem_rows_of_purgeTripUpdate htables).1 htu).1, rfl⟩
  | purgesRtUpdates config locked today hplanned htables =>
      exact Or.inl ⟨tu, rows_of_purgeRtUpdate htables ▸ htu, rfl⟩

/-- A task is planned with what a contributor asks to keep. -/
def PlannedBy (task : PurgeTask) (c : Contributor) : Prop :=
  task = .tripUpdate
      { contributor := c.id, nbDaysToKeep := c.nbDaysToKeepTripUpdate } ∨
    task = .rtUpdate
      { contributor := c.id, nbDaysToKeep := c.nbDaysToKeepRtUpdate }

/-- A task was planned, or is planned for a contributor of the table. -/
theorem Step.planned
    (hstep : Step confReloadInterval s s') {task : PurgeTask}
    (htask : task ∈ s'.planned) :
    task ∈ s.planned ∨ ∃ c ∈ s.contributors.rows, PlannedBy task c := by
  cases hstep with
  | planTripUpdates connector =>
      refine (List.mem_append.1 htask).imp_right (fun hnew => ?_)
      rw [purgeTripUpdateByConnectorType, List.map_map, List.mem_map] at hnew
      obtain ⟨c, hc, rfl⟩ := hnew
      exact ⟨c, (List.mem_filter.1 hc).1, Or.inl rfl⟩
  | planRtUpdates connector =>
      refine (List.mem_append.1 htask).imp_right (fun hnew => ?_)
      rw [purgeRtUpdateByConnectorType, List.map_map, List.mem_map] at hnew
      obtain ⟨c, hc, rfl⟩ := hnew
      exact ⟨c, (List.mem_filter.1 hc).1, Or.inr rfl⟩
  | wait | configure | purgeContributor | findCots | find | post | pollFailed
  | close | startWorker | iterate | message | messageRefused | noMessage
  | purgeTripUpdates | purgeRtUpdates =>
      exact Or.inl htask

/-- A contributor that a step takes out of the table has no row. -/
theorem Step.keepsIds
    (hstep : Step confReloadInterval s s') {id : String} (h : id ∈ s.ids) :
    id ∈ s'.ids ∨ s'.store = s.store ∧ refersTo s.store.db id = false := by
  cases hstep with
  | configure request =>
      exact Or.inl (Resources.step_keepsIds request h)
  | purgeContributor gone =>
      exact (Resources.mem_purgeContributor_ids s.contributors s.store.db gone
        h).imp_right (fun hfree => ⟨rfl, hfree⟩)
  | wait | findCots | find | post | pollFailed | close | startWorker | iterate
  | message | messageRefused | noMessage | planTripUpdates | planRtUpdates
  | purgeTripUpdates | purgeRtUpdates =>
      exact Or.inl h

end Steps

namespace Sample

/-- A PIV contributor is created, with its broker. -/
def pivCreated (id : String) : Request :=
  .post (some id)
    (.json
      { Resources.Sample.noKey with
        navitiaCoverage := some "sncf"
        connectorType := some .piv
        brokerUrl := some (some "amqp://broker")
        exchangeName := some (some "piv")
        queueName := some (some "kirin")
        nbDaysToKeepTripUpdate := some 3
        nbDaysToKeepRtUpdate := some 30 })

def pivContributor (id : String) : Contributor where
  id := id
  navitiaCoverage := "sncf"
  navitiaToken := none
  feedUrl := none
  connectorType := .piv
  retrievalInterval := some 10
  isActive := true
  brokerUrl := some "amqp://broker"
  exchangeName := some "piv"
  queueName := some "kirin"
  nbDaysToKeepTripUpdate := 3
  nbDaysToKeepRtUpdate := 30

/-- It is deactivated. -/
def pivDeleted : Request :=
  .delete (some "realtime.piv")

/-- The application before anything happens. -/
def emptyApp : App Unit where
  now := 0
  contributors := Resources.emptyTable
  store := { db := Core.Sample.emptyDb, createdAt := fun _ => 0 }
  process := fun _ => .idle
  planned := []

end Sample

end Kirin
