import Kirin.Core.BuildWrapper
import Kirin.Library.Journal
import Kirin.Library.KeyedStore
import Mathlib.Data.List.Induction

/-!
# Kirin: the journal of the feeds

Each poll of a contributor leaves something in the table of the
`RealTimeUpdate`: the row of the feed that it processes, or what
`manage_db_error` and `manage_db_no_new` of `kirin/utils.py` make of the last
row.  An error that goes on is a single row, with the instants between which it
has been seen.

* `record`: what a poll leaves in the table.
* `buildUndecodable_eq`: marking a feed that cannot be decoded a second time only
  tells its instant.
* `entriesOf_record`, `entriesOf_run`: the rows of a contributor are the journal
  of its own polls, whatever the others do.
* `feed_journal`: what the rows of a contributor tell of its polls.
-/

namespace Kirin

open Kirin.Core
open Journal (Entry Report Timed Clocked Ordered Tells)

/-- A `RealTimeUpdate` with its data and its timestamps. -/
structure FeedRow extends RealTimeUpdate where
  rawData : String
  createdAt : Datetime
  updatedAt : Option Datetime
deriving DecidableEq, Repr

/-- Write the row of a `RealTimeUpdate` that is in the table. -/
def updateRow (rows : List FeedRow) (row : FeedRow) : List FeedRow :=
  KeyedStore.replace (fun r : FeedRow => r.id) rows row

/-- A new row, and the table with it; its timestamps are those of its creation. -/
def makeRtUpdate (rows : List FeedRow) (id rawData : String)
    (connector : ConnectorType) (contributorId : String) (now : Datetime) :
    List FeedRow × FeedRow :=
  let row : FeedRow :=
    { id := id, connector := connector, status := .ok, error := none
      contributorId := contributorId, rawData := rawData, createdAt := now
      updatedAt := some now }
  (rows ++ [row], row)

/-- Set a row to KO at an instant. -/
def FeedRow.setKo (row : FeedRow) (error : RtuError) (now : Datetime) :
    FeedRow :=
  { row with
    toRealTimeUpdate := setRtuStatusKo row.toRealTimeUpdate error
    updatedAt := some now }

def saveRtDataWithError (rows : List FeedRow) (id data : String)
    (connector : ConnectorType) (contributorId : String) (error : RtuError)
    (start finish : Datetime) : List FeedRow × FeedRow :=
  let made := makeRtUpdate rows id data connector contributorId start
  let row := made.2.setKo error finish
  (updateRow made.1 row, row)

/-- Change the status of a row and change it back, to poke its last instant. -/
def pokeUpdatedAt (rows : List FeedRow) (rtu : FeedRow)
    (start finish : Datetime) : List FeedRow × FeedRow :=
  let poked :=
    { rtu with
      status := if rtu.status ≠ .pending then .pending else .ok
      updatedAt := some start }
  let restored :=
    { poked with status := rtu.status, updatedAt := some finish }
  (updateRow (updateRow rows poked) restored, restored)

/-- The row that was created last, and the first one of these. -/
def lastCreated (rows : List FeedRow) : Option FeedRow :=
  rows.foldl
    (fun last row =>
      match last with
      | none => some row
      | some r => if r.createdAt < row.createdAt then some row else some r)
    none

def getLastRtu (rows : List FeedRow) (connector : ConnectorType)
    (contributorId : String) : Option FeedRow :=
  lastCreated (rows.filter (fun r =>
    r.connector == connector && r.contributorId == contributorId))

/-- Poke the last row when it says the same, or else save a new one. -/
def manageDbError (rows : List FeedRow) (id data : String)
    (connector : ConnectorType) (contributorId : String) (error : RtuError)
    (start finish : Datetime) : List FeedRow × FeedRow :=
  match getLastRtu rows connector contributorId with
  | none =>
      saveRtDataWithError rows id data connector contributorId error start finish
  | some last =>
      if last.status = .ko ∧ last.error = some error ∧ last.rawData = data then
        pokeUpdatedAt rows last start finish
      else
        saveRtDataWithError rows id data connector contributorId error start
          finish

def manageDbNoNew (rows : List FeedRow) (connector : ConnectorType)
    (contributorId : String) (start finish : Datetime) : List FeedRow :=
  match getLastRtu rows connector contributorId with
  | none => rows
  | some last => (pokeUpdatedAt rows last start finish).1

/--
A feed that cannot be decoded: `build_rt_update` manages its error, and the feed
is set to KO once more with what `build_trip_updates` then raises.
-/
def buildUndecodable (rows : List FeedRow) (id data : String)
    (connector : ConnectorType) (contributorId : String)
    (start finish : Datetime) : List FeedRow :=
  let managed := manageDbError rows id data connector contributorId
    (.text "invalid protobuf") start finish
  updateRow managed.1
    (managed.2.setKo (errorOf (.invalidArguments "invalid protobuf")) finish)

/-- A feed that is processed, and set to KO if something fails. -/
def processFeed (rows : List FeedRow) (id data : String)
    (connector : ConnectorType) (contributorId : String)
    (failure : Option RtuError) (start finish : Datetime) : List FeedRow :=
  let made := makeRtUpdate rows id data connector contributorId start
  match failure with
  | none => made.1
  | some error => updateRow made.1 (made.2.setKo error finish)

/-- What becomes of a poll. -/
inductive Happening
  | processed (rawData : String) (failure : Option RtuError)
  | httpError
  | undecodable (rawData : String)
  | noNew
deriving DecidableEq, Repr

/-- A poll of a contributor, with the identifier that a new row would have. -/
structure PollEvent where
  contributorId : String
  newId : String
  start : Datetime
  finish : Datetime
  happening : Happening
deriving DecidableEq, Repr

/-- The table once a poll is over, the connector of each contributor being given. -/
def record (connectorOf : String → ConnectorType) (rows : List FeedRow)
    (e : PollEvent) : List FeedRow :=
  let connector := connectorOf e.contributorId
  match e.happening with
  | .processed rawData failure =>
      processFeed rows e.newId rawData connector e.contributorId failure e.start
        e.finish
  | .httpError =>
      (manageDbError rows e.newId "" connector e.contributorId
        (.text "Http Error") e.start e.finish).1
  | .undecodable rawData =>
      buildUndecodable rows e.newId rawData connector e.contributorId e.start
        e.finish
  | .noNew => manageDbNoNew rows connector e.contributorId e.start e.finish

/-- What a row says. -/
structure FeedContent where
  status : RtStatus
  error : Option RtuError
  rawData : String
deriving DecidableEq, Repr

def FeedRow.content (row : FeedRow) : FeedContent where
  status := row.status
  error := row.error
  rawData := row.rawData

/-- The entry of the journal that a row is. -/
def FeedRow.entry (row : FeedRow) : Entry Datetime FeedContent where
  first := row.createdAt
  last := row.updatedAt.getD row.createdAt
  content := row.content

/-- The rows of a contributor, as the entries of a journal. -/
def entriesOf (c : String) (rows : List FeedRow) :
    List (Entry Datetime FeedContent) :=
  (rows.filter (fun r => r.contributorId == c)).map FeedRow.entry

/-- What a poll reports. -/
def PollEvent.report (e : PollEvent) : Report FeedContent :=
  match e.happening with
  | .processed rawData none =>
      .fresh { status := .ok, error := none, rawData := rawData }
  | .processed rawData (some error) =>
      .fresh { status := .ko, error := some error, rawData := rawData }
  | .httpError =>
      .repeated
        { status := .ko, error := some (.text "Http Error"), rawData := "" }
  | .undecodable rawData =>
      .repeated
        { status := .ko, error := some (.text "invalid protobuf")
          rawData := rawData }
  | .noNew => .unchanged

/-- The last instant that a poll writes: a feed that succeeds is written once. -/
def PollEvent.written (e : PollEvent) : Datetime :=
  match e.happening with
  | .processed _ none => e.start
  | _ => e.finish

def PollEvent.timed (e : PollEvent) : Timed Datetime FeedContent where
  start := e.start
  finish := e.written
  report := e.report

/-- The polls of a contributor. -/
def eventsOf (c : String) (events : List PollEvent) : List PollEvent :=
  events.filter (fun e => e.contributorId == c)

/-- What the reports of the polls of a contributor are. -/
def reportsOf (c : String) (events : List PollEvent) :
    List (Timed Datetime FeedContent) :=
  (eventsOf c events).map PollEvent.timed

section Rows

variable {rows : List FeedRow} {row : FeedRow}

/-- A row that has just been made is overwritten where it is. -/
theorem updateRow_concat
    {row' : FeedRow} (hid : row'.id = row.id)
    (hnew : row.id ∉ rows.map (fun r => r.id)) :
    updateRow (rows ++ [row]) row' = rows ++ [row'] :=
  KeyedStore.replace_concat hid hnew

/-- A feed that cannot be processed is one row, from its creation to its error. -/
theorem saveRtDataWithError_eq
    {id : String} (hnew : id ∉ rows.map (fun r => r.id)) (data : String)
    (connector : ConnectorType) (contributorId : String) (error : RtuError)
    (start finish : Datetime) :
    (saveRtDataWithError rows id data connector contributorId error start
        finish).1 =
      rows ++
        [{ id := id, connector := connector, status := .ko
           error := some error, contributorId := contributorId
           rawData := data, createdAt := start, updatedAt := some finish }] :=
  updateRow_concat rfl hnew

/-- Poking a row changes its last instant only. -/
theorem pokeUpdatedAt_eq
    (rows : List FeedRow) (rtu : FeedRow) (start finish : Datetime) :
    (pokeUpdatedAt rows rtu start finish).1 =
      updateRow rows { rtu with updatedAt := some finish } :=
  KeyedStore.replace_replace rfl

/-- The row that `manage_db_error` pokes or saves. -/
theorem manageDbError_cases
    {id : String} (hnew : id ∉ rows.map (fun r => r.id)) (data : String)
    (connector : ConnectorType) (contributorId : String) (error : RtuError)
    (start finish : Datetime) :
    ∃ row : FeedRow,
      (manageDbError rows id data connector contributorId error start
        finish).2 = row ∧
      row.content = { status := .ko, error := some error, rawData := data } ∧
      row.updatedAt = some finish ∧
      ((∃ last, getLastRtu rows connector contributorId = some last ∧
          row = { last with updatedAt := some finish } ∧
          (manageDbError rows id data connector contributorId error start
            finish).1 = updateRow rows row) ∨
        (∀ last, getLastRtu rows connector contributorId = some last →
            last.content ≠ row.content) ∧
          row.id = id ∧ row.connector = connector ∧
          row.contributorId = contributorId ∧ row.createdAt = start ∧
          (manageDbError rows id data connector contributorId error start
            finish).1 = rows ++ [row]) := by
  have hsaved := saveRtDataWithError_eq hnew data connector contributorId error
    start finish
  unfold manageDbError
  cases hlast : getLastRtu rows connector contributorId with
  | none =>
      exact ⟨_, rfl, rfl, rfl, Or.inr ⟨nofun, rfl, rfl, rfl, rfl, hsaved⟩⟩
  | some last =>
      by_cases hsame : last.status = .ko ∧ last.error = some error ∧
          last.rawData = data
      · simp only [if_pos hsame]
        refine ⟨_, rfl, ?_, rfl, Or.inl ⟨last, rfl, rfl, ?_⟩⟩
        · obtain ⟨hstatus, herror, hdata⟩ := hsame
          simp only [FeedRow.content, pokeUpdatedAt, hstatus, herror, hdata]
        · exact pokeUpdatedAt_eq rows last start finish
      · simp only [if_neg hsame]
        refine ⟨_, rfl, rfl, rfl, Or.inr ⟨?_, rfl, rfl, rfl, rfl, hsaved⟩⟩
        intro last' heq hcontent
        cases heq
        rw [FeedRow.content, FeedRow.content, FeedContent.mk.injEq] at hcontent
        exact hsame hcontent

/--
Setting a feed that cannot be decoded to KO once more tells the same error, so
that the next one is found to be the same.
-/
theorem buildUndecodable_eq
    {id : String} (hnew : id ∉ rows.map (fun r => r.id)) (data : String)
    (connector : ConnectorType) (contributorId : String)
    (start finish : Datetime) :
    buildUndecodable rows id data connector contributorId start finish =
      (manageDbError rows id data connector contributorId
        (.text "invalid protobuf") start finish).1 := by
  obtain ⟨row, hrow, hcontent, hupdated, hcases⟩ := manageDbError_cases hnew data
    connector contributorId (.text "invalid protobuf") start finish
  have hagain : row.setKo (errorOf (.invalidArguments "invalid protobuf"))
      finish = row := by
    rw [FeedRow.content, FeedContent.mk.injEq] at hcontent
    rw [FeedRow.setKo, setRtuStatusKo, errorOf, ← hcontent.1, ← hcontent.2.1,
      ← hupdated]
  rw [buildUndecodable, hrow, hagain]
  rcases hcases with ⟨last, -, -, hpoked⟩ | ⟨-, hid, -, -, -, hsaved⟩
  · rw [hpoked]
    exact KeyedStore.replace_replace rfl
  · rw [hsaved]
    exact updateRow_concat rfl (hid ▸ hnew)

end Rows

/-- The rows have identifiers of their own and the connectors of their feeds. -/
structure WellKept (connectorOf : String → ConnectorType)
    (rows : List FeedRow) : Prop where
  nodup : (rows.map (fun r => r.id)).Nodup
  connector : ∀ row ∈ rows, row.connector = connectorOf row.contributorId

section Record

variable {connectorOf : String → ConnectorType} {rows : List FeedRow}
variable {e : PollEvent}

/-- The three ways in which a poll changes the table. -/
inductive Recorded (connectorOf : String → ConnectorType)
    (rows : List FeedRow) (e : PollEvent) : List FeedRow → Prop
  | saved
      (row : FeedRow)
      (hid : row.id = e.newId)
      (hconnector : row.connector = connectorOf e.contributorId)
      (hcontributor : row.contributorId = e.contributorId)
      (hentry : row.entry = e.timed.entry row.content)
      (hreport : e.report = .fresh row.content ∨
        e.report = .repeated row.content ∧
          ∀ last, getLastRtu rows (connectorOf e.contributorId)
            e.contributorId = some last → last.content ≠ row.content) :
      Recorded connectorOf rows e (rows ++ [row])
  | poked
      (last : FeedRow)
      (hlast : getLastRtu rows (connectorOf e.contributorId)
        e.contributorId = some last)
      (hwritten : e.written = e.finish)
      (hreport : e.report = .unchanged ∨ e.report = .repeated last.content) :
      Recorded connectorOf rows e
        (updateRow rows { last with updatedAt := some e.finish })
  | nothing
      (hlast : getLastRtu rows (connectorOf e.contributorId)
        e.contributorId = none)
      (hreport : e.report = .unchanged) :
      Recorded connectorOf rows e rows

/-- An error leaves its row, or makes the last one longer. -/
theorem recorded_of_error
    (hnew : e.newId ∉ rows.map (fun r => r.id)) {data : String}
    {error : RtuError} (hwritten : e.written = e.finish)
    (hreport : e.report =
      .repeated { status := .ko, error := some error, rawData := data }) :
    Recorded connectorOf rows e
      (manageDbError rows e.newId data (connectorOf e.contributorId)
        e.contributorId error e.start e.finish).1 := by
  obtain ⟨row, -, hcontent, hupdated, hcases⟩ := manageDbError_cases hnew data
    (connectorOf e.contributorId) e.contributorId error e.start e.finish
  rw [← hcontent] at hreport
  rcases hcases with ⟨last, hlast, rfl, hpoked⟩ |
    ⟨hother, hid, hconnector, hcontributor, hcreated, hsaved⟩
  · rw [hpoked]
    exact .poked last hlast hwritten (Or.inr hreport)
  · rw [hsaved]
    refine .saved row hid hconnector hcontributor ?_ (Or.inr ⟨hreport, hother⟩)
    rw [FeedRow.entry, hcreated, hupdated, Timed.entry, PollEvent.timed,
      hwritten, Option.getD_some]

/-- What a poll leaves in the table. -/
theorem record_recorded
    (hnew : e.newId ∉ rows.map (fun r => r.id)) :
    Recorded connectorOf rows e (record connectorOf rows e) := by
  obtain ⟨contributorId, newId, start, finish, happening⟩ := e
  cases happening with
  | processed rawData failure =>
      cases failure with
      | none =>
          exact .saved _ rfl rfl rfl rfl (Or.inl rfl)
      | some error =>
          have hsaved := saveRtDataWithError_eq hnew rawData
            (connectorOf contributorId) contributorId error start finish
          refine (congrArg (Recorded connectorOf rows _) hsaved).mpr ?_
          exact .saved _ rfl rfl rfl rfl (Or.inl rfl)
  | httpError =>
      exact recorded_of_error hnew rfl rfl
  | undecodable rawData =>
      simp only [record]
      rw [buildUndecodable_eq hnew]
      exact recorded_of_error hnew rfl rfl
  | noNew =>
      simp only [record, manageDbNoNew]
      split
      · rename_i hlast
        exact .nothing hlast rfl
      · rename_i last hlast
        rw [pokeUpdatedAt_eq]
        exact .poked last hlast rfl (Or.inl rfl)

theorem lastCreated_concat
    (init : List FeedRow) (row : FeedRow) :
    lastCreated (init ++ [row]) =
      match lastCreated init with
      | none => some row
      | some r => if r.createdAt < row.createdAt then some row else some r := by
  rw [lastCreated, List.foldl_append]
  rfl

theorem lastCreated_mem
    {last : FeedRow} (h : lastCreated rows = some last) :
    last ∈ rows := by
  induction rows using List.reverseRecOn generalizing last with
  | nil =>
      cases h
  | append_singleton init row ih =>
      rw [lastCreated_concat] at h
      rw [List.mem_append, List.mem_singleton]
      split at h
      · exact Or.inr (Option.some.inj h).symm
      · rename_i r hr
        split at h
        · exact Or.inr (Option.some.inj h).symm
        · exact Or.inl (ih (hr.trans h))

/-- The last row is the one that was created last when each is after the others. -/
theorem lastCreated_eq_getLast?
    (h : rows.Pairwise (fun a b => a.createdAt < b.createdAt)) :
    lastCreated rows = rows.getLast? := by
  induction rows using List.reverseRecOn with
  | nil =>
      rfl
  | append_singleton init row ih =>
      obtain ⟨hinit, -, hlast⟩ := List.pairwise_append.1 h
      rw [lastCreated_concat, ih hinit, List.getLast?_concat]
      cases hr : init.getLast? with
      | none =>
          rfl
      | some r =>
          exact if_pos (hlast r (List.mem_of_getLast? hr) row
            (List.mem_singleton_self row))

/-- The rows of a contributor have been created one after the other. -/
theorem pairwise_createdAt
    {c : String} {bound : Datetime}
    (hordered : Ordered bound (entriesOf c rows)) :
    (rows.filter (fun r => r.contributorId == c)).Pairwise
      (fun a b => a.createdAt < b.createdAt) := by
  refine (List.pairwise_map.1 hordered.apart).imp_of_mem ?_
  intro a b ha _ hlt
  exact (hordered.spans a.entry (List.mem_map_of_mem ha)).1.trans_lt hlt

/-- The last row of a contributor is the one that is read. -/
theorem getLastRtu_eq
    (h : WellKept connectorOf rows) {c : String} {bound : Datetime}
    (hordered : Ordered bound (entriesOf c rows)) :
    getLastRtu rows (connectorOf c) c =
      (rows.filter (fun r => r.contributorId == c)).getLast? := by
  have hfilter : rows.filter (fun r =>
        r.connector == connectorOf c && r.contributorId == c) =
      rows.filter (fun r => r.contributorId == c) := by
    refine List.filter_congr (fun row hrow => ?_)
    rw [h.connector row hrow, Bool.and_eq_right_iff_imp]
    intro hc
    rw [beq_iff_eq.1 hc]
    exact BEq.rfl
  rw [getLastRtu, hfilter]
  exact lastCreated_eq_getLast? (pairwise_createdAt hordered)

/-- The rows of a contributor once one is appended. -/
theorem entriesOf_concat
    (c : String) (rows : List FeedRow) (row : FeedRow) :
    entriesOf c (rows ++ [row]) =
      entriesOf c rows ++ if row.contributorId = c then [row.entry] else [] := by
  rw [entriesOf, List.filter_append, List.map_append, entriesOf]
  by_cases hc : row.contributorId = c <;> simp [hc]

/-- The rows of the contributors once the last one of a contributor is poked. -/
theorem entriesOf_updateRow
    (h : WellKept connectorOf rows) {last row : FeedRow}
    (hlast : (rows.filter (fun r =>
      r.contributorId == last.contributorId)).getLast? = some last)
    (hid : row.id = last.id) (hcontributor : row.contributorId =
      last.contributorId) (c : String) :
    entriesOf c (updateRow rows row) =
      if last.contributorId = c then (entriesOf c rows).dropLast ++ [row.entry]
      else entriesOf c rows := by
  have hmem : last ∈ rows := List.mem_of_mem_filter (List.mem_of_getLast? hlast)
  have hsame : ∀ r ∈ rows, r.id = row.id → r = last := fun r hr heq =>
    KeyedStore.eq_of_key_eq h.nodup hr hmem (heq.trans hid)
  split
  · rename_i hc
    subst hc
    obtain ⟨init, hinit⟩ := List.getLast?_eq_some_iff.1 hlast
    have hnodup : ((init ++ [last]).map (fun r => r.id)).Nodup := by
      rw [← hinit]
      exact h.nodup.sublist (List.filter_sublist.map _)
    have hnew : last.id ∉ init.map (fun r => r.id) := by
      rw [List.map_append, List.nodup_append] at hnodup
      intro hin
      exact hnodup.2.2 _ hin _ (List.mem_singleton_self _) rfl
    have hfiltered : (updateRow rows row).filter
          (fun r => r.contributorId == last.contributorId) =
        updateRow (rows.filter
          (fun r => r.contributorId == last.contributorId)) row := by
      refine KeyedStore.filter_replace (fun r hr heq => ?_)
      rw [hsame r hr heq, hcontributor]
    rw [entriesOf, hfiltered, hinit, updateRow_concat hid hnew, entriesOf, hinit]
    simp
  · rename_i hc
    rw [entriesOf, updateRow, KeyedStore.filter_replace_of_not, entriesOf]
    · intro r hr heq
      rw [hsame r hr heq]
      exact beq_eq_false_iff_ne.2 hc
    · rw [hcontributor]
      exact beq_eq_false_iff_ne.2 hc

/-- A poll keeps the identifiers and the connectors of the rows. -/
theorem Recorded.wellKept
    {rows' : List FeedRow} (hrecorded : Recorded connectorOf rows e rows')
    (h : WellKept connectorOf rows)
    (hnew : e.newId ∉ rows.map (fun r => r.id)) :
    WellKept connectorOf rows' ∧
      ∀ id ∈ rows'.map (fun r => r.id),
        id ∈ rows.map (fun r => r.id) ∨ id = e.newId := by
  cases hrecorded with
  | saved row hid hconnector hcontributor hentry hreport =>
      have hids : (rows ++ [row]).map (fun r => r.id) =
          rows.map (fun r => r.id) ++ [e.newId] := by
        rw [List.map_append, List.map_singleton, hid]
      refine ⟨⟨?_, ?_⟩, ?_⟩
      · rw [hids]
        exact List.nodup_append.2 ⟨h.nodup, List.nodup_singleton _,
          fun id hin id' hin' heq =>
            hnew (List.mem_singleton.1 hin' ▸ heq ▸ hin)⟩
      · rw [List.forall_mem_append, List.forall_mem_singleton, hcontributor]
        exact ⟨h.connector, hconnector⟩
      · rw [hids]
        intro id hin
        exact (List.mem_append.1 hin).imp_right List.mem_singleton.1
  | poked last hlast hwritten hreport =>
      have hmem : last ∈ rows := List.mem_of_mem_filter (lastCreated_mem hlast)
      have hids : (updateRow rows { last with updatedAt := some e.finish }).map
          (fun r => r.id) = rows.map (fun r => r.id) :=
        KeyedStore.replace_map h.nodup hmem rfl rfl
      refine ⟨⟨hids ▸ h.nodup, fun row hrow => ?_⟩, fun id hin => Or.inl ?_⟩
      · rcases KeyedStore.of_mem_replace hrow with rfl | hold
        · exact h.connector last hmem
        · exact h.connector row hold
      · exact hids ▸ hin
  | nothing hlast hreport =>
      exact ⟨h, fun id hin => Or.inl hin⟩

/--
A poll writes the journal of its contributor, and leaves those of the others as
they are.
-/
theorem Recorded.entriesOf
    {rows' : List FeedRow} (hrecorded : Recorded connectorOf rows e rows')
    (h : WellKept connectorOf rows) {bound : Datetime}
    (hordered : Ordered bound (entriesOf e.contributorId rows)) (c : String) :
    entriesOf c rows' =
      if e.contributorId = c then Journal.write (entriesOf c rows) e.timed
      else entriesOf c rows := by
  have hread : (Kirin.entriesOf e.contributorId rows).getLast? =
      (getLastRtu rows (connectorOf e.contributorId) e.contributorId).map
        FeedRow.entry := by
    rw [getLastRtu_eq h hordered, Kirin.entriesOf, List.getLast?_map]
  cases hrecorded with
  | saved row hid hconnector hcontributor hentry hreport =>
      rw [entriesOf_concat, hcontributor]
      split
      · rename_i hc
        rw [← hc, hentry, Journal.write]
        rcases hreport with hfresh | ⟨hrepeated, hother⟩
        · rw [show e.timed.report = e.report from rfl, hfresh]
        · rw [show e.timed.report = e.report from rfl, hrepeated]
          refine (if_neg ?_).symm
          rw [hread, Option.map_map, Option.map_eq_some_iff]
          rintro ⟨last, hlast, hsame⟩
          exact hother last hlast hsame
      · rw [List.append_nil]
  | poked last hlast hwritten hreport =>
      have hcontributor : last.contributorId = e.contributorId := by
        have hfilter := (List.mem_filter.1 (lastCreated_mem hlast)).2
        rw [Bool.and_eq_true, beq_iff_eq, beq_iff_eq] at hfilter
        exact hfilter.2
      have hgetLast := getLastRtu_eq h hordered
      rw [hlast, ← hcontributor] at hgetLast
      have hid : ({ last with updatedAt := some e.finish } : FeedRow).id =
          last.id := rfl
      rw [entriesOf_updateRow h hgetLast.symm hid rfl, hcontributor]
      rw [hlast, Option.map_some] at hread
      split
      · rename_i hc
        have hextend : Journal.extend (Kirin.entriesOf c rows) e.timed.finish =
            (Kirin.entriesOf c rows).dropLast ++
              [{ last with updatedAt := some e.finish }.entry] := by
          rw [Journal.extend, ← hc, hread]
          simp only [PollEvent.timed, hwritten, FeedRow.entry, FeedRow.content,
            Option.getD_some]
        rw [Journal.write, hextend, show e.timed.report = e.report from rfl]
        rcases hreport with hunchanged | hrepeated
        · rw [hunchanged]
        · rw [hrepeated]
          refine (if_pos ?_).symm
          rw [← hc, hread]
          rfl
      · rfl
  | nothing hlast hreport =>
      rw [hlast, Option.map_none, List.getLast?_eq_none_iff] at hread
      split
      · rename_i hc
        rw [Journal.write, show e.timed.report = e.report from rfl, hreport,
          ← hc, hread]
        rfl
      · rfl

end Record

/--
The rows are those of polls that are over, the polls of each contributor come one
after the other from there, and the identifiers of their rows are new.
-/
structure Scheduled (connectorOf : String → ConnectorType)
    (rows : List FeedRow) (events : List PollEvent) : Prop where
  kept : WellKept connectorOf rows
  clock : ∀ c, ∃ bound, Ordered bound (entriesOf c rows) ∧
    Clocked bound (reportsOf c events)
  ids : (rows.map (fun r => r.id) ++ events.map PollEvent.newId).Nodup

section Run

variable {connectorOf : String → ConnectorType} {rows : List FeedRow}
variable {e : PollEvent} {events before after : List PollEvent}

theorem reportsOf_cons
    (c : String) (e : PollEvent) (events : List PollEvent) :
    reportsOf c (e :: events) =
      if e.contributorId = c then e.timed :: reportsOf c events
      else reportsOf c events := by
  rw [reportsOf, eventsOf, List.filter_cons]
  by_cases hc : e.contributorId = c <;> simp [hc, reportsOf, eventsOf]

theorem reportsOf_append
    (c : String) (before after : List PollEvent) :
    reportsOf c (before ++ after) = reportsOf c before ++ reportsOf c after := by
  rw [reportsOf, eventsOf, List.filter_append, List.map_append]
  rfl

/-- The first polls of a schedule are scheduled. -/
theorem Scheduled.of_append
    (h : Scheduled connectorOf rows (before ++ after)) :
    Scheduled connectorOf rows before where
  kept := h.kept
  clock := by
    intro c
    obtain ⟨bound, hordered, hclock⟩ := h.clock c
    rw [reportsOf_append] at hclock
    exact ⟨bound, hordered, hclock.of_append⟩
  ids := by
    have hids := h.ids
    rw [List.map_append, ← List.append_assoc] at hids
    exact (List.nodup_append.1 hids).1

/-- Once the first poll is over, the others are scheduled. -/
theorem Scheduled.record
    (h : Scheduled connectorOf rows (e :: events)) :
    Scheduled connectorOf (record connectorOf rows e) events ∧
      ∀ c, entriesOf c (record connectorOf rows e) =
        if e.contributorId = c then Journal.write (entriesOf c rows) e.timed
        else entriesOf c rows := by
  obtain ⟨hrows, hevents, hapart⟩ := List.nodup_append.1 h.ids
  rw [List.map_cons, List.nodup_cons] at hevents
  have hnew : e.newId ∉ rows.map (fun r => r.id) := fun hin =>
    hapart _ hin _ List.mem_cons_self rfl
  have hrecorded : Recorded connectorOf rows e _ := record_recorded hnew
  obtain ⟨hkept, hids⟩ := hrecorded.wellKept h.kept hnew
  obtain ⟨bound, hordered, -⟩ := h.clock e.contributorId
  have hentries := hrecorded.entriesOf h.kept hordered
  refine ⟨⟨hkept, fun c => ?_, ?_⟩, hentries⟩
  · obtain ⟨bound', hordered', hclock⟩ := h.clock c
    rw [reportsOf_cons] at hclock
    rw [hentries c]
    split at hclock
    · rename_i hc
      obtain ⟨hstart, hfinish, hrest⟩ := hclock
      rw [if_pos hc]
      exact ⟨_, hordered'.write hstart hfinish, hrest⟩
    · rename_i hc
      rw [if_neg hc]
      exact ⟨bound', hordered', hclock⟩
  · refine List.nodup_append.2 ⟨hkept.nodup, hevents.2, fun id hin id' hin' heq => ?_⟩
    rcases hids id hin with hold | hown
    · exact hapart id hold id' (List.mem_cons_of_mem _ hin') heq
    · exact hevents.1 (hown ▸ heq ▸ hin')

/--
Along every run, the rows of a contributor are the journal of its own polls,
whatever the others do.
-/
theorem entriesOf_run
    (h : Scheduled connectorOf rows events) (c : String) :
    entriesOf c (events.foldl (record connectorOf) rows) =
      (reportsOf c events).foldl Journal.write (entriesOf c rows) := by
  induction events generalizing rows with
  | nil =>
      rfl
  | cons e rest ih =>
      obtain ⟨hrest, hentries⟩ := h.record
      rw [List.foldl_cons, ih hrest, hentries c, reportsOf_cons]
      split <;> rfl

/-- A row of a contributor, among the entries of its journal. -/
theorem mem_entriesOf
    {c : String} {entry : Entry Datetime FeedContent} :
    entry ∈ entriesOf c rows ↔
      ∃ row ∈ rows, row.contributorId = c ∧ row.entry = entry := by
  simp only [entriesOf, List.mem_map, List.mem_filter, beq_iff_eq, and_assoc]

/-- Only a poll without anything new reports that nothing has changed. -/
theorem PollEvent.noNew_of_report
    (e : PollEvent) (h : e.report = .unchanged) :
    e.happening = .noNew := by
  unfold PollEvent.report at h
  split at h
  · cases h
  · cases h
  · cases h
  · cases h
  · assumption

/-- The rows of a contributor have intervals that follow each other. -/
theorem ordered_of_run
    (h : Scheduled connectorOf rows events) (c : String) :
    ∃ bound, Ordered bound
      (entriesOf c (events.foldl (record connectorOf) rows)) := by
  obtain ⟨bound, hordered, hclock⟩ := h.clock c
  rw [entriesOf_run h c]
  obtain ⟨bound', hfinal⟩ := hordered.run hclock
  exact ⟨bound', hfinal⟩

/-- The row tells of a poll of its contributor. -/
def FeedRow.Tells (row : FeedRow) (e : PollEvent) : Prop :=
  row.contributorId = e.contributorId ∧ Journal.Tells row.entry e.timed

/--
Along every run of the polls of any contributors, the rows of a contributor:

* are the journal of its own polls, with intervals that follow each other;
* tell of each of its polls: a row has the instants of the poll between its
  creation and its last instant, with the error and the data that were seen, and
  no other row of the contributor covers these instants;
* are not repeated: two rows in a row say the same only when the second one is
  that of a feed that has been processed.
-/
theorem feed_journal
    (h : Scheduled connectorOf rows events) (c : String) :
    entriesOf c (events.foldl (record connectorOf) rows) =
        (reportsOf c events).foldl Journal.write (entriesOf c rows) ∧
      (∃ bound, Ordered bound
        (entriesOf c (events.foldl (record connectorOf) rows))) ∧
      (∀ before e after, events = before ++ e :: after →
        e.contributorId = c →
        (e.happening = .noNew →
          ∃ row ∈ before.foldl (record connectorOf) rows,
            row.contributorId = c) →
        ∃ row ∈ events.foldl (record connectorOf) rows, row.Tells e ∧
          ∀ row' ∈ events.foldl (record connectorOf) rows,
            row'.contributorId = c → row'.entry.first ≤ e.start →
            e.start ≤ row'.entry.last → row'.entry = row.entry) ∧
      (entriesOf c (events.foldl (record connectorOf) rows)).IsChain
        (fun a b => a.content = b.content →
          b.first ∈ (entriesOf c rows).map Entry.first ∨
            ∃ e ∈ eventsOf c events, e.report = .fresh b.content ∧
              e.start = b.first) := by
  obtain ⟨bound, hordered, hclock⟩ := h.clock c
  have hrun := entriesOf_run h c
  obtain ⟨bound', hfinal⟩ := ordered_of_run h c
  refine ⟨hrun, ⟨bound', hfinal⟩, ?_, ?_⟩
  · rintro before e after rfl rfl hsaid
    have hreports : reportsOf e.contributorId (before ++ e :: after) =
        reportsOf e.contributorId before ++
          e.timed :: reportsOf e.contributorId after := by
      rw [reportsOf_append, reportsOf_cons, if_pos rfl]
    have hunchanged : e.timed.report = .unchanged →
        (reportsOf e.contributorId before).foldl Journal.write
          (entriesOf e.contributorId rows) ≠ [] := by
      intro hreport
      obtain ⟨row, hrow, hcontributor⟩ := hsaid (e.noNew_of_report hreport)
      rw [← entriesOf_run h.of_append]
      exact List.ne_nil_of_mem
        (mem_entriesOf.2 ⟨row, hrow, hcontributor, rfl⟩)
    obtain ⟨entry, hentry, htells⟩ :=
      Journal.told_of_run hordered hclock hreports hunchanged
    rw [← hrun] at hentry
    obtain ⟨row, hrow, hcontributor, rfl⟩ := mem_entriesOf.1 hentry
    refine ⟨row, hrow, ⟨hcontributor, htells⟩, ?_⟩
    intro row' hrow' hcontributor' hfirst hlast
    have hwritten : e.timed.start ≤ e.timed.finish := by
      refine hclock.start_le ?_
      rw [hreports]
      exact List.mem_append_right _ List.mem_cons_self
    exact hfinal.unique (mem_entriesOf.2 ⟨row', hrow', hcontributor', rfl⟩)
      hentry ⟨hfirst, hlast⟩ ⟨htells.first, hwritten.trans htells.last⟩
  · rw [hrun]
    refine (Journal.chain_of_run _ _).imp (fun a b hsame heq => ?_)
    refine (hsame heq).imp_right ?_
    rintro ⟨r, hr, hfresh, hstart⟩
    obtain ⟨e, he, rfl⟩ := List.mem_map.1 hr
    exact ⟨e, he, hfresh, hstart⟩

end Run

namespace Sample

/-- A poll of a contributor that lasts one second. -/
def pollEvent (newId : String) (start : Datetime) (happening : Happening) :
    PollEvent where
  contributorId := "realtime.sherbrooke"
  newId := newId
  start := start
  finish := start + Core.second
  happening := happening

/-- A feed is processed, and the producer cannot be reached twice after it. -/
def twoErrors : List PollEvent :=
  [pollEvent "1" 0 (.processed "feed" none),
    pollEvent "2" (10 * Core.second) .httpError,
    pollEvent "3" (20 * Core.second) .httpError]

theorem scheduled_twoErrors :
    Scheduled (fun _ => .gtfsRt) [] twoErrors where
  kept := ⟨List.nodup_nil, nofun⟩
  clock := by
    intro c
    refine ⟨-1, ⟨List.Pairwise.nil, nofun⟩, ?_⟩
    by_cases hc : c = "realtime.sherbrooke"
    · subst hc
      simp only [twoErrors, reportsOf_cons, pollEvent, if_true]
      exact ⟨by decide, by decide, by decide, by decide, by decide, by decide,
        trivial⟩
    · simp only [twoErrors, reportsOf_cons, pollEvent, Ne.symm hc, if_false]
      trivial
  ids := by decide

end Sample

/-- The two errors are the same row, with the instants of both. -/
theorem feed_journal_twoErrors :
    (Sample.twoErrors.foldl (record fun _ => .gtfsRt) []).map FeedRow.entry =
        [{ first := 0, last := 0
           content := { status := .ok, error := none, rawData := "feed" } },
          { first := 10 * Core.second, last := 21 * Core.second
            content :=
              { status := .ko, error := some (.text "Http Error")
                rawData := "" } }] ∧
      ∃ row ∈ Sample.twoErrors.foldl (record fun _ => .gtfsRt) [],
        row.Tells (Sample.pollEvent "3" (20 * Core.second) .httpError) := by
  refine ⟨by decide, ?_⟩
  obtain ⟨row, hrow, htells, -⟩ :=
    (feed_journal Sample.scheduled_twoErrors "realtime.sherbrooke").2.2.1
      [Sample.pollEvent "1" 0 (.processed "feed" none),
        Sample.pollEvent "2" (10 * Core.second) .httpError]
      (Sample.pollEvent "3" (20 * Core.second) .httpError) [] rfl rfl
      (fun h => absurd h (by decide))
  exact ⟨row, hrow, htells⟩

end Kirin
