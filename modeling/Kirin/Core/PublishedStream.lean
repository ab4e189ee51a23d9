import Kirin.Core.Rejection
import Kirin.Library.Checked
import Mathlib.Logic.Relation

/-!
# Kirin: the published stream and the stored rows

Navitia applies every feed it receives by replacing the entities of the same
identifier; a full reload sends the entity of every stored row.  The two agree
as long as every row that a call modifies is linked to its feed.

* `Coherent`: navitia holds, for every stored row, the entity a reload would
  send.
* `SettledCall`: in a call, every stored trip that is not linked is settled.
* `handleLoop_tracked`: the loop of such a call links the rows it modifies.
* `publishedStream_coherent`: coherence is kept along every run of such calls.
-/

namespace Kirin
namespace Core

/-- The database together with the entities navitia holds. -/
structure Stream where
  db : Db
  consumer : String → Option Entity

/-- What navitia holds once it has received a publication, if any. -/
def consume
    (consumer : String → Option Entity) (published : Option Publication) :
    String → Option Entity :=
  match published with
  | none => consumer
  | some p => KeyedStore.apply consumer (p.entities.map (fun e => (e.id, e)))

/-- Navitia holds the entity of every stored row. -/
def Coherent (s : Stream) : Prop :=
  ∀ tu ∈ s.db.tripUpdates,
    (s.consumer (rowId tu)).map Except.ok = some (fillEntity tu)

/-- A call that returns, under a condition on the rows and on the feed. -/
inductive Call (P : Builder → Db → List NewTripUpdate → Prop) :
    Stream → Stream → Prop
  | returned
      {s : Stream} {b : Builder} {brokerUp : Bool} {rtu r : RealTimeUpdate}
      {ts : List NewTripUpdate}
      (hcond : P b s.db ts)
      (hok : (handle b brokerUp s.db rtu ts).outcome = .ok r) :
      Call P s
        { db := (handle b brokerUp s.db rtu ts).db
          consumer :=
            consume s.consumer (handle b brokerUp s.db rtu ts).published }

/-- In the rest of a loop, every stored trip that is not linked is settled. -/
def SettledLoop (b : Builder) : Session → List NewTripUpdate → Prop
  | _, [] => True
  | s, t :: rest =>
      (∀ stored, findByDatedVj s.rows t.vj = some stored →
        (processTripUpdate b (some stored) t).linked = .ok false →
        Settled b stored t) ∧
      SettledLoop b (handleTripUpdate b s t).1 rest

/-- In a call, every stored trip that is not linked is settled. -/
def SettledCall (b : Builder) (db : Db) (ts : List NewTripUpdate) : Prop :=
  SettledLoop b db.session ts

/-- Every row of a session is one of the given rows, or is linked. -/
structure Tracked (rows : List TripUpdate) (s : Session) : Prop where
  rows : ∀ row ∈ s.rows, row ∈ rows ∨ rowId row ∈ s.links
  created : ∀ row ∈ s.created, rowId row ∈ s.links
  nodup : (s.rows.map rowId).Nodup

theorem tracked_session
    (db : Db) :
    Tracked db.tripUpdates db.session where
  rows := fun _ hrow => Or.inl hrow
  created := by simp [Db.session]
  nodup := db.uniqueVj

section Step

variable {b : Builder} {rows : List TripUpdate} {s : Session}
variable {t : NewTripUpdate}

/-- A trip that is not linked leaves the session as it is when it is settled. -/
theorem handleTripUpdate_settled
    (hnodup : (s.rows.map rowId).Nodup)
    (hlinked :
      (processTripUpdate b (findByDatedVj s.rows t.vj) t).linked = .ok false)
    (hsettled : ∀ stored, findByDatedVj s.rows t.vj = some stored →
      Settled b stored t) :
    (handleTripUpdate b s t).1 = s := by
  cases hfind : findByDatedVj s.rows t.vj with
  | none =>
      rw [hfind] at hlinked
      simp [handleTripUpdate, hfind, hlinked]
  | some stored =>
      have hkept := processTripUpdate_settled (hsettled stored hfind)
      have hrows : replaceRow s.rows stored = s.rows :=
        (KeyedStore.replace_eq_self_iff hnodup
          (findByDatedVj_mem hfind) rfl).2 rfl
      simp [handleTripUpdate, hfind, hkept, hrows]

/-- A trip that is linked has its row among the links of the session. -/
theorem handleTripUpdate_linked
    (h : Tracked rows s)
    (hlinked :
      (processTripUpdate b (findByDatedVj s.rows t.vj) t).linked = .ok true) :
    Tracked rows (handleTripUpdate b s t).1 := by
  have hlinks := handleTripUpdate_links b s t
  rw [if_pos hlinked] at hlinks
  refine ⟨?_, ?_, ?_⟩
  · intro row hrow
    rw [hlinks]
    cases hfind : findByDatedVj s.rows t.vj with
    | none =>
        rw [handleTripUpdate_rows_of_none b hfind] at hrow
        exact (h.rows row hrow).imp_right
          (fun hmem => List.mem_append_left _ hmem)
    | some stored =>
        rw [handleTripUpdate_rows_of_some b hfind] at hrow
        by_cases hid :
            rowId row =
              rowId (processTripUpdate b (some stored) t).tripUpdate
        · right
          simp [hid]
        · rw [replaceRow_eq, KeyedStore.mem_replace_of_ne hid] at hrow
          exact (h.rows row hrow).imp_right
            (fun hmem => List.mem_append_left _ hmem)
  · intro row hrow
    rw [handleTripUpdate_created] at hrow
    rw [hlinks]
    split at hrow
    · rename_i hnew
      rcases List.mem_append.1 hrow with hold | hlast
      · exact List.mem_append_left _ (h.created row hold)
      · rw [List.mem_singleton.1 hlast, hnew.1]
        simp
    · exact List.mem_append_left _ (h.created row hrow)
  · rw [map_of_vj_eq VehicleJourney.id (handleTripUpdate_rows_vj h.nodup)]
    exact h.nodup

/-- One trip update links the row it modifies, unless it is settled. -/
theorem handleTripUpdate_tracked
    (h : Tracked rows s)
    (hok : (handleTripUpdate b s t).2 = .ok ())
    (hsettled : ∀ stored, findByDatedVj s.rows t.vj = some stored →
      (processTripUpdate b (some stored) t).linked = .ok false →
      Settled b stored t) :
    Tracked rows (handleTripUpdate b s t).1 := by
  rw [handleTripUpdate_outcome] at hok
  cases hlinked :
      (processTripUpdate b (findByDatedVj s.rows t.vj) t).linked with
  | error e =>
      rw [hlinked] at hok
      cases hok
  | ok accepted =>
      cases accepted with
      | true =>
          exact handleTripUpdate_linked h hlinked
      | false =>
          rw [handleTripUpdate_settled h.nodup hlinked]
          · exact h
          · intro stored hfind
            rw [hfind] at hlinked
            exact hsettled stored hfind hlinked

/-- The loop of a settled call links the rows it modifies. -/
theorem handleLoop_tracked
    {s' : Session} {ts : List NewTripUpdate}
    (h : Tracked rows s) (hsettled : SettledLoop b s ts)
    (hloop : handleLoop b s ts = (s', .ok ())) :
    Tracked rows s' := by
  induction ts generalizing s with
  | nil =>
      cases hloop
      exact h
  | cons t rest ih =>
      rcases hsettled with ⟨hhead, htail⟩
      have hstep := handleTripUpdate_tracked (b := b) (t := t) h
      simp only [handleLoop] at hloop
      split at hloop
      · rename_i s1 hone
        rw [hone] at hstep htail
        exact ih (hstep rfl hhead) htail hloop
      · cases hloop

end Step

/-- The entities of a feed are those of the given rows, in order. -/
theorem convertToGtfsrt_ok
    {rows : List TripUpdate} {entities : List Entity}
    (h : convertToGtfsrt rows = .ok entities) :
    List.Forall₂ (fun tu e => fillEntity tu = .ok e) rows entities :=
  Checked.mapM_eq_ok.1 h

section Published

variable {rows : List TripUpdate} {entities : List Entity}
variable (h : List.Forall₂ (fun tu e => fillEntity tu = .ok e) rows entities)
include h

/-- The published entities have the identifiers of their rows. -/
theorem entities_ids :
    entities.map Entity.id = rows.map rowId := by
  induction h with
  | nil =>
      rfl
  | cons he _ ih =>
      rw [List.map_cons, List.map_cons, ih, fillEntity_id he]

/-- After a publication, navitia holds the entity of every published row. -/
theorem consume_of_row
    (consumer : String → Option Entity) (contributorId : String)
    (hnodup : (rows.map rowId).Nodup) {tu : TripUpdate} (htu : tu ∈ rows) :
    ∃ e, fillEntity tu = .ok e ∧
      consume consumer
          (some { contributorId := contributorId, entities := entities })
          (rowId tu) = some e := by
  obtain ⟨e, he, hfill⟩ := RelatedLists.exists_of_mem_left h htu
  refine ⟨e, hfill, KeyedStore.apply_of_mem ?_ ?_⟩
  · rw [List.map_map]
    change (entities.map Entity.id).Nodup
    rw [entities_ids h]
    exact hnodup
  · refine List.mem_map.2 ⟨e, he, ?_⟩
    rw [fillEntity_id hfill]

/-- A publication leaves the other entities as they are. -/
theorem consume_of_not_row
    (consumer : String → Option Entity) (contributorId : String)
    {id : String} (hid : id ∉ rows.map rowId) :
    consume consumer
        (some { contributorId := contributorId, entities := entities }) id =
      consumer id := by
  apply KeyedStore.apply_of_not_mem
  rw [List.map_map]
  change id ∉ entities.map Entity.id
  rw [entities_ids h]
  exact hid

end Published

section Step

variable {s s' : Stream}

/-- A linked row is published by its call. -/
theorem mem_tripUpdatesOf
    {db db1 : Db} {session : Session} {rtu : RealTimeUpdate}
    (hcommit : dbCommit db session rtu = .ok db1)
    {tu : TripUpdate} (htu : tu ∈ db1.tripUpdates)
    (hlink : rowId tu ∈ session.links) :
    tu ∈ db1.tripUpdatesOf rtu := by
  have hassoc : (rtu.id, tu.vj.id) ∈ db1.associations := by
    rw [(dbCommit_ok hcommit).2]
    exact List.mem_append_right _ (List.mem_map.2 ⟨_, hlink, rfl⟩)
  simp [Db.tripUpdatesOf, htu, hassoc]

/-- A settled call keeps navitia coherent with the stored rows. -/
theorem Call.coherent
    (h : Call SettledCall s s') (hs : Coherent s) :
    Coherent s' := by
  cases h with
  | @returned b brokerUp rtu r ts hcond hok =>
      obtain ⟨session, db1, entities, hloop, hcommit, hpb, hpub⟩ :=
        handle_ok hok
      have htracked :=
        handleLoop_tracked (tracked_session s.db) hcond hloop
      obtain ⟨hrows, -⟩ := dbCommit_ok hcommit
      have hentities := convertToGtfsrt_ok hpb
      have hnodup : ((db1.tripUpdatesOf rtu).map rowId).Nodup :=
        db1.uniqueVj.sublist (List.filter_sublist.map _)
      intro tu htu
      rw [(handle_committed hloop hcommit).1] at htu
      have hmem : tu ∈ db1.tripUpdates := by
        rw [hrows]
        exact htu
      simp only [hpub]
      by_cases hpublished : tu ∈ db1.tripUpdatesOf rtu
      · obtain ⟨e, hfill, hconsumed⟩ :=
          consume_of_row hentities s.consumer b.contributorId hnodup hpublished
        rw [hconsumed, hfill]
        rfl
      · -- a row that is not published was stored as it is before the call
        have hunlinked : rowId tu ∉ session.links := fun hlink =>
          hpublished (mem_tripUpdatesOf hcommit hmem hlink)
        have hstored : tu ∈ s.db.tripUpdates := by
          rcases List.mem_append.1 htu with hrow | hcreated
          · exact (htracked.rows tu hrow).resolve_right hunlinked
          · exact absurd (htracked.created tu hcreated) hunlinked
        have hid : rowId tu ∉ (db1.tripUpdatesOf rtu).map rowId := by
          rintro hid
          obtain ⟨tu', htu', heq⟩ := List.mem_map.1 hid
          have := KeyedStore.eq_of_key_eq db1.uniqueVj
            (List.mem_of_mem_filter htu') hmem heq
          exact hpublished (this ▸ htu')
        rw [consume_of_not_row hentities s.consumer b.contributorId hid]
        exact hs tu hstored

/-- Along every run of settled calls, navitia is coherent with the store. -/
theorem publishedStream_coherent
    (hrun : Relation.ReflTransGen (Call SettledCall) s s')
    (hs : Coherent s) :
    Coherent s' := by
  induction hrun with
  | refl =>
      exact hs
  | tail _ hcall ih =>
      exact hcall.coherent ih

end Step

namespace Sample

/-- Navitia after a full reload. -/
def reloaded (db : Db) (id : String) : Option Entity :=
  (db.tripUpdates.find? (fun tu => rowId tu == id)).bind
    (fun tu => (fillEntity tu).toOption)

/-- The feed on three stops with a message on the trip. -/
def withMessage : NewTripUpdate :=
  { onTime with message := some "traffic disruption" }

end Sample

/-- Sending the same feed twice is a run of settled calls. -/
theorem publishedStream_coherent_onTime :
    Coherent
      { db := (handle Sample.cots true Sample.onTimeDb (Sample.received "2")
          [Sample.onTime]).db
        consumer := consume (Sample.reloaded Sample.onTimeDb)
          (handle Sample.cots true Sample.onTimeDb (Sample.received "2")
            [Sample.onTime]).published } := by
  refine publishedStream_coherent
    (Relation.ReflTransGen.single
      (show Call SettledCall
        { db := Sample.onTimeDb, consumer := Sample.reloaded Sample.onTimeDb }
        _ from Call.returned ⟨?_, trivial⟩
          (show (handle Sample.cots true Sample.onTimeDb
              (Sample.received "2") [Sample.onTime]).outcome =
            .ok (setRtuStatusKo (Sample.received "2")
              (.text (noNewInformation .cots))) by decide)))
    (by unfold Coherent; decide)
  intro stored hstored _
  have hrow :
      findByDatedVj Sample.onTimeDb.tripUpdates Sample.onTime.vj =
        some stored := hstored
  have hstored_eq :
      stored =
        { Sample.onTime.toTripUpdate with
          stopTimeUpdates :=
            (manageConsistency (merge Sample.onTime.navitiaVj none
              Sample.onTime true).res.stopTimeUpdates).2 } := by
    rw [← Option.some_inj, ← hrow]
    decide
  subst hstored_eq
  exact ⟨by decide, ⟨by decide, by decide, fun _ => by decide⟩⟩

/-- A message on an unchanged trip is stored without being published. -/
theorem publishedStream_misses_message :
    Coherent
        { db := Sample.onTimeDb
          consumer := Sample.reloaded Sample.onTimeDb } ∧
      (handle Sample.cots true Sample.onTimeDb (Sample.received "2")
          [Sample.withMessage]).outcome =
        .ok (setRtuStatusKo (Sample.received "2")
          (.text (noNewInformation .cots))) ∧
      ¬ Coherent
        { db := (handle Sample.cots true Sample.onTimeDb (Sample.received "2")
            [Sample.withMessage]).db
          consumer := consume (Sample.reloaded Sample.onTimeDb)
            (handle Sample.cots true Sample.onTimeDb (Sample.received "2")
              [Sample.withMessage]).published } := by
  unfold Coherent
  decide

end Core
end Kirin
