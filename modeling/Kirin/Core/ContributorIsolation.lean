import Kirin.Core.PublishedStream
import Kirin.Core.TripTurns
import Mathlib.Data.List.Flatten

/-!
# Kirin: several contributors in one database

The rows of all contributors are stored together and looked up by their dated
vehicle journey alone.  A call that only finds rows of its own contributor does
what it would do if the rows of the others were not there.

* `ofContributor`: the rows of one contributor.
* `OwnSession`: the session of a call that only finds rows of its contributor.
* `handleLoop_restrict`: the loop of such a call ignores the other rows.
* `handle_view`: so do the commit and the publication.
* `contributors_isolated`: along a run of such calls, the rows and the
  publications of a contributor are those of its own calls alone.
-/

namespace Kirin
namespace Core

/-- The rows of one contributor. -/
def ofContributor (c : String) (rows : List TripUpdate) : List TripUpdate :=
  rows.filter (fun tu => tu.contributorId == c)

@[simp] theorem mem_ofContributor
    {c : String} {rows : List TripUpdate} {row : TripUpdate} :
    row ∈ ofContributor c rows ↔ row ∈ rows ∧ row.contributorId = c := by
  simp [ofContributor]

/-- A session reduced to the stored rows of one contributor. -/
def Session.restrict (c : String) (s : Session) : Session :=
  { s with rows := ofContributor c s.rows }

/--
The session of a call that only finds rows of its contributor, with the trip
updates it has still to handle.
-/
structure OwnSession
    (c : String) (rows : List TripUpdate) (s : Session)
    (ts : List NewTripUpdate) : Prop where
  rowIds : (s.rows.map rowId).Nodup
  sameIds : SameIds s.allRows ts
  keys : (s.rows.map (fun row => row.vj.datedKey)).Nodup
  owned : ∀ t ∈ ts, ∀ row, findByDatedVj s.rows t.vj = some row →
    row.contributorId = c
  authors : ∀ t ∈ ts, t.contributorId = c
  others : ∀ row ∈ s.rows, row.contributorId ≠ c → row ∈ rows
  created : ∀ row ∈ s.created,
    row.contributorId = c ∧ findByDatedVj s.rows row.vj = none
  links : ∀ row ∈ s.rows, rowId row ∈ s.links → row.contributorId = c

section Find

variable {c : String} {rows : List TripUpdate} {vj : VehicleJourney}

/-- A search that finds a row of a contributor needs no other rows. -/
theorem findByDatedVj_ofContributor
    (hkeys : (rows.map (fun row => row.vj.datedKey)).Nodup)
    (hown : ∀ row, findByDatedVj rows vj = some row → row.contributorId = c) :
    findByDatedVj (ofContributor c rows) vj = findByDatedVj rows vj := by
  cases hfind : findByDatedVj rows vj with
  | none =>
      refine List.find?_eq_none.2 (fun row hrow => ?_)
      exact List.find?_eq_none.1 hfind row (mem_ofContributor.1 hrow).1
  | some row =>
      refine findByDatedVj_of_mem ?_ ?_ (findByDatedVj_key hfind)
      · exact hkeys.sublist (List.filter_sublist.map _)
      · exact mem_ofContributor.2 ⟨findByDatedVj_mem hfind, hown row hfind⟩

end Find

section Step

variable {b : Builder} {c : String} {rows : List TripUpdate} {s : Session}
variable {t : NewTripUpdate} {ts : List NewTripUpdate}

/-- What is left for a found row has the contributor of that row. -/
theorem OwnSession.processed
    (b : Builder) (h : OwnSession c rows s (t :: ts)) :
    (processTripUpdate b (findByDatedVj s.rows t.vj) t).tripUpdate.contributorId
      = c := by
  rw [processTripUpdate_contributorId]
  cases hfind : findByDatedVj s.rows t.vj with
  | none =>
      exact h.authors t List.mem_cons_self
  | some row =>
      exact h.owned t List.mem_cons_self row hfind

/-- The rows of the id of a found row are rows of its contributor. -/
theorem OwnSession.sameRow
    (b : Builder) (h : OwnSession c rows s (t :: ts)) {old : TripUpdate}
    (hfind : findByDatedVj s.rows t.vj = some old) :
    ∀ row ∈ s.rows,
      rowId row = rowId (processTripUpdate b (some old) t).tripUpdate →
      row.contributorId = c := by
  intro row hrow heq
  have hid :
      rowId (processTripUpdate b (some old) t).tripUpdate = rowId old :=
    congrArg VehicleJourney.id processTripUpdate_vj
  rw [KeyedStore.eq_of_key_eq h.rowIds hrow (findByDatedVj_mem hfind)
    (heq.trans hid)]
  exact h.owned t List.mem_cons_self old hfind

/-- One trip update ignores the rows of the other contributors. -/
theorem handleTripUpdate_restrict
    (b : Builder) (h : OwnSession c rows s (t :: ts)) :
    handleTripUpdate b (s.restrict c) t =
      ((handleTripUpdate b s t).1.restrict c, (handleTripUpdate b s t).2) := by
  have hsame : findByDatedVj (s.restrict c).rows t.vj =
      findByDatedVj s.rows t.vj :=
    findByDatedVj_ofContributor h.keys (h.owned t List.mem_cons_self)
  refine Prod.ext (Session.ext ?_ ?_ ?_) ?_
  · cases hfind : findByDatedVj s.rows t.vj with
    | none =>
        rw [hfind] at hsame
        rw [handleTripUpdate_rows_of_none b hsame]
        simp only [Session.restrict, handleTripUpdate_rows_of_none b hfind]
    | some old =>
        have hprocessed := h.processed b
        rw [hfind] at hsame hprocessed
        rw [handleTripUpdate_rows_of_some b hsame, replaceRow_eq]
        simp only [Session.restrict, handleTripUpdate_rows_of_some b hfind]
        refine (KeyedStore.filter_replace (fun row hrow heq => ?_)).symm
        rw [h.sameRow b hfind row hrow heq, hprocessed]
  · rw [handleTripUpdate_created, hsame]
    simp only [Session.restrict, handleTripUpdate_created]
  · rw [handleTripUpdate_links, hsame]
    simp only [Session.restrict, handleTripUpdate_links]
  · rw [handleTripUpdate_outcome, handleTripUpdate_outcome, hsame]

/-- One trip update keeps the rows of the other contributors. -/
theorem handleTripUpdate_other
    (b : Builder) (h : OwnSession c rows s (t :: ts)) {d : String}
    (hd : d ≠ c) :
    ofContributor d (handleTripUpdate b s t).1.rows =
      ofContributor d s.rows := by
  cases hfind : findByDatedVj s.rows t.vj with
  | none =>
      rw [handleTripUpdate_rows_of_none b hfind]
  | some old =>
      have hprocessed := h.processed b
      rw [hfind] at hprocessed
      rw [handleTripUpdate_rows_of_some b hfind, replaceRow_eq]
      apply KeyedStore.filter_replace_of_not
      · intro row hrow heq
        rw [h.sameRow b hfind row hrow heq]
        exact beq_false_of_ne hd.symm
      · rw [hprocessed]
        exact beq_false_of_ne hd.symm

/-- One trip update creates at most the row of its own vehicle journey. -/
theorem handleTripUpdate_vjs
    (b : Builder) (t : NewTripUpdate) (hids : (s.rows.map rowId).Nodup) :
    ∀ row ∈ (handleTripUpdate b s t).1.allRows,
      row.vj ∈ s.allRows.map TripUpdate.vj ++ [t.vj] := by
  have hvjs := handleTripUpdate_rows_vj (b := b) (s := s) (t := t) hids
  intro row hrow
  rw [Session.allRows, List.map_append]
  rcases List.mem_append.1 hrow with hstored | hcreated
  · have hvj := List.mem_map_of_mem (f := TripUpdate.vj) hstored
    rw [hvjs] at hvj
    exact List.mem_append_left _ (List.mem_append_left _ hvj)
  · rw [handleTripUpdate_created] at hcreated
    split at hcreated
    · rcases List.mem_append.1 hcreated with hold | hnew
      · exact List.mem_append_left _
          (List.mem_append_right _ (List.mem_map_of_mem hold))
      · rw [List.mem_singleton.1 hnew, processTripUpdate_vj]
        exact List.mem_append_right _ (List.mem_singleton_self _)
    · exact List.mem_append_left _
        (List.mem_append_right _ (List.mem_map_of_mem hcreated))

/-- One trip update leaves the session of a call on its own rows. -/
theorem handleTripUpdate_ownSession
    (b : Builder) (h : OwnSession c rows s (t :: ts)) :
    OwnSession c rows (handleTripUpdate b s t).1 ts := by
  have hprocessed := h.processed b
  have hvjs := handleTripUpdate_rows_vj (b := b) (s := s) (t := t) h.rowIds
  have hkeys : ((handleTripUpdate b s t).1.rows.map
      (fun row => row.vj.datedKey)).Nodup := by
    rw [map_of_vj_eq VehicleJourney.datedKey hvjs]
    exact h.keys
  -- the rows of another contributor are those of before
  have hother : ∀ row ∈ (handleTripUpdate b s t).1.rows,
      row.contributorId ≠ c → row ∈ s.rows := by
    intro row hrow hne
    have hmem : row ∈ ofContributor row.contributorId s.rows := by
      rw [← handleTripUpdate_other b h hne]
      exact mem_ofContributor.2 ⟨hrow, rfl⟩
    exact (mem_ofContributor.1 hmem).1
  constructor
  · exact handleTripUpdate_rowIds h.rowIds
  · refine h.sameIds.mono (fun row hrow => ?_)
      (fun t' ht' => List.mem_cons_of_mem t ht')
    rw [List.map_cons, List.append_cons]
    exact List.mem_append_left _ (handleTripUpdate_vjs b t h.rowIds row hrow)
  · exact hkeys
  · intro t' ht' row hfind
    rw [findByDatedVj_handleTripUpdate h.rowIds h.keys] at hfind
    split at hfind
    · obtain ⟨old, hold, rfl⟩ := Option.map_eq_some_iff.1 hfind
      rw [hold] at hprocessed
      exact hprocessed
    · exact h.owned t' (List.mem_cons_of_mem t ht') row hfind
  · intro t' ht'
    exact h.authors t' (List.mem_cons_of_mem t ht')
  · intro row hrow hne
    exact h.others row (hother row hrow hne) hne
  · intro row hrow
    rw [findByDatedVj_eq_none_of_vj hvjs]
    rw [handleTripUpdate_created] at hrow
    split at hrow
    · rename_i hnew
      rcases List.mem_append.1 hrow with hold | hlast
      · exact h.created row hold
      · rw [hnew.1] at hprocessed
        rw [List.mem_singleton.1 hlast, processTripUpdate_vj]
        exact ⟨hprocessed, hnew.1⟩
    · exact h.created row hrow
  · intro row hrow hlink
    by_contra hne
    have hstored := hother row hrow hne
    rw [handleTripUpdate_links] at hlink
    have hold : rowId row ∉ s.links := fun hmem =>
      hne (h.links row hstored hmem)
    split at hlink
    · rcases List.mem_append.1 hlink with hmem | hlast
      · exact hold hmem
      · have hid := List.mem_singleton.1 hlast
        cases hfind : findByDatedVj s.rows t.vj with
        | some old =>
            rw [hfind] at hid
            exact hne (h.sameRow b hfind row hstored hid)
        | none =>
            -- a row of that identifier would be found for the trip
            rw [hfind, rowId, rowId, processTripUpdate_vj] at hid
            refine findByDatedVj_ne_key hfind hstored
              (h.sameIds row.vj ?_ t.vj ?_ hid)
            · exact List.mem_append_left _
                (List.mem_map_of_mem (List.mem_append_left _ hstored))
            · exact List.mem_append_right _ List.mem_cons_self
    · exact hold hlink

end Step

section Loop

variable {b : Builder} {c : String} {rows : List TripUpdate}
variable {s s' : Session} {ts : List NewTripUpdate}

/-- The loop of a call on its own rows ignores the other rows. -/
theorem handleLoop_restrict
    (b : Builder) (h : OwnSession c rows s ts) :
    handleLoop b (s.restrict c) ts =
      ((handleLoop b s ts).1.restrict c, (handleLoop b s ts).2) := by
  induction ts generalizing s with
  | nil =>
      rfl
  | cons t rest ih =>
      have hnext := handleTripUpdate_ownSession b h
      simp only [handleLoop, handleTripUpdate_restrict b h]
      cases hone : handleTripUpdate b s t with
      | mk s1 result =>
          rw [hone] at hnext
          cases result with
          | error e =>
              rfl
          | ok u =>
              exact ih hnext

theorem handleLoop_ownSession
    (h : OwnSession c rows s ts) (hloop : handleLoop b s ts = (s', .ok ())) :
    OwnSession c rows s' [] := by
  obtain ⟨rest, hleft, hrest⟩ := handleLoop_invariant
    (P := fun s1 rest => OwnSession c rows s1 rest)
    (fun _ _ _ h1 => handleTripUpdate_ownSession b h1) h hloop
  rw [hrest rfl] at hleft
  exact hleft

/-- The loop of a call on its own rows keeps the other rows. -/
theorem handleLoop_other
    (h : OwnSession c rows s ts) (hloop : handleLoop b s ts = (s', .ok ()))
    {d : String} (hd : d ≠ c) :
    ofContributor d s'.rows = ofContributor d s.rows := by
  obtain ⟨_, ⟨-, hleft⟩, -⟩ := handleLoop_invariant
    (P := fun s1 rest => OwnSession c rows s1 rest ∧
      ofContributor d s1.rows = ofContributor d s.rows)
    (fun _ _ _ h1 => ⟨handleTripUpdate_ownSession b h1.1,
      (handleTripUpdate_other b h1.1 hd).trans h1.2⟩)
    ⟨h, rfl⟩ hloop
  exact hleft

/-- The loop creates at most the rows of its own vehicle journeys. -/
theorem handleLoop_vjs
    (hids : (s.rows.map rowId).Nodup)
    (hloop : handleLoop b s ts = (s', .ok ())) :
    ∀ row ∈ s'.allRows,
      row.vj ∈ s.allRows.map TripUpdate.vj ++ ts.map (fun t => t.vj) := by
  have hturn : ∀ (s1 : Session) (t : NewTripUpdate)
      (rest : List NewTripUpdate), (s1.rows.map rowId).Nodup →
      ∀ vj ∈ (handleTripUpdate b s1 t).1.allRows.map TripUpdate.vj ++
          rest.map (fun t => t.vj),
        vj ∈ s1.allRows.map TripUpdate.vj ++
          (t :: rest).map (fun t => t.vj) := by
    intro s1 t rest hids1 vj hvj
    rw [List.map_cons, List.append_cons]
    rcases List.mem_append.1 hvj with hrow | hrest
    · obtain ⟨row, hmem, rfl⟩ := List.mem_map.1 hrow
      exact List.mem_append_left _ (handleTripUpdate_vjs b t hids1 row hmem)
    · exact List.mem_append_right _ hrest
  obtain ⟨rest, ⟨-, hleft⟩, hrest⟩ := handleLoop_invariant
    (P := fun s1 rest => (s1.rows.map rowId).Nodup ∧
      ∀ vj ∈ s1.allRows.map TripUpdate.vj ++ rest.map (fun t => t.vj),
        vj ∈ s.allRows.map TripUpdate.vj ++ ts.map (fun t => t.vj))
    (fun s1 t rest h1 => ⟨handleTripUpdate_rowIds h1.1,
      fun vj hvj => h1.2 vj (hturn s1 t rest h1.1 vj hvj)⟩)
    ⟨hids, fun vj hvj => hvj⟩ hloop
  intro row hrow
  rw [hrest rfl, List.map_nil, List.append_nil] at hleft
  exact hleft row.vj (List.mem_map_of_mem hrow)

end Loop

/-- The database reduced to the rows of one contributor. -/
def viewDb (c : String) (db : Db) : Db where
  tripUpdates := ofContributor c db.tripUpdates
  realTimeUpdates := []
  associations := []
  uniqueVj := db.uniqueVj.sublist (List.filter_sublist.map _)
  uniqueDatedVj := db.uniqueDatedVj.sublist (List.filter_sublist.map _)
  uniqueRtu := List.nodup_nil
  uniqueAssociation := db.uniqueAssociation.sublist (List.nil_sublist _)
  effects := fun tu htu => db.effects tu (mem_ofContributor.1 htu).1
  texts := fun tu htu => db.texts tu (mem_ofContributor.1 htu).1

section Commit

variable {c : String} {db db1 db2 : Db} {s : Session} {rtu : RealTimeUpdate}

/-- The rows of a call that are those of its contributor. -/
theorem ofContributor_allRows
    (h : OwnSession c db.tripUpdates s []) (d : String) :
    ofContributor d s.allRows =
      if d = c then (s.restrict c).allRows else ofContributor d s.rows := by
  have hfilter : ofContributor d s.allRows =
      ofContributor d s.rows ++ ofContributor d s.created :=
    List.filter_append _ _
  rw [hfilter]
  split
  · rename_i hdc
    subst hdc
    have hall : ofContributor d s.created = s.created := by
      refine List.filter_eq_self.2 (fun row hrow => ?_)
      rw [(h.created row hrow).1]
      exact beq_self_eq_true d
    rw [hall]
    rfl
  · rename_i hdc
    have hnone : ofContributor d s.created = [] := by
      refine List.filter_eq_nil_iff.2 (fun row hrow => ?_)
      rw [(h.created row hrow).1]
      simpa using fun heq => hdc heq.symm
    rw [hnone, List.append_nil]

/-- The commit of a call does not depend on the rows of the others. -/
theorem dbCommit_restrict
    (h : OwnSession c db.tripUpdates s [])
    (hfresh : ∀ id, (rtu.id, id) ∉ db.associations) :
    (∃ db1, dbCommit db s rtu = .ok db1) ↔
      ∃ db2, dbCommit (viewDb c db) (s.restrict c) rtu = .ok db2 := by
  have hsub : (s.restrict c).allRows.Sublist s.allRows :=
    List.filter_sublist.append_right _
  rw [dbCommit_ok_iff, dbCommit_ok_iff]
  constructor
  · intro hfits
    constructor
    · exact hfits.ids.sublist (hsub.map _)
    · exact hfits.keys.sublist (hsub.map _)
    · exact hfits.links.sublist (List.sublist_append_right _ _)
    · exact fun tu htu => hfits.effects tu (hsub.subset htu)
    · exact fun tu htu => hfits.texts tu (hsub.subset htu)
    · exact hfits.error
  · intro hfits
    -- the rows of the others are stored ones
    have hrows : ∀ {P : TripUpdate → Prop},
        (∀ tu ∈ (s.restrict c).allRows, P tu) →
        (∀ tu ∈ db.tripUpdates, P tu) → ∀ tu ∈ s.allRows, P tu := by
      intro P hown hstored tu htu
      rcases List.mem_append.1 htu with hrow | hnew
      · by_cases hc : tu.contributorId = c
        · exact hown tu
            (List.mem_append_left _ (mem_ofContributor.2 ⟨hrow, hc⟩))
        · exact hstored tu (h.others tu hrow hc)
      · exact hown tu (List.mem_append_right _ hnew)
    -- no stored row is one of a created trip
    have hapart : ∀ row ∈ s.rows, ∀ row' ∈ s.created,
        row.vj.datedKey ≠ row'.vj.datedKey := fun row hrow row' hrow' =>
      findByDatedVj_ne_key (h.created row' hrow').2 hrow
    have hvj : ∀ row ∈ s.allRows, row.vj ∈
        s.allRows.map TripUpdate.vj ++ [].map (fun t : NewTripUpdate => t.vj) :=
      fun row hrow => List.mem_append_left _ (List.mem_map_of_mem hrow)
    constructor
    · rw [Session.allRows, List.map_append, List.nodup_append]
      refine ⟨h.rowIds, ?_, ?_⟩
      · exact hfits.ids.sublist ((List.sublist_append_right _ _).map _)
      · intro id hid id' hid' heq
        obtain ⟨row, hrow, rfl⟩ := List.mem_map.1 hid
        obtain ⟨row', hrow', rfl⟩ := List.mem_map.1 hid'
        exact hapart row hrow row' hrow' (h.sameIds row.vj
          (hvj row (List.mem_append_left _ hrow)) row'.vj
          (hvj row' (List.mem_append_right _ hrow')) heq)
    · rw [Session.allRows, List.map_append, List.nodup_append]
      refine ⟨h.keys, ?_, ?_⟩
      · exact hfits.keys.sublist ((List.sublist_append_right _ _).map _)
      · intro k hk k' hk' heq
        obtain ⟨row, hrow, rfl⟩ := List.mem_map.1 hk
        obtain ⟨row', hrow', rfl⟩ := List.mem_map.1 hk'
        exact hapart row hrow row' hrow' heq
    · exact nodup_associations hfresh (List.Nodup.of_map _ hfits.links)
    · exact hrows hfits.effects db.effects
    · exact hrows hfits.texts db.texts
    · exact hfits.error

/-- A feed publishes the same rows whether or not there are rows of others. -/
theorem tripUpdatesOf_restrict
    (h : OwnSession c db.tripUpdates s [])
    (hfresh : ∀ id, (rtu.id, id) ∉ db.associations)
    (hcommit : dbCommit db s rtu = .ok db1)
    (hcommit' : dbCommit (viewDb c db) (s.restrict c) rtu = .ok db2) :
    db2.tripUpdatesOf rtu = db1.tripUpdatesOf rtu := by
  rw [tripUpdatesOf_eq hcommit hfresh,
    tripUpdatesOf_eq hcommit' (fun _ hlink => nomatch hlink)]
  rw [Session.allRows, Session.allRows, List.filter_append, List.filter_append]
  congr 1
  rw [Session.restrict, ofContributor, List.filter_filter]
  apply List.filter_congr
  intro row hrow
  by_cases hlink : rowId row ∈ s.links
  · simp [hlink, h.links row hrow hlink]
  · simp [hlink]

end Commit

/-- What a call publishes once its rows are committed. -/
theorem handle_published
    {b : Builder} {brokerUp : Bool} {db db1 : Db} {rtu : RealTimeUpdate}
    {ts : List NewTripUpdate} {s : Session}
    (hloop : handleLoop b db.session ts = (s, .ok ()))
    (hcommit : dbCommit db s rtu = .ok db1) :
    (handle b brokerUp db rtu ts).published =
      match convertToGtfsrt (db1.tripUpdatesOf rtu) with
      | .error _ => none
      | .ok entities =>
          if brokerUp then
            some { contributorId := b.contributorId, entities := entities }
          else none := by
  simp only [handle, hloop, hcommit]
  cases convertToGtfsrt (db1.tripUpdatesOf rtu) with
  | error e =>
      rfl
  | ok entities =>
      cases brokerUp with
      | false =>
          rfl
      | true =>
          simp only [Bool.not_true, Bool.false_eq_true, if_false, if_true]
          split <;> rfl

/-- A call that fails to commit leaves the rows and publishes nothing. -/
theorem handle_commit_error
    (b : Builder) (brokerUp : Bool) {db : Db} {rtu : RealTimeUpdate}
    {ts : List NewTripUpdate} {s : Session}
    (hloop : handleLoop b db.session ts = (s, .ok ()))
    (hcommit : ¬ ∃ db1, dbCommit db s rtu = .ok db1) :
    (handle b brokerUp db rtu ts).published = none ∧
      (handle b brokerUp db rtu ts).db = db := by
  cases h : dbCommit db s rtu with
  | error e =>
      simp [handle, hloop, h]
  | ok db1 =>
      exact absurd ⟨db1, h⟩ hcommit

section Call

variable {b : Builder} {db : Db} {rtu : RealTimeUpdate}
variable {ts : List NewTripUpdate}

/--
A call that only finds rows of its contributor publishes what it would publish
without the other rows, and leaves the same rows of its contributor.
-/
theorem handle_view
    (b : Builder) (brokerUp : Bool)
    (h : OwnSession b.contributorId db.tripUpdates db.session ts)
    (hfresh : ∀ id, (rtu.id, id) ∉ db.associations) :
    (handle b brokerUp (viewDb b.contributorId db) rtu ts).published =
        (handle b brokerUp db rtu ts).published ∧
      (handle b brokerUp (viewDb b.contributorId db) rtu ts).db.tripUpdates =
        ofContributor b.contributorId
          (handle b brokerUp db rtu ts).db.tripUpdates := by
  have hview := handleLoop_restrict b h
  rw [show db.session.restrict b.contributorId =
    (viewDb b.contributorId db).session from rfl] at hview
  cases hloop : handleLoop b db.session ts with
  | mk s result =>
      rw [hloop] at hview
      cases result with
      | error e =>
          rw [handle_raises hloop, handle_raises hview]
          exact ⟨rfl, rfl⟩
      | ok u =>
          have hend := handleLoop_ownSession h hloop
          have hiff := dbCommit_restrict hend hfresh
          by_cases hcommit : ∃ db1, dbCommit db s rtu = .ok db1
          · obtain ⟨db2, hcommit'⟩ := hiff.1 hcommit
            obtain ⟨db1, hcommit⟩ := hcommit
            rw [handle_published hloop hcommit,
              handle_published hview hcommit',
              tripUpdatesOf_restrict hend hfresh hcommit hcommit',
              (handle_committed hloop hcommit).1,
              (handle_committed hview hcommit').1,
              ofContributor_allRows hend, if_pos rfl]
            exact ⟨rfl, rfl⟩
          · have hcommit' := fun h' => hcommit (hiff.2 h')
            obtain ⟨hpub, hdb⟩ :=
              handle_commit_error b brokerUp hloop hcommit
            obtain ⟨hpub', hdb'⟩ :=
              handle_commit_error b brokerUp hview hcommit'
            rw [hpub, hpub', hdb, hdb']
            exact ⟨rfl, rfl⟩

/-- A call leaves the database as it is or commits the session of its loop. -/
theorem handle_db_cases
    (b : Builder) (brokerUp : Bool) (db : Db) (rtu : RealTimeUpdate)
    (ts : List NewTripUpdate) :
    (handle b brokerUp db rtu ts).db = db ∨
      ∃ s db1, handleLoop b db.session ts = (s, .ok ()) ∧
        dbCommit db s rtu = .ok db1 ∧
        (handle b brokerUp db rtu ts).db.tripUpdates = s.allRows ∧
        (handle b brokerUp db rtu ts).db.associations = db1.associations := by
  cases hloop : handleLoop b db.session ts with
  | mk s result =>
      cases result with
      | error e =>
          left
          rw [handle_raises hloop]
      | ok u =>
          by_cases hcommit : ∃ db1, dbCommit db s rtu = .ok db1
          · obtain ⟨db1, hcommit⟩ := hcommit
            exact Or.inr ⟨s, db1, rfl, hcommit, handle_committed hloop hcommit⟩
          · exact Or.inl (handle_commit_error b brokerUp hloop hcommit).2

/-- A call on its own rows keeps the rows of the other contributors. -/
theorem handle_other
    (brokerUp : Bool)
    (h : OwnSession b.contributorId db.tripUpdates db.session ts)
    {d : String} (hd : d ≠ b.contributorId) :
    ofContributor d (handle b brokerUp db rtu ts).db.tripUpdates =
      ofContributor d db.tripUpdates := by
  rcases handle_db_cases b brokerUp db rtu ts with
    hdb | ⟨s, db1, hloop, -, hrows, -⟩
  · rw [hdb]
  · rw [hrows, ofContributor_allRows (handleLoop_ownSession h hloop),
      if_neg hd, handleLoop_other h hloop hd]
    rfl

/-- What the rows and the links of a database become in a call. -/
theorem handle_grows
    (b : Builder) (brokerUp : Bool) (db : Db) (rtu : RealTimeUpdate)
    (ts : List NewTripUpdate) :
    (∀ row ∈ db.tripUpdates,
        ∃ row' ∈ (handle b brokerUp db rtu ts).db.tripUpdates,
          row'.vj = row.vj) ∧
      (∀ row ∈ (handle b brokerUp db rtu ts).db.tripUpdates,
        row.vj ∈ db.tripUpdates.map TripUpdate.vj ++ ts.map (fun t => t.vj)) ∧
      ∀ p ∈ (handle b brokerUp db rtu ts).db.associations,
        p ∈ db.associations ∨ p.1 = rtu.id := by
  rcases handle_db_cases b brokerUp db rtu ts with
    hdb | ⟨s, db1, hloop, hcommit, hrows, hassociations⟩
  · rw [hdb]
    refine ⟨?_, ?_, ?_⟩
    · intro row hrow
      exact ⟨row, hrow, rfl⟩
    · intro row hrow
      exact List.mem_append_left _ (List.mem_map_of_mem hrow)
    · intro p hp
      exact Or.inl hp
  · have hvjs : s.rows.map TripUpdate.vj =
        db.tripUpdates.map TripUpdate.vj :=
      handleLoop_rows_vj db.uniqueVj hloop
    have hids := handleLoop_vjs (s := db.session) db.uniqueVj hloop
    rw [show db.session.allRows = db.tripUpdates from
      List.append_nil _] at hids
    rw [hrows, hassociations, (dbCommit_ok hcommit).2]
    refine ⟨?_, hids, ?_⟩
    · intro row hrow
      have hmem : row.vj ∈ s.rows.map TripUpdate.vj := by
        rw [hvjs]
        exact List.mem_map.2 ⟨row, hrow, rfl⟩
      obtain ⟨row', hrow', heq⟩ := List.mem_map.1 hmem
      exact ⟨row', List.mem_append_left _ hrow', heq⟩
    · intro p hp
      refine (List.mem_append.1 hp).imp_right (fun hnew => ?_)
      obtain ⟨id, -, rfl⟩ := List.mem_map.1 hnew
      rfl

end Call

/-- A call to `handle`, with the feed it is given. -/
structure HandleCall where
  builder : Builder
  brokerUp : Bool
  rtu : RealTimeUpdate
  tripUpdates : List NewTripUpdate
deriving DecidableEq, Repr

def HandleCall.run (call : HandleCall) (db : Db) : HandleResult :=
  handle call.builder call.brokerUp db call.rtu call.tripUpdates

/-- Whether a call is made for a contributor. -/
def HandleCall.isOf (c : String) (call : HandleCall) : Bool :=
  call.builder.contributorId == c

/--
The database and the publications after a list of calls, each of which starts
from the committed rows and may raise.
-/
def runCalls : Db → List HandleCall → Db × List Publication
  | db, [] => (db, [])
  | db, call :: rest =>
      let next := runCalls (call.run db).db rest
      (next.1, (call.run db).published.toList ++ next.2)

/-- The publications with the routing key of a contributor. -/
def publishedFor (c : String) (publications : List Publication) :
    List Publication :=
  publications.filter (fun p => p.contributorId == c)

/-- The stored rows a call finds are those of its own contributor. -/
def FindsOwnRows (db : Db) (call : HandleCall) : Prop :=
  ∀ t ∈ call.tripUpdates, ∀ row,
    findByDatedVj db.tripUpdates t.vj = some row →
    row.contributorId = call.builder.contributorId

instance (db : Db) (call : HandleCall) : Decidable (FindsOwnRows db call) :=
  inferInstanceAs (Decidable (∀ t ∈ call.tripUpdates,
    ∀ row ∈ findByDatedVj db.tripUpdates t.vj, _))

/-- Every call of a run finds rows of its own contributor only. -/
def FindsOwnRowsAlong : Db → List HandleCall → Prop
  | _, [] => True
  | db, call :: rest =>
      FindsOwnRows db call ∧ FindsOwnRowsAlong (call.run db).db rest

instance FindsOwnRowsAlong.decidable :
    (db : Db) → (calls : List HandleCall) →
      Decidable (FindsOwnRowsAlong db calls)
  | _, [] => inferInstanceAs (Decidable True)
  | db, call :: rest =>
      have : Decidable (FindsOwnRowsAlong (call.run db).db rest) :=
        FindsOwnRowsAlong.decidable (call.run db).db rest
      inferInstanceAs (Decidable (_ ∧ _))

/--
Builders give their contributor to the trip updates.  Feeds have new identifiers,
and one identifier stands for one dated vehicle journey.
-/
structure BuiltCalls (db : Db) (calls : List HandleCall) : Prop where
  authors : ∀ call ∈ calls, ∀ t ∈ call.tripUpdates,
    t.contributorId = call.builder.contributorId
  vjIds : SameIds db.tripUpdates (calls.flatMap HandleCall.tripUpdates)
  rtuIds : (calls.map (fun call => call.rtu.id)).Nodup
  links : ∀ call ∈ calls, ∀ id, (call.rtu.id, id) ∉ db.associations

/-- The other database has the same rows of a contributor, and no other keys. -/
structure SameView (c : String) (db db' : Db) : Prop where
  rows : ofContributor c db'.tripUpdates = ofContributor c db.tripUpdates
  keys : ∀ row' ∈ db'.tripUpdates, ∃ row ∈ db.tripUpdates,
    row.vj.datedKey = row'.vj.datedKey

section Run

variable {c : String} {db db' : Db} {call : HandleCall}
variable {calls : List HandleCall}

theorem BuiltCalls.ownSession
    (h : BuiltCalls db (call :: calls)) (hown : FindsOwnRows db call) :
    OwnSession call.builder.contributorId db.tripUpdates db.session
      call.tripUpdates where
  rowIds := db.uniqueVj
  sameIds := by
    rw [show db.session.allRows = db.tripUpdates from List.append_nil _]
    refine h.vjIds.mono (fun row hrow => ?_) (fun t ht => ?_)
    · exact List.mem_append_left _ (List.mem_map_of_mem hrow)
    · rw [List.flatMap_cons]
      exact List.mem_append_left _ ht
  keys := db.uniqueDatedVj
  owned := hown
  authors := h.authors call List.mem_cons_self
  others := fun row hrow _ => hrow
  created := by simp [Db.session]
  links := by simp [Db.session]

/-- The next calls are still built with new identifiers. -/
theorem BuiltCalls.next
    (h : BuiltCalls db (call :: calls)) :
    BuiltCalls (call.run db).db calls := by
  obtain ⟨-, hids, hassociations⟩ := handle_grows call.builder call.brokerUp db
    call.rtu call.tripUpdates
  have hrtuIds := h.rtuIds
  rw [List.map_cons, List.nodup_cons] at hrtuIds
  constructor
  · intro call' hcall'
    exact h.authors call' (List.mem_cons_of_mem call hcall')
  · refine h.vjIds.mono (fun row hrow => ?_) (fun t ht => ?_)
    · rw [List.flatMap_cons, List.map_append, ← List.append_assoc]
      exact List.mem_append_left _ (hids row hrow)
    · rw [List.flatMap_cons]
      exact List.mem_append_right _ ht
  · exact hrtuIds.2
  · intro call' hcall' id hmem
    rcases hassociations _ hmem with hold | hnew
    · exact h.links call' (List.mem_cons_of_mem call hcall') id hold
    · exact hrtuIds.1 (List.mem_map.2 ⟨call', hcall', hnew⟩)

/-- A call of the contributor finds the same rows in both databases. -/
theorem SameView.findsOwnRows
    (h : SameView c db db') (hof : call.builder.contributorId = c)
    (hown : FindsOwnRows db call) :
    FindsOwnRows db' call := by
  intro t ht row' hfind'
  obtain ⟨row, hrow, hkey⟩ := h.keys row' (findByDatedVj_mem hfind')
  have hfind := findByDatedVj_of_mem db.uniqueDatedVj hrow
    (hkey.trans (findByDatedVj_key hfind'))
  have hmem : row ∈ ofContributor c db'.tripUpdates := by
    rw [h.rows]
    exact mem_ofContributor.2 ⟨hrow, (hown t ht row hfind).trans hof⟩
  obtain ⟨hmem, hc⟩ := mem_ofContributor.1 hmem
  rw [← KeyedStore.eq_of_key_eq db'.uniqueDatedVj hmem (findByDatedVj_mem hfind')
    hkey, hc, hof]

/-- A call of the contributor does the same in both databases. -/
theorem SameView.own
    (h : SameView c db db') (hof : call.builder.contributorId = c)
    (hbuilt : BuiltCalls db (call :: calls))
    {calls' : List HandleCall} (hbuilt' : BuiltCalls db' (call :: calls'))
    (hown : FindsOwnRows db call) :
    (call.run db').published = (call.run db).published ∧
      SameView c (call.run db).db (call.run db').db := by
  subst hof
  have hsession := hbuilt.ownSession hown
  have hsession' := hbuilt'.ownSession (h.findsOwnRows rfl hown)
  obtain ⟨hpub, hrows⟩ := handle_view call.builder call.brokerUp hsession
    (hbuilt.links call List.mem_cons_self)
  obtain ⟨hpub', hrows'⟩ := handle_view call.builder call.brokerUp hsession'
    (hbuilt'.links call List.mem_cons_self)
  have hview : viewDb call.builder.contributorId db' =
      viewDb call.builder.contributorId db := by
    simp only [viewDb, h.rows]
  rw [hview] at hpub' hrows'
  have hsame : ofContributor call.builder.contributorId
        (call.run db').db.tripUpdates =
      ofContributor call.builder.contributorId
        (call.run db).db.tripUpdates :=
    hrows'.symm.trans hrows
  refine ⟨hpub'.symm.trans hpub, hsame, ?_⟩
  intro row' hrow'
  by_cases hc : row'.contributorId = call.builder.contributorId
  · have hmem : row' ∈ ofContributor call.builder.contributorId
        (call.run db').db.tripUpdates :=
      mem_ofContributor.2 ⟨hrow', hc⟩
    rw [hsame] at hmem
    exact ⟨row', (mem_ofContributor.1 hmem).1, rfl⟩
  · have hmem : row' ∈ ofContributor row'.contributorId
        (call.run db').db.tripUpdates :=
      mem_ofContributor.2 ⟨hrow', rfl⟩
    rw [HandleCall.run, handle_other call.brokerUp hsession' hc] at hmem
    obtain ⟨row, hrow, hkey⟩ := h.keys row' (mem_ofContributor.1 hmem).1
    obtain ⟨row'', hrow'', hvj⟩ := (handle_grows call.builder call.brokerUp db
      call.rtu call.tripUpdates).1 row hrow
    exact ⟨row'', hrow'', by rw [hvj, hkey]⟩

/-- A call of another contributor changes nothing to the view. -/
theorem SameView.other
    (h : SameView c db db') (hof : call.builder.contributorId ≠ c)
    (hbuilt : BuiltCalls db (call :: calls)) (hown : FindsOwnRows db call) :
    SameView c (call.run db).db db' where
  rows := by
    rw [HandleCall.run, handle_other call.brokerUp (hbuilt.ownSession hown)
      hof.symm]
    exact h.rows
  keys := by
    intro row' hrow'
    obtain ⟨row, hrow, hkey⟩ := h.keys row' hrow'
    obtain ⟨row'', hrow'', hvj⟩ := (handle_grows call.builder call.brokerUp db
      call.rtu call.tripUpdates).1 row hrow
    exact ⟨row'', hrow'', by rw [hvj, hkey]⟩

/-- A call publishes with the routing key of its contributor. -/
theorem publishedFor_run
    (c : String) (call : HandleCall) (db : Db) :
    publishedFor c (call.run db).published.toList =
      if call.isOf c then (call.run db).published.toList else [] := by
  cases hpub : (call.run db).published with
  | none =>
      simp [publishedFor]
  | some p =>
      have hkey : p.contributorId = call.builder.contributorId := by
        obtain ⟨r, hok⟩ := outcome_of_published hpub
        obtain ⟨s, db1, entities, -, -, -, hsome⟩ := handle_ok hok
        rw [HandleCall.run, hsome] at hpub
        rw [← Option.some_inj.1 hpub]
      simp [publishedFor, HandleCall.isOf, hkey, List.filter_cons]

/-- The calls of a contributor alone keep its rows and its publications. -/
theorem SameView.run
    (h : SameView c db db') (hbuilt : BuiltCalls db calls)
    (hbuilt' : BuiltCalls db' (calls.filter (HandleCall.isOf c)))
    (hown : FindsOwnRowsAlong db calls) :
    ofContributor c
          (runCalls db' (calls.filter (HandleCall.isOf c))).1.tripUpdates =
        ofContributor c (runCalls db calls).1.tripUpdates ∧
      publishedFor c (runCalls db' (calls.filter (HandleCall.isOf c))).2 =
        publishedFor c (runCalls db calls).2 := by
  induction calls generalizing db db' with
  | nil =>
      exact ⟨h.rows, rfl⟩
  | cons call rest ih =>
      have hpub := publishedFor_run c call db
      cases hof : call.isOf c with
      | true =>
          have hc : call.builder.contributorId = c := beq_iff_eq.1 hof
          rw [List.filter_cons_of_pos hof] at hbuilt' ⊢
          obtain ⟨hsame, hview⟩ := h.own hc hbuilt hbuilt' hown.1
          obtain ⟨hrows, hpubs⟩ := ih hview hbuilt.next hbuilt'.next hown.2
          refine ⟨hrows, ?_⟩
          simp only [runCalls, publishedFor, List.filter_append] at hpubs ⊢
          rw [hpubs, hsame]
      | false =>
          have hc : call.builder.contributorId ≠ c := beq_eq_false_iff_ne.1 hof
          rw [List.filter_cons_of_neg (by simp [hof])] at hbuilt' ⊢
          obtain ⟨hrows, hpubs⟩ :=
            ih (h.other hc hbuilt hown.1) hbuilt.next hbuilt' hown.2
          refine ⟨hrows, ?_⟩
          rw [hof] at hpub
          simp only [runCalls, publishedFor, List.filter_append] at hpub hpubs ⊢
          rw [hpubs, hpub]
          rfl

/-- The calls of one contributor among built calls are built calls. -/
theorem BuiltCalls.filter
    (h : BuiltCalls db calls) (p : HandleCall → Bool) :
    BuiltCalls db (calls.filter p) where
  authors := fun call hcall => h.authors call (List.mem_of_mem_filter hcall)
  vjIds := h.vjIds.mono
    (fun _ hrow => List.mem_append_left _ (List.mem_map_of_mem hrow))
    (fun _ ht => (List.Sublist.flatMap List.filter_sublist _).subset ht)
  rtuIds := h.rtuIds.sublist (List.filter_sublist.map _)
  links := fun call hcall => h.links call (List.mem_of_mem_filter hcall)

/--
Along a run of calls of any contributors, each of which only finds rows of its
own contributor, the rows of a contributor and its publications are those of a
run of its calls alone.
-/
theorem contributors_isolated
    (c : String) (hbuilt : BuiltCalls db calls)
    (hown : FindsOwnRowsAlong db calls) :
    (∀ startDate endDate,
        TripUpdate.findByContributorPeriod (runCalls db calls).1.tripUpdates
            [c] startDate endDate =
          TripUpdate.findByContributorPeriod
            (runCalls db (calls.filter (HandleCall.isOf c))).1.tripUpdates [c]
            startDate endDate) ∧
      publishedFor c (runCalls db calls).2 =
        publishedFor c (runCalls db (calls.filter (HandleCall.isOf c))).2 := by
  have hview : SameView c db db := ⟨rfl, fun row hrow => ⟨row, hrow, rfl⟩⟩
  obtain ⟨hrows, hpubs⟩ := hview.run hbuilt (hbuilt.filter _) hown
  refine ⟨fun startDate endDate => ?_, hpubs.symm⟩
  have hselect : ∀ rows,
      TripUpdate.findByContributorPeriod rows [c] startDate endDate =
        TripUpdate.findByContributorPeriod (ofContributor c rows) [c] startDate
          endDate := by
    intro rows
    rw [TripUpdate.findByContributorPeriod, TripUpdate.findByContributorPeriod,
      ofContributor, List.filter_filter]
    apply List.filter_congr
    intro row _
    by_cases hc : row.contributorId = c <;> simp [hc]
  rw [hselect, hselect (runCalls db _).1.tripUpdates, hrows]

end Run

namespace Sample

def piv : Builder where
  contributorId := "realtime.piv"
  connector := .piv

/-- A feed of the first contributor on the trip of three stops. -/
def cotsCall : HandleCall where
  builder := cots
  brokerUp := true
  rtu := received "1"
  tripUpdates := [onTime]

/-- A cancellation by the second contributor of the given vehicle journey. -/
def pivCall (vj : VehicleJourney) : HandleCall where
  builder := piv
  brokerUp := true
  rtu := { received "2" with connector := .piv, contributorId := "realtime.piv" }
  tripUpdates :=
    [{ onTime with
        vj := vj, status := .delete, effect := some .noService
        contributorId := "realtime.piv" }]

/-- The same train one day later. -/
def nextDay : VehicleJourney :=
  { trip (clock 32 0) with id := "7b1b" }

/-- The first contributor sends its feed again around that cancellation. -/
def nextDayCalls : List HandleCall :=
  [cotsCall, pivCall nextDay, { cotsCall with rtu := received "3" }]

/-- The same train on the same day, built for another feed. -/
def sameDay : VehicleJourney :=
  { trip (clock 8 0) with id := "7b1b" }

end Sample

theorem contributors_isolated_nextDay :
    (∀ startDate endDate,
        TripUpdate.findByContributorPeriod
            (runCalls Sample.emptyDb Sample.nextDayCalls).1.tripUpdates
            ["realtime.cots"] startDate endDate =
          TripUpdate.findByContributorPeriod
            (runCalls Sample.emptyDb (Sample.nextDayCalls.filter
              (HandleCall.isOf "realtime.cots"))).1.tripUpdates
            ["realtime.cots"] startDate endDate) ∧
      publishedFor "realtime.cots"
          (runCalls Sample.emptyDb Sample.nextDayCalls).2 =
        publishedFor "realtime.cots"
          (runCalls Sample.emptyDb (Sample.nextDayCalls.filter
            (HandleCall.isOf "realtime.cots"))).2 := by
  refine contributors_isolated "realtime.cots"
    ⟨by decide, by decide, by decide, ?_⟩ (by decide)
  simp [Sample.emptyDb]

/-- A contributor cancels the trip that another one has stored. -/
theorem contributors_not_isolated_sameDay :
    (TripUpdate.findByContributorPeriod
        (runCalls Sample.emptyDb
          [Sample.cotsCall, Sample.pivCall Sample.sameDay]).1.tripUpdates
        ["realtime.cots"] none none).map TripUpdate.status = [.delete] ∧
      (TripUpdate.findByContributorPeriod
        (runCalls Sample.emptyDb
          ([Sample.cotsCall, Sample.pivCall Sample.sameDay].filter
            (HandleCall.isOf "realtime.cots"))).1.tripUpdates
        ["realtime.cots"] none none).map TripUpdate.status = [.update] := by
  decide

end Core
end Kirin
