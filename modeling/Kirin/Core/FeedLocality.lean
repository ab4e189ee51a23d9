import Kirin.Core.FeedOutcome

/-!
# Kirin: a feed depends on the stored rows alone

Two databases with the same trip updates, in which a feed has no link yet, are
changed by the feed in the same way, whatever else they hold.

* `dbCommit_congr`: a commit succeeds in both, or fails in both.
* `SameChange`, `SameEffect`: what a feed does to the two databases.
* `wrapBuildFeed_sameEffect`: the processing of a feed has the same effect.
-/

namespace Kirin
namespace Core

/-- No trip update is linked to a feed. -/
def Unlinked (db : Db) (rtu : RealTimeUpdate) : Prop :=
  ∀ id, (rtu.id, id) ∉ db.associations

instance (db : Db) (rtu : RealTimeUpdate) : Decidable (Unlinked db rtu) :=
  decidable_of_iff (rtu.id ∉ db.associations.map Prod.fst)
    (by simp [Unlinked])

/-- A feed is stored, in place of the one of its identifier. -/
def Stores (db db1 : Db) (row : RealTimeUpdate) : Prop :=
  ∀ r, r ∈ db1.realTimeUpdates ↔
    r = row ∨ r ∈ db.realTimeUpdates ∧ r.id ≠ row.id

section Stores

variable {db db1 db2 : Db} {s : Session} {rtu row row' : RealTimeUpdate}

theorem stores_of_putRtu
    (h : db1.realTimeUpdates = putRtu db.realTimeUpdates row) :
    Stores db db1 row := by
  intro r
  rw [h]
  by_cases hid : r.id = row.id
  · rw [mem_putRtu hid]
    simp [hid]
  · have hne : r ≠ row := by
      rintro rfl
      exact hid rfl
    rw [mem_putRtu_of_ne hid]
    simp [hid, hne]

theorem Stores.trans
    (h : Stores db db1 row) (h' : Stores db1 db2 row')
    (hid : row.id = row'.id) :
    Stores db db2 row' := by
  intro r
  rw [h' r, h r, hid]
  constructor
  · rintro (rfl | ⟨rfl | hold, hne⟩)
    · exact Or.inl rfl
    · exact absurd hid hne
    · exact Or.inr hold
  · rintro (rfl | hold)
    · exact Or.inl rfl
    · exact Or.inr ⟨Or.inr hold, hold.2⟩

/-- The links of a session to a new feed are those it gives. -/
theorem unlinked_nodup_iff
    (h : Unlinked db rtu) (links : List String) :
    (db.associations ++ links.map (fun vjId => (rtu.id, vjId))).Nodup ↔
      links.Nodup := by
  constructor
  · intro hnodup
    exact List.Nodup.of_map _
      (hnodup.sublist (List.sublist_append_right _ _))
  · exact nodup_associations h

end Stores

section SameRows

variable {db db' : Db} {rtu : RealTimeUpdate}

/-- A commit succeeds or fails alike in databases with the same rows. -/
theorem dbCommit_congr
    (h : Unlinked db rtu) (h' : Unlinked db' rtu) (s : Session) :
    (∃ e, dbCommit db s rtu = .error e ∧ dbCommit db' s rtu = .error e) ∨
      ∃ db1 db1', dbCommit db s rtu = .ok db1 ∧
        dbCommit db' s rtu = .ok db1' := by
  have hlinks := unlinked_nodup_iff h s.links
  have hlinks' := unlinked_nodup_iff h' s.links
  simp only [dbCommit, hlinks, hlinks']
  split
  · split
    · split
      · exact Or.inr ⟨_, _, rfl, rfl⟩
      · exact Or.inl ⟨.dataError, rfl, rfl⟩
    · exact Or.inl ⟨.integrityError, rfl, rfl⟩
  · exact Or.inl ⟨.valueError, rfl, rfl⟩

end SameRows

/-- Two databases with the same trip updates, changed alike for one feed. -/
structure SameChange (db db' : Db) (id : String) (db1 db1' : Db) : Prop where
  rows : db1.tripUpdates = db1'.tripUpdates
  stored : ∃ row, row.id = id ∧ Stores db db1 row ∧ Stores db' db1' row
  links : ∃ links : List (String × String), (∀ p ∈ links, p.1 = id) ∧
    db1.associations = db.associations ++ links ∧
    db1'.associations = db'.associations ++ links

/-- What a feed does to two databases with the same trip updates. -/
structure SameEffect
    (db db' : Db) (id : String) (result result' : HandleResult) : Prop where
  outcome : result.outcome = result'.outcome
  published : result.published = result'.published
  session : result.session = result'.session
  change : SameChange db db' id result.db result'.db

section Change

variable {db db' db1 db1' db2 db2' : Db} {id : String} {s : Session}
variable {rtu : RealTimeUpdate}

/-- The feed is stored in both databases. -/
theorem SameChange.save
    (hrows : db.tripUpdates = db'.tripUpdates) (rtu : RealTimeUpdate) :
    SameChange db db' rtu.id (db.saveRtu rtu) (db'.saveRtu rtu) where
  rows := hrows
  stored := ⟨rtu, rfl, stores_of_putRtu rfl, stores_of_putRtu rfl⟩
  links := ⟨[], by simp, by simp, by simp⟩

/-- The feed is stored again in both databases. -/
theorem SameChange.saveAgain
    (h : SameChange db db' id db1 db1') (hid : rtu.id = id) :
    SameChange db db' id (db1.saveRtu rtu) (db1'.saveRtu rtu) := by
  obtain ⟨row, hrow, hstores, hstores'⟩ := h.stored
  have heq := hrow.trans hid.symm
  exact
    { rows := h.rows
      stored := ⟨rtu, hid, hstores.trans (stores_of_putRtu rfl) heq,
        hstores'.trans (stores_of_putRtu rfl) heq⟩
      links := h.links }

/-- A session is committed with the feed in both databases. -/
theorem SameChange.commit
    (h : SameChange db db' id db1 db1') (hid : rtu.id = id)
    (hcommit : dbCommit db1 s rtu = .ok db2)
    (hcommit' : dbCommit db1' s rtu = .ok db2') :
    SameChange db db' id db2 db2' := by
  obtain ⟨row, hrow, hstores, hstores'⟩ := h.stored
  have heq := hrow.trans hid.symm
  obtain ⟨hrows, hassociations⟩ := dbCommit_ok hcommit
  obtain ⟨hrows', hassociations'⟩ := dbCommit_ok hcommit'
  obtain ⟨links, hlinks, hold, hold'⟩ := h.links
  refine ⟨hrows.trans hrows'.symm, ⟨rtu, hid, ?_, ?_⟩,
    ⟨links ++ s.links.map (fun vjId => (rtu.id, vjId)), ?_, ?_, ?_⟩⟩
  · exact hstores.trans
      (stores_of_putRtu (dbCommit_realTimeUpdates hcommit)) heq
  · exact hstores'.trans
      (stores_of_putRtu (dbCommit_realTimeUpdates hcommit')) heq
  · intro p hp
    rcases List.mem_append.1 hp with hp | hp
    · exact hlinks p hp
    · obtain ⟨vjId, -, rfl⟩ := List.mem_map.1 hp
      exact hid
  · rw [hassociations, hold, List.append_assoc]
  · rw [hassociations', hold', List.append_assoc]

end Change

theorem Unlinked.of_id
    {db : Db} {rtu rtu' : RealTimeUpdate} (h : Unlinked db rtu)
    (hid : rtu'.id = rtu.id) :
    Unlinked db rtu' := by
  intro id
  rw [hid]
  exact h id

section Congr

variable {b : Builder} {network : Network} {db db' db0 db0' : Db}
variable {rtu : RealTimeUpdate}

/-- Trip updates are handled alike on two databases with the same rows. -/
theorem handle_sameEffect
    {id : String} {brokerUp : Bool} (h : SameChange db0 db0' id db db')
    (hid : rtu.id = id) (hnew : Unlinked db rtu) (hnew' : Unlinked db' rtu)
    (ts : List NewTripUpdate) :
    SameEffect db0 db0' id (handle b brokerUp db rtu ts)
      (handle b brokerUp db' rtu ts) := by
  have hsession : db.session = db'.session := by
    simp only [Db.session, h.rows]
  cases hloop : handleLoop b db'.session ts with
  | mk s result =>
      cases result with
      | error e =>
          simp only [handle, hsession, hloop]
          exact ⟨rfl, rfl, rfl, h⟩
      | ok u =>
          rcases dbCommit_congr hnew hnew' s with
            ⟨e, herror, herror'⟩ | ⟨db1, db1', hcommit, hcommit'⟩
          · simp only [handle, hsession, hloop, herror, herror']
            exact ⟨rfl, rfl, rfl, h⟩
          · have hchange := h.commit hid hcommit hcommit'
            have hsame : db1.tripUpdatesOf rtu = db1'.tripUpdatesOf rtu := by
              rw [tripUpdatesOf_eq hcommit hnew, tripUpdatesOf_eq hcommit' hnew']
            simp only [handle, hsession, hloop, hcommit, hcommit', hsame]
            cases convertToGtfsrt (db1'.tripUpdatesOf rtu) with
            | error e =>
                exact ⟨rfl, rfl, rfl, hchange⟩
            | ok entities =>
                cases brokerUp with
                | false =>
                    exact ⟨rfl, rfl, rfl, hchange⟩
                | true =>
                    simp only [Bool.not_true, Bool.false_eq_true, if_false]
                    split
                    · exact ⟨rfl, rfl, rfl, hchange.saveAgain hid⟩
                    · exact ⟨rfl, rfl, rfl, hchange⟩

/-- Only a loop that raises leaves something to commit. -/
theorem handle_db_of_dirty
    {brokerUp : Bool} {ts : List NewTripUpdate} {s : Session}
    (hdirty : (handle b brokerUp db rtu ts).session = .dirty s) :
    (handle b brokerUp db rtu ts).db = db := by
  cases hloop : handleLoop b db.session ts with
  | mk s1 result =>
      cases result with
      | error e =>
          rw [handle_raises hloop]
      | ok u =>
          cases hcommit : dbCommit db s1 rtu with
          | error e =>
              simp only [handle, hloop, hcommit]
          | ok db1 =>
              rw [handle_clean hloop hcommit] at hdirty
              cases hdirty

/-- A failure is recorded alike. -/
theorem recordFailure_sameEffect
    {id : String} {redisUp : Bool} {result result' : HandleResult}
    (h : SameEffect db db' id result result') (hid : rtu.id = id)
    (hnew : ∀ s, result.session = .dirty s →
      Unlinked result.db rtu ∧ Unlinked result'.db rtu) :
    SameEffect db db' id (recordFailure redisUp rtu result)
      (recordFailure redisUp rtu result') := by
  obtain ⟨db1, published, session, outcome⟩ := result
  obtain ⟨db1', published', session', outcome'⟩ := result'
  obtain ⟨houtcome, hpublished, hsession, hchange⟩ := h
  simp only at houtcome hpublished hsession hchange hnew
  subst houtcome hpublished hsession
  cases outcome with
  | ok r =>
      exact ⟨rfl, rfl, rfl, hchange⟩
  | error e =>
      cases session with
      | failed =>
          exact ⟨rfl, rfl, rfl, hchange⟩
      | clean =>
          simp only [recordFailure]
          split
          · exact ⟨rfl, rfl, rfl, hchange⟩
          · split
            · exact ⟨rfl, rfl, rfl, hchange.saveAgain hid⟩
            · exact ⟨rfl, rfl, rfl, hchange⟩
      | dirty s =>
          obtain ⟨hnew, hnew'⟩ := hnew s rfl
          have hko : (setRtuStatusKo rtu (errorOf e)).id = rtu.id := rfl
          simp only [recordFailure]
          split
          · exact ⟨rfl, rfl, rfl, hchange⟩
          · rcases dbCommit_congr (hnew.of_id hko) (hnew'.of_id hko) s with
              ⟨e', herror, herror'⟩ | ⟨db2, db2', hcommit, hcommit'⟩
            · rw [herror, herror']
              exact ⟨rfl, rfl, rfl, hchange⟩
            · rw [hcommit, hcommit']
              exact ⟨rfl, rfl, rfl,
                hchange.commit (hko.trans hid) hcommit hcommit'⟩

/--
The processing of a new feed has the same effect on two databases with the same
trip updates.
-/
theorem wrapBuildFeed_sameEffect
    (hrows : db.tripUpdates = db'.tripUpdates)
    (hnew : Unlinked db rtu) (hnew' : Unlinked db' rtu)
    (build : List TripUpdate → Except PyException BuiltFeed) :
    SameEffect db db' rtu.id (wrapBuildFeed b network db rtu build)
      (wrapBuildFeed b network db' rtu build) := by
  have hsave := SameChange.save hrows rtu
  simp only [wrapBuildFeed, Db.saveRtu_tripUpdates, hrows]
  cases build db'.tripUpdates with
  | error e =>
      refine recordFailure_sameEffect ⟨rfl, rfl, rfl, hsave⟩ rfl ?_
      intro s hdirty
      cases hdirty
  | ok built =>
      have hmarked : Unlinked (db.saveRtu rtu) (built.mark rtu) :=
        hnew.of_id (by simp)
      have hmarked' : Unlinked (db'.saveRtu rtu) (built.mark rtu) :=
        hnew'.of_id (by simp)
      have hhandled : SameEffect db db' rtu.id
          (handle b network.brokerUp _ _ built.tripUpdates) _ :=
        handle_sameEffect hsave (built.mark_id rtu) hmarked hmarked' _
      refine recordFailure_sameEffect hhandled (built.mark_id rtu)
        (fun s hdirty => ⟨?_, ?_⟩)
      · rw [handle_db_of_dirty hdirty]
        exact hmarked
      · rw [hhandled.session] at hdirty
        rw [handle_db_of_dirty hdirty]
        exact hmarked'

end Congr

end Core
end Kirin
