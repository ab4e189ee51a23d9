import Kirin.Core.HandleRules

/-!
# Kirin: a feed with one trip update

The session that a single trip update leaves, told against the stored rows.

* `allRows_of_some`, `allRows_of_none`: the stored row is overwritten, or a row
  is added when the trip is accepted.
* `handleTripUpdate_unchanged`: a trip update that leaves the stored trip as it
  is changes no row.
* `fitsDatabase_single`: a single trip update can be committed.
* `handle_unlinked`: a call that links nothing commits the rows it has.
-/

namespace Kirin
namespace Core

section Session

variable {b : Builder} {s : Session} {db : Db} {t : NewTripUpdate}
variable {old : TripUpdate}

theorem handleLoop_single
    (b : Builder) (s : Session) (t : NewTripUpdate) :
    handleLoop b s [t] = handleTripUpdate b s t := by
  simp only [handleLoop]
  cases handleTripUpdate b s t with
  | mk s1 r =>
      cases r <;> rfl

/-- The loop over a trip that is processed returns. -/
theorem handleLoop_single_ok
    {linked : Bool}
    (h : (processTripUpdate b (findByDatedVj s.rows t.vj) t).linked =
      .ok linked) :
    handleLoop b s [t] = ((handleTripUpdate b s t).1, .ok ()) := by
  have houtcome := handleTripUpdate_outcome b s t
  rw [h] at houtcome
  rw [handleLoop_single]
  exact Prod.ext rfl houtcome

/-- A stored row is overwritten. -/
theorem allRows_of_some
    (hfind : findByDatedVj db.tripUpdates t.vj = some old) :
    (handleTripUpdate b db.session t).1.allRows =
      replaceRow db.tripUpdates
        (processTripUpdate b (some old) t).tripUpdate := by
  have hcreated := handleTripUpdate_created b db.session t
  rw [show db.session.rows = db.tripUpdates from rfl, hfind,
    if_neg (fun hc => nomatch hc.1)] at hcreated
  rw [Session.allRows, hcreated,
    handleTripUpdate_rows_of_some b (s := db.session) hfind]
  exact List.append_nil _

/-- A row is added for a trip that is not stored, when it is accepted. -/
theorem allRows_of_none
    (hfind : findByDatedVj db.tripUpdates t.vj = none) :
    (handleTripUpdate b db.session t).1.allRows =
      db.tripUpdates ++
        if (processTripUpdate b none t).linked = .ok true then
          [(processTripUpdate b none t).tripUpdate]
        else [] := by
  have hcreated := handleTripUpdate_created b db.session t
  rw [show db.session.rows = db.tripUpdates from rfl] at hcreated
  rw [Session.allRows, handleTripUpdate_rows_of_none b (s := db.session) hfind,
    hcreated]
  simp [hfind, Db.session]

/-- A single trip update gives at most one link. -/
theorem links_single
    (b : Builder) (db : Db) (t : NewTripUpdate) :
    (handleTripUpdate b db.session t).1.links.Nodup := by
  rw [handleTripUpdate_links]
  split
  · simp [Db.session]
  · exact List.nodup_nil

/-- A trip update that leaves the stored trip as it is changes no row. -/
theorem handleTripUpdate_unchanged
    (h : storedAfter b (findByDatedVj db.tripUpdates t.vj) t =
      findByDatedVj db.tripUpdates t.vj) :
    (handleTripUpdate b db.session t).1.allRows = db.tripUpdates := by
  cases hfind : findByDatedVj db.tripUpdates t.vj with
  | none =>
      rw [hfind, storedAfter] at h
      have hnotLinked : (processTripUpdate b none t).linked ≠ .ok true := by
        intro hlinked
        simp [hlinked] at h
      rw [allRows_of_none hfind, if_neg hnotLinked, List.append_nil]
  | some old =>
      rw [hfind, storedAfter_some] at h
      rw [allRows_of_some hfind, Option.some.inj h, replaceRow_eq]
      exact (KeyedStore.replace_eq_self_iff db.uniqueVj
        (findByDatedVj_mem hfind) rfl).2 rfl

/-- A stored row keeps its vehicle journey when it is overwritten. -/
theorem replaceRow_processed_vj
    (b : Builder) (t : NewTripUpdate) (hold : old ∈ db.tripUpdates) :
    (replaceRow db.tripUpdates
        (processTripUpdate b (some old) t).tripUpdate).map TripUpdate.vj =
      db.tripUpdates.map TripUpdate.vj := by
  have hvj : (processTripUpdate b (some old) t).tripUpdate.vj = old.vj :=
    processTripUpdate_vj
  exact KeyedStore.replace_map db.uniqueVj hold
    (congrArg VehicleJourney.id hvj) hvj

/-- The vehicle journeys of the rows are those stored, and that of a new row. -/
theorem allRows_vj
    (b : Builder) (db : Db) (t : NewTripUpdate) :
    (handleTripUpdate b db.session t).1.allRows.map TripUpdate.vj =
      db.tripUpdates.map TripUpdate.vj ++
        if findByDatedVj db.tripUpdates t.vj = none ∧
            (processTripUpdate b none t).linked = .ok true
        then [t.vj] else [] := by
  cases hfind : findByDatedVj db.tripUpdates t.vj with
  | none =>
      rw [allRows_of_none hfind, List.map_append]
      simp only [true_and]
      split
      · rw [List.map_singleton, processTripUpdate_vj]
        rfl
      · rfl
  | some old =>
      rw [allRows_of_some hfind,
        replaceRow_processed_vj b t (findByDatedVj_mem hfind)]
      simp

/-- The rows keep distinct keys when a new trip has a new one. -/
theorem keys_single
    {α : Type} (f : VehicleJourney → α)
    (hnodup : (db.tripUpdates.map (fun tu => f tu.vj)).Nodup)
    (hnew : findByDatedVj db.tripUpdates t.vj = none →
      ∀ row ∈ db.tripUpdates, f row.vj ≠ f t.vj) :
    ((handleTripUpdate b db.session t).1.allRows.map
      (fun tu => f tu.vj)).Nodup := by
  have hvjs := congrArg (List.map f) (allRows_vj b db t)
  rw [List.map_map, List.map_append, List.map_map] at hvjs
  change List.map (fun tu : TripUpdate => f tu.vj) _ =
    List.map (fun tu : TripUpdate => f tu.vj) _ ++ _ at hvjs
  rw [hvjs]
  split
  · rename_i hcreated
    rw [List.map_singleton, List.nodup_append]
    refine ⟨hnodup, by simp, ?_⟩
    intro k hk k' hk' heq
    obtain ⟨row, hrow, rfl⟩ := List.mem_map.1 hk
    exact hnew hcreated.1 row hrow (heq.trans (List.mem_singleton.1 hk'))
  · rw [List.map_nil, List.append_nil]
    exact hnodup

/-- What is left for a trip has the effect of the feed. -/
theorem effectInDatabase_processed
    (b : Builder) (old : Option TripUpdate)
    (heffect : EffectInDatabase t.toTripUpdate) :
    EffectInDatabase (processTripUpdate b old t).tripUpdate := by
  intro e he
  rw [processTripUpdate_header.2] at he
  exact heffect e he

/-- What holds of the stored rows and of the row left holds of all the rows. -/
theorem forall_allRows_single
    {P : TripUpdate → Prop} (hstored : ∀ row ∈ db.tripUpdates, P row)
    (hleft : ∀ row ∈ storedAfter b (findByDatedVj db.tripUpdates t.vj) t, P row) :
    ∀ row ∈ (handleTripUpdate b db.session t).1.allRows, P row := by
  intro row hrow
  cases hfind : findByDatedVj db.tripUpdates t.vj with
  | none =>
      rw [hfind] at hleft
      rw [allRows_of_none hfind] at hrow
      rcases List.mem_append.1 hrow with hmem | hcreated
      · exact hstored row hmem
      · split at hcreated
        · rename_i hlinked
          rw [List.mem_singleton.1 hcreated]
          exact hleft _ (storedAfter_linked hlinked)
        · cases hcreated
  | some old =>
      rw [hfind] at hleft
      rw [allRows_of_some hfind] at hrow
      rcases KeyedStore.of_mem_replace hrow with rfl | hmem
      · exact hleft _ (storedAfter_some b old t)
      · exact hstored row hmem

/-- A trip update keeps the rows of the other trips. -/
theorem handleTripUpdate_keeps
    (hnodup : (s.rows.map rowId).Nodup) {row : TripUpdate}
    (hrow : row ∈ s.allRows) (hkey : t.vj.datedKey ≠ row.vj.datedKey) :
    row ∈ (handleTripUpdate b s t).1.allRows := by
  rcases List.mem_append.1 hrow with hstored | hcreated
  · refine List.mem_append_left _ ?_
    cases hfind : findByDatedVj s.rows t.vj with
    | none =>
        rw [handleTripUpdate_rows_of_none b hfind]
        exact hstored
    | some old =>
        rw [handleTripUpdate_rows_of_some b hfind, replaceRow_eq,
          KeyedStore.mem_replace_of_ne]
        · exact hstored
        · intro hid
          have hold := findByDatedVj_mem hfind
          rw [show rowId (processTripUpdate b (some old) t).tripUpdate =
            rowId old from congrArg VehicleJourney.id processTripUpdate_vj] at hid
          have heq := KeyedStore.eq_of_key_eq hnodup hstored hold hid
          exact hkey (by rw [heq, findByDatedVj_key hfind])
  · refine List.mem_append_right _ ?_
    rw [handleTripUpdate_created]
    split
    · exact List.mem_append_left _ hcreated
    · exact hcreated

/-- A linked trip has the row that is left for it. -/
theorem mem_allRows_of_linked
    (hlinked :
      (processTripUpdate b (findByDatedVj s.rows t.vj) t).linked = .ok true) :
    (processTripUpdate b (findByDatedVj s.rows t.vj) t).tripUpdate ∈
      (handleTripUpdate b s t).1.allRows := by
  cases hfind : findByDatedVj s.rows t.vj with
  | none =>
      rw [hfind] at hlinked
      refine List.mem_append_right _ ?_
      rw [handleTripUpdate_created, if_pos ⟨hfind, hlinked⟩]
      simp
  | some old =>
      refine List.mem_append_left _ ?_
      rw [handleTripUpdate_rows_of_some b hfind]
      exact KeyedStore.mem_replace (findByDatedVj_mem hfind)
        (congrArg VehicleJourney.id processTripUpdate_vj)

/-- The row left for a trip has its dated vehicle journey. -/
theorem processTripUpdate_datedKey
    (b : Builder) (rows : List TripUpdate) (t : NewTripUpdate) :
    (processTripUpdate b (findByDatedVj rows t.vj) t).tripUpdate.vj.datedKey =
      t.vj.datedKey := by
  rw [processTripUpdate_vj]
  cases hfind : findByDatedVj rows t.vj with
  | none =>
      rfl
  | some old =>
      exact findByDatedVj_key hfind

end Session

section Call

variable {b : Builder} {brokerUp : Bool} {db : Db} {rtu : RealTimeUpdate}
variable {t : NewTripUpdate}

/--
A single trip update can be committed when its row can: it breaks no key of the
database.
-/
theorem fitsDatabase_single
    (hfresh : ∀ id, (rtu.id, id) ∉ db.associations)
    (hid : findByDatedVj db.tripUpdates t.vj = none →
      ∀ row ∈ db.tripUpdates, rowId row ≠ t.vj.id)
    (heffect : EffectInDatabase t.toTripUpdate)
    (htexts : ∀ row ∈ storedAfter b (findByDatedVj db.tripUpdates t.vj) t,
      TextsFit row)
    (herror : rtu.ErrorFits) :
    FitsDatabase db rtu (handleTripUpdate b db.session t).1 where
  ids := keys_single VehicleJourney.id db.uniqueVj hid
  keys := keys_single VehicleJourney.datedKey db.uniqueDatedVj
    (fun hnone _ hrow => findByDatedVj_ne_key hnone hrow)
  links := nodup_associations hfresh (links_single b db t)
  effects := forall_allRows_single db.effects (fun row hrow => by
    rw [storedAfter] at hrow
    split at hrow
    · cases hrow
      exact effectInDatabase_processed b _ heffect
    · cases hrow)
  texts := forall_allRows_single db.texts htexts
  error := herror

/-- A call for a trip that is left as it is changes no row, committed or not. -/
theorem handle_unchanged
    (h : storedAfter b (findByDatedVj db.tripUpdates t.vj) t =
      findByDatedVj db.tripUpdates t.vj) :
    (handle b brokerUp db rtu [t]).db.tripUpdates = db.tripUpdates := by
  have hrows := handleTripUpdate_unchanged h
  rw [← handleLoop_single] at hrows
  cases hloop : handleLoop b db.session [t] with
  | mk s r =>
      rw [hloop] at hrows
      cases r with
      | error e =>
          rw [handle_raises hloop]
      | ok u =>
          cases hcommit : dbCommit db s rtu with
          | error e =>
              simp [handle, hloop, hcommit]
          | ok db1 =>
              rw [(handle_committed hloop hcommit).1]
              exact hrows

/-- A call for one trip that is not linked commits the rows it has. -/
theorem handle_unlinked
    (hlinked :
      (processTripUpdate b (findByDatedVj db.tripUpdates t.vj) t).linked =
        .ok false)
    (heffects : ∀ tu ∈ (handleTripUpdate b db.session t).1.rows,
      EffectInDatabase tu)
    (htexts : ∀ tu ∈ (handleTripUpdate b db.session t).1.rows, TextsFit tu)
    (herror : rtu.ErrorFits) :
    (handle b brokerUp db rtu [t]).db.tripUpdates =
      (handleTripUpdate b db.session t).1.rows := by
  have hloop := handleLoop_single_ok (s := db.session) hlinked
  have hlinks : (handleTripUpdate b db.session t).1.links = [] := by
    rw [handleTripUpdate_links, show db.session.rows = db.tripUpdates from rfl,
      hlinked]
    rfl
  have hcreated : (handleTripUpdate b db.session t).1.created = [] := by
    rw [handleTripUpdate_created, if_neg]
    · rfl
    · rintro ⟨hnone, haccepted⟩
      rw [show findByDatedVj db.tripUpdates t.vj = none from hnone,
        haccepted] at hlinked
      cases hlinked
  have hvj := handleTripUpdate_rows_vj (b := b) (s := db.session) (t := t)
    db.uniqueVj
  obtain ⟨db1, hcommit⟩ : ∃ db1,
      dbCommit db (handleTripUpdate b db.session t).1 rtu = .ok db1 :=
    dbCommit_unlinked hlinks hcreated hvj heffects htexts herror
  rw [(handle_committed hloop hcommit).1, Session.allRows, hcreated,
    List.append_nil]

end Call

end Core
end Kirin
