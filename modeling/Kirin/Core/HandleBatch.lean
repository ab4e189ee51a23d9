import Kirin.Core.HandleRules

/-!
# Kirin: a feed with several trip updates

When the trip updates of a feed concern distinct dated vehicle journeys, each of
them is processed against the row stored before the call, whatever the others
do.

* `handleLoop_distinct`: rows, links and created rows after the loop of such a
  feed.
* `findByDatedVj_committed`: the row of each trip after the commit.
* `handleLoop_fixed`: a loop in which every trip is left as it is changes no
  row.
-/

namespace Kirin
namespace Core

section Rows

variable {rows : List TripUpdate} {old tu : TripUpdate}

/-- Overwriting a row only changes what is found for its own vehicle journey. -/
theorem findByDatedVj_replaceRow
    (hids : (rows.map rowId).Nodup)
    (hkeys : (rows.map (fun row => row.vj.datedKey)).Nodup)
    (hold : old ∈ rows) (hvj : tu.vj = old.vj) (vj : VehicleJourney) :
    findByDatedVj (replaceRow rows tu) vj =
      if old.vj.datedKey = vj.datedKey then some tu
      else findByDatedVj rows vj := by
  have hid : rowId tu = rowId old := congrArg VehicleJourney.id hvj
  have hvjs :
      (replaceRow rows tu).map TripUpdate.vj = rows.map TripUpdate.vj :=
    KeyedStore.replace_map hids hold hid hvj
  have hkeys' :
      ((replaceRow rows tu).map (fun row => row.vj.datedKey)).Nodup := by
    rw [map_of_vj_eq VehicleJourney.datedKey hvjs]
    exact hkeys
  split
  · rename_i hkey
    refine findByDatedVj_of_mem hkeys' (KeyedStore.mem_replace hold hid) ?_
    rw [hvj, hkey]
  · rename_i hkey
    have hother :
        ∀ row ∈ rows, row.vj.datedKey = vj.datedKey →
          rowId row ≠ rowId tu := by
      intro row hrow hrowkey heq
      have := KeyedStore.eq_of_key_eq hids hrow hold (heq.trans hid)
      exact hkey (by rw [← this, hrowkey])
    cases hfind : findByDatedVj rows vj with
    | some row =>
        have hrow := findByDatedVj_mem hfind
        have hrowkey := findByDatedVj_key hfind
        refine findByDatedVj_of_mem hkeys' ?_ hrowkey
        rw [replaceRow_eq,
          KeyedStore.mem_replace_of_ne (hother row hrow hrowkey)]
        exact hrow
    | none =>
        refine List.find?_eq_none.2 (fun row hrow hmatch => ?_)
        have hrowkey : row.vj.datedKey = vj.datedKey := by
          simpa using hmatch
        have hne : rowId row ≠ rowId tu := by
          intro heq
          have hids' : ((replaceRow rows tu).map rowId).Nodup := by
            rw [map_of_vj_eq VehicleJourney.id hvjs]
            exact hids
          have := KeyedStore.eq_of_key_eq hids' hrow
            (KeyedStore.mem_replace hold hid) heq
          rw [this, hvj] at hrowkey
          exact hkey hrowkey
        rw [replaceRow_eq, KeyedStore.mem_replace_of_ne hne] at hrow
        exact List.find?_eq_none.1 hfind row hrow hmatch

end Rows

theorem filterMap_cons_toList
    {α β : Type} (g : α → Option β) (a : α) (l : List α) :
    (a :: l).filterMap g = (g a).toList ++ l.filterMap g := by
  cases hga : g a with
  | none =>
      simp [hga]
  | some b =>
      simp [hga]

/-- The link a trip update gives, against the given rows. -/
def linkOf (b : Builder) (rows : List TripUpdate) (t : NewTripUpdate) :
    Option String :=
  if (processTripUpdate b (findByDatedVj rows t.vj) t).linked = .ok true then
    some (rowId (processTripUpdate b (findByDatedVj rows t.vj) t).tripUpdate)
  else none

/-- The row a trip update creates, against the given rows. -/
def createdOf (b : Builder) (rows : List TripUpdate) (t : NewTripUpdate) :
    Option TripUpdate :=
  if findByDatedVj rows t.vj = none ∧
      (processTripUpdate b none t).linked = .ok true then
    some (processTripUpdate b none t).tripUpdate
  else none

/-- The trip updates of a feed concern distinct dated vehicle journeys. -/
def DistinctTrips (ts : List NewTripUpdate) : Prop :=
  (ts.map (fun t => t.vj.datedKey)).Nodup

section Loop

variable {b : Builder} {s s' : Session} {t : NewTripUpdate}
variable {ts : List NewTripUpdate}

theorem handleTripUpdate_links_eq
    (b : Builder) (s : Session) (t : NewTripUpdate) :
    (handleTripUpdate b s t).1.links =
      s.links ++ (linkOf b s.rows t).toList := by
  rw [handleTripUpdate_links, linkOf]
  split <;> simp

theorem handleTripUpdate_created_eq
    (b : Builder) (s : Session) (t : NewTripUpdate) :
    (handleTripUpdate b s t).1.created =
      s.created ++ (createdOf b s.rows t).toList := by
  rw [handleTripUpdate_created, createdOf]
  split <;> simp

/-- A trip update only changes what is found for its own vehicle journey. -/
theorem findByDatedVj_handleTripUpdate
    (hids : (s.rows.map rowId).Nodup)
    (hkeys : (s.rows.map (fun row => row.vj.datedKey)).Nodup)
    (vj : VehicleJourney) :
    findByDatedVj (handleTripUpdate b s t).1.rows vj =
      if t.vj.datedKey = vj.datedKey then
        (findByDatedVj s.rows t.vj).map
          (fun old => (processTripUpdate b (some old) t).tripUpdate)
      else findByDatedVj s.rows vj := by
  cases hfind : findByDatedVj s.rows t.vj with
  | none =>
      rw [handleTripUpdate_rows_of_none b hfind]
      split
      · rename_i hkey
        unfold findByDatedVj at hfind ⊢
        rw [← hkey, hfind]
        rfl
      · rfl
  | some old =>
      have hvj :
          (processTripUpdate b (some old) t).tripUpdate.vj = old.vj :=
        processTripUpdate_vj
      rw [handleTripUpdate_rows_of_some b hfind,
        findByDatedVj_replaceRow hids hkeys (findByDatedVj_mem hfind) hvj,
        findByDatedVj_key hfind]
      rfl

/-- What the loop of a feed on distinct trips does to a session. -/
structure LoopResult
    (b : Builder) (s s' : Session) (ts : List NewTripUpdate) : Prop where
  rows : ∀ t ∈ ts,
    findByDatedVj s'.rows t.vj =
      (findByDatedVj s.rows t.vj).map
        (fun old => (processTripUpdate b (some old) t).tripUpdate)
  others : ∀ vj : VehicleJourney,
    (∀ t ∈ ts, t.vj.datedKey ≠ vj.datedKey) →
    findByDatedVj s'.rows vj = findByDatedVj s.rows vj
  links : s'.links = s.links ++ ts.filterMap (linkOf b s.rows)
  created : s'.created = s.created ++ ts.filterMap (createdOf b s.rows)
  normal : ∀ t ∈ ts, ∃ accepted,
    (processTripUpdate b (findByDatedVj s.rows t.vj) t).linked = .ok accepted

/-- Each trip of a feed on distinct trips is processed against its own row. -/
theorem handleLoop_distinct
    (hids : (s.rows.map rowId).Nodup)
    (hkeys : (s.rows.map (fun row => row.vj.datedKey)).Nodup)
    (hdistinct : DistinctTrips ts)
    (hloop : handleLoop b s ts = (s', .ok ())) :
    LoopResult b s s' ts := by
  induction ts generalizing s with
  | nil =>
      cases hloop
      constructor <;> simp
  | cons t rest ih =>
      rw [DistinctTrips, List.map_cons, List.nodup_cons] at hdistinct
      rcases hdistinct with ⟨hfirst, hrest⟩
      have hne : ∀ t' ∈ rest, t.vj.datedKey ≠ t'.vj.datedKey := by
        intro t' ht' heq
        exact hfirst (List.mem_map.2 ⟨t', ht', heq.symm⟩)
      have hvjs := handleTripUpdate_rows_vj (b := b) (s := s) (t := t) hids
      have hfind := findByDatedVj_handleTripUpdate (b := b) (s := s) (t := t)
        hids hkeys
      have hlinks := handleTripUpdate_links_eq b s t
      have hcreated := handleTripUpdate_created_eq b s t
      have houtcome := handleTripUpdate_outcome b s t
      simp only [handleLoop] at hloop
      split at hloop
      · rename_i s1 hone
        rw [hone] at hvjs hfind hlinks hcreated houtcome
        simp only at hvjs hfind hlinks hcreated houtcome
        have hids1 : (s1.rows.map rowId).Nodup := by
          rw [map_of_vj_eq VehicleJourney.id hvjs]
          exact hids
        have hkeys1 : (s1.rows.map (fun row => row.vj.datedKey)).Nodup := by
          rw [map_of_vj_eq VehicleJourney.datedKey hvjs]
          exact hkeys
        have hsame :
            ∀ t' ∈ rest,
              findByDatedVj s1.rows t'.vj = findByDatedVj s.rows t'.vj := by
          intro t' ht'
          rw [hfind, if_neg (hne t' ht')]
        obtain ⟨hrows, hothers, hlinks', hcreated', hnormal⟩ :=
          ih hids1 hkeys1 hrest hloop
        constructor
        · rw [List.forall_mem_cons]
          constructor
          · rw [hothers t.vj (fun t' ht' => (hne t' ht').symm), hfind,
              if_pos rfl]
          · intro t' ht'
            rw [hrows t' ht', hsame t' ht']
        · intro vj hvj
          rw [List.forall_mem_cons] at hvj
          rw [hothers vj hvj.2, hfind, if_neg hvj.1]
        · have hmap :
              rest.filterMap (linkOf b s1.rows) =
                rest.filterMap (linkOf b s.rows) := by
            apply List.filterMap_congr
            intro t' ht'
            rw [linkOf, linkOf, hsame t' ht']
          rw [hlinks', hlinks, hmap, List.append_assoc, filterMap_cons_toList]
        · have hmap :
              rest.filterMap (createdOf b s1.rows) =
                rest.filterMap (createdOf b s.rows) := by
            apply List.filterMap_congr
            intro t' ht'
            rw [createdOf, createdOf, hsame t' ht']
          rw [hcreated', hcreated, hmap, List.append_assoc,
            filterMap_cons_toList]
        · rw [List.forall_mem_cons]
          constructor
          · cases hlinked :
                (processTripUpdate b (findByDatedVj s.rows t.vj) t).linked with
            | error e =>
                rw [hlinked] at houtcome
                cases houtcome
            | ok accepted =>
                exact ⟨accepted, rfl⟩
          · intro t' ht'
            rw [← hsame t' ht']
            exact hnormal t' ht'
      · cases hloop

/-- A loop in which every trip is left as it is changes no row. -/
theorem handleLoop_fixed
    (hids : (s.rows.map rowId).Nodup)
    (hfixed : ∀ t ∈ ts, ∀ old, findByDatedVj s.rows t.vj = some old →
      (processTripUpdate b (some old) t).tripUpdate = old)
    (hnew : ∀ t ∈ ts, findByDatedVj s.rows t.vj = none →
      (processTripUpdate b none t).linked ≠ .ok true)
    (hloop : handleLoop b s ts = (s', .ok ())) :
    s'.rows = s.rows ∧ s'.created = s.created ∧
      s'.links = s.links ++ ts.filterMap (linkOf b s.rows) := by
  induction ts generalizing s with
  | nil =>
      cases hloop
      simp
  | cons t rest ih =>
      rw [List.forall_mem_cons] at hfixed hnew
      have hrows : (handleTripUpdate b s t).1.rows = s.rows := by
        cases hfind : findByDatedVj s.rows t.vj with
        | none =>
            exact handleTripUpdate_rows_of_none b hfind
        | some old =>
            rw [handleTripUpdate_rows_of_some b hfind,
              hfixed.1 old hfind, replaceRow_eq,
              (KeyedStore.replace_eq_self_iff hids
                (findByDatedVj_mem hfind) rfl).2 rfl]
      have hcreated : (handleTripUpdate b s t).1.created = s.created := by
        rw [handleTripUpdate_created, if_neg]
        rintro ⟨hnone, hlinked⟩
        exact hnew.1 hnone hlinked
      have hlinks := handleTripUpdate_links_eq b s t
      simp only [handleLoop] at hloop
      split at hloop
      · rename_i s1 hone
        rw [hone] at hrows hcreated hlinks
        simp only at hrows hcreated hlinks
        obtain ⟨hrows', hcreated', hlinks'⟩ :=
          ih (by rw [hrows]; exact hids) (by rw [hrows]; exact hfixed.2)
            (by rw [hrows]; exact hnew.2) hloop
        refine ⟨by rw [hrows', hrows], by rw [hcreated', hcreated], ?_⟩
        rw [hlinks', hlinks, hrows, List.append_assoc, filterMap_cons_toList]
      · cases hloop

end Loop

section Commit

variable {b : Builder} {db db1 : Db} {s' : Session} {rtu : RealTimeUpdate}
variable {ts : List NewTripUpdate}
variable (hdistinct : DistinctTrips ts)
variable (hloop : handleLoop b db.session ts = (s', .ok ()))
variable (hcommit : dbCommit db s' rtu = .ok db1)

include hdistinct in
/-- A trip update of the feed is determined by its dated vehicle journey. -/
theorem eq_of_datedKey
    {t t' : NewTripUpdate} (ht : t ∈ ts) (ht' : t' ∈ ts)
    (hkey : t.vj.datedKey = t'.vj.datedKey) :
    t = t' :=
  KeyedStore.eq_of_key_eq hdistinct ht ht' hkey

include hdistinct hloop hcommit

/-- The row each trip of a feed has after the commit. -/
theorem findByDatedVj_committed
    {t : NewTripUpdate} (ht : t ∈ ts) :
    findByDatedVj db1.tripUpdates t.vj =
      storedAfter b (findByDatedVj db.tripUpdates t.vj) t := by
  have hresult :=
    handleLoop_distinct db.uniqueVj db.uniqueDatedVj hdistinct hloop
  have hsession : db.session.rows = db.tripUpdates := rfl
  have hrow := hresult.rows t ht
  rw [hsession] at hrow
  have hcreated : s'.created = ts.filterMap (createdOf b db.tripUpdates) := by
    rw [hresult.created]
    rfl
  have hrows := (dbCommit_ok hcommit).1
  cases hold : findByDatedVj db.tripUpdates t.vj with
  | some old =>
      rw [hold] at hrow
      rw [hrows, storedAfter_some, Session.allRows]
      unfold findByDatedVj at hrow ⊢
      rw [List.find?_append, hrow]
      rfl
  | none =>
      rw [hold] at hrow
      unfold storedAfter
      split
      · rename_i hlinked
        have hlinked : (processTripUpdate b none t).linked = .ok true := by
          simpa using hlinked
        refine findByDatedVj_of_mem db1.uniqueDatedVj ?_ ?_
        · rw [hrows, Session.allRows, hcreated]
          refine List.mem_append_right _ (List.mem_filterMap.2 ⟨t, ht, ?_⟩)
          rw [createdOf, if_pos ⟨hold, hlinked⟩]
        · rw [processTripUpdate_vj]
          rfl
      · rename_i hunlinked
        refine List.find?_eq_none.2 (fun row hmem hmatch => ?_)
        have hkey : row.vj.datedKey = t.vj.datedKey := by
          simpa using hmatch
        rw [hrows, Session.allRows, List.mem_append, hcreated,
          List.mem_filterMap] at hmem
        rcases hmem with hstored | ⟨t', ht', hnew⟩
        · exact List.find?_eq_none.1 hrow row hstored hmatch
        · unfold createdOf at hnew
          split at hnew
          · rename_i hlinked
            simp only [Option.some.injEq] at hnew
            have hvj : row.vj = t'.vj := by
              rw [← hnew, processTripUpdate_vj]
              rfl
            rw [hvj] at hkey
            rw [eq_of_datedKey hdistinct ht' ht hkey] at hlinked
            exact hunlinked (Or.inr hlinked.2)
          · cases hnew

/-- The row of a trip is linked exactly when its trip update is. -/
theorem mem_links_iff
    {t : NewTripUpdate} (ht : t ∈ ts) {row : TripUpdate}
    (hrow : findByDatedVj db1.tripUpdates t.vj = some row) :
    rowId row ∈ s'.links ↔
      (processTripUpdate b (findByDatedVj db.tripUpdates t.vj) t).linked =
        .ok true := by
  have hresult :=
    handleLoop_distinct db.uniqueVj db.uniqueDatedVj hdistinct hloop
  have hlinks : s'.links = ts.filterMap (linkOf b db.tripUpdates) := by
    rw [hresult.links]
    rfl
  rw [hlinks, List.mem_filterMap]
  constructor
  · rintro ⟨t', ht', hlink⟩
    unfold linkOf at hlink
    split at hlink
    · rename_i hlinked
      simp only [Option.some.injEq] at hlink
      have hrow' := findByDatedVj_committed hdistinct hloop hcommit ht'
      rw [storedAfter_linked hlinked] at hrow'
      have heq :=
        KeyedStore.eq_of_key_eq db1.uniqueVj (findByDatedVj_mem hrow')
          (findByDatedVj_mem hrow) hlink
      have hkey : t'.vj.datedKey = t.vj.datedKey := by
        rw [← findByDatedVj_key hrow', heq, findByDatedVj_key hrow]
      rw [eq_of_datedKey hdistinct ht' ht hkey] at hlinked
      exact hlinked
    · cases hlink
  · intro hlinked
    refine ⟨t, ht, ?_⟩
    have hrow' := findByDatedVj_committed hdistinct hloop hcommit ht
    rw [storedAfter_linked hlinked, hrow] at hrow'
    simp only [Option.some.injEq] at hrow'
    rw [linkOf, if_pos hlinked, ← hrow']

end Commit

section Published

variable {db db1 : Db} {s : Session} {rtu : RealTimeUpdate}

/-- The trip updates of a new feed are the linked rows of its session. -/
theorem tripUpdatesOf_eq
    (hcommit : dbCommit db s rtu = .ok db1)
    (hfresh : ∀ id, (rtu.id, id) ∉ db.associations) :
    db1.tripUpdatesOf rtu =
      s.allRows.filter (fun tu => decide (rowId tu ∈ s.links)) := by
  obtain ⟨hrows, hassociations⟩ := dbCommit_ok hcommit
  rw [Db.tripUpdatesOf, hrows, hassociations]
  apply List.filter_congr
  intro tu _
  simp [hfresh tu.vj.id]

/-- The rows published for a feed that has no link yet. -/
theorem tripUpdatesOf_fresh
    (hcommit : dbCommit db s rtu = .ok db1)
    (hfresh : ∀ id, (rtu.id, id) ∉ db.associations)
    (row : TripUpdate) :
    row ∈ db1.tripUpdatesOf rtu ↔
      row ∈ db1.tripUpdates ∧ rowId row ∈ s.links := by
  rw [tripUpdatesOf_eq hcommit hfresh, (dbCommit_ok hcommit).1, List.mem_filter,
    decide_eq_true_eq]

end Published

end Core
end Kirin
