import Kirin.Core.HandleBatch
import Kirin.Core.SingleTrip
import Kirin.Library.KeyedRuns

/-!
# Kirin: the turns of a feed on one trip

The trip updates of a feed may concern one dated vehicle journey several times.
The loop of `handle` acts on the stored row of each one, which the others do not
see, so that its session is known trip by trip.

* `turnsOn`: the trip updates of a feed on a dated vehicle journey.
* `rowAfter`: a stored row after the trip updates on it.
* `linksOn`: the links that the trip updates on a dated vehicle journey give.
* `turns_keyed`: the turns of the loop act on the row of their own trip.
* `TurnsFit`: what the trip updates on a dated vehicle journey leave can be
  stored.
* `fitsDatabase_turns_iff`: the session of a loop can be committed exactly when
  the trip updates on each dated vehicle journey fit.
-/

namespace Kirin
namespace Core

open KeyedRuns

/-- The navitia trip and the start of a dated vehicle journey. -/
abbrev DatedKey := String × Datetime

/-- The row of a dated vehicle journey. -/
def rowOf (rows : List TripUpdate) (k : DatedKey) : Option TripUpdate :=
  rows.find? (fun tu => tu.vj.datedKey == k)

/-- The trip updates of a feed on a dated vehicle journey. -/
def turnsOn (k : DatedKey) (ts : List NewTripUpdate) : List NewTripUpdate :=
  stepsOn (fun t => t.vj.datedKey) k ts

/-- A stored row after one trip update on it. -/
def afterTurn (b : Builder) (row : TripUpdate) (t : NewTripUpdate) :
    TripUpdate :=
  (processTripUpdate b (some row) t).tripUpdate

/-- A stored row after the trip updates on it. -/
def rowAfter (b : Builder) (row : TripUpdate) (us : List NewTripUpdate) :
    TripUpdate :=
  us.foldl (afterTurn b) row

/-- What is found for a trip, before the next trip update on it in the loop. -/
def turnRow (b : Builder) (old : Option TripUpdate) (t : NewTripUpdate) :
    Option TripUpdate :=
  old.map (fun row => afterTurn b row t)

/-- The link that one trip update gives. -/
def turnLink (b : Builder) (old : Option TripUpdate) (t : NewTripUpdate) :
    Option String :=
  if (processTripUpdate b old t).linked = .ok true then
    some (rowId (processTripUpdate b old t).tripUpdate)
  else none

/-- The links that the trip updates on a dated vehicle journey give. -/
def linksOn (b : Builder) (old : Option TripUpdate) (us : List NewTripUpdate) :
    List String :=
  emittedOn (turnRow b) (turnLink b) old us

/-- A trip update is accepted for a trip that is not stored. -/
def Creates (b : Builder) (t : NewTripUpdate) : Prop :=
  (processTripUpdate b none t).linked = .ok true

instance (b : Builder) (t : NewTripUpdate) : Decidable (Creates b t) :=
  inferInstanceAs (Decidable (_ = _))

/-- The rows that the trip updates on a dated vehicle journey leave. -/
def rowsAfter (b : Builder) (old : Option TripUpdate) (us : List NewTripUpdate) :
    List TripUpdate :=
  match old with
  | some row => [rowAfter b row us]
  | none =>
      (us.filter (fun t => decide (Creates b t))).map
        (fun t => (processTripUpdate b none t).tripUpdate)

/-- The database has the effect of a row, and its driver takes the texts. -/
structure Storable (row : TripUpdate) : Prop where
  effect : EffectInDatabase row
  texts : TextsFit row

instance (row : TripUpdate) : Decidable (Storable row) :=
  decidable_of_iff (EffectInDatabase row ∧ TextsFit row)
    ⟨fun h => ⟨h.1, h.2⟩, fun h => ⟨h.1, h.2⟩⟩

/--
The trip updates on a dated vehicle journey link it once at most, and leave it in
a row that can be stored.
-/
structure TurnsFit (b : Builder) (old : Option TripUpdate)
    (us : List NewTripUpdate) : Prop where
  linkedOnce : (linksOn b old us).length ≤ 1
  storable : ∀ row ∈ rowsAfter b old us, Storable row

instance (b : Builder) (old : Option TripUpdate) (us : List NewTripUpdate) :
    Decidable (TurnsFit b old us) :=
  decidable_of_iff
    ((linksOn b old us).length ≤ 1 ∧ ∀ row ∈ rowsAfter b old us, Storable row)
    ⟨fun h => ⟨h.1, h.2⟩, fun h => ⟨h.1, h.2⟩⟩

/-- One identifier stands for one dated vehicle journey, stored or received. -/
def SameIds (rows : List TripUpdate) (ts : List NewTripUpdate) : Prop :=
  ∀ vj ∈ rows.map TripUpdate.vj ++ ts.map (fun t => t.vj),
    ∀ vj' ∈ rows.map TripUpdate.vj ++ ts.map (fun t => t.vj),
      vj.id = vj'.id → vj.datedKey = vj'.datedKey

instance (rows : List TripUpdate) (ts : List NewTripUpdate) :
    Decidable (SameIds rows ts) :=
  inferInstanceAs (Decidable (∀ vj ∈ _, ∀ vj' ∈ _, _ → _))

/-- Fewer vehicle journeys, stored or received, still have their own identifiers. -/
theorem SameIds.mono
    {rows rows' : List TripUpdate} {ts ts' : List NewTripUpdate}
    (h : SameIds rows ts)
    (hrows : ∀ row ∈ rows', row.vj ∈
      rows.map TripUpdate.vj ++ ts.map (fun t => t.vj))
    (hts : ∀ t ∈ ts', t ∈ ts) :
    SameIds rows' ts' := by
  have hlift : ∀ vj ∈ rows'.map TripUpdate.vj ++ ts'.map (fun t => t.vj),
      vj ∈ rows.map TripUpdate.vj ++ ts.map (fun t => t.vj) := by
    intro vj hvj
    rcases List.mem_append.1 hvj with hstored | hreceived
    · obtain ⟨row, hrow, rfl⟩ := List.mem_map.1 hstored
      exact hrows row hrow
    · obtain ⟨t, ht, rfl⟩ := List.mem_map.1 hreceived
      exact List.mem_append_right _ (List.mem_map.2 ⟨t, hts t ht, rfl⟩)
  exact fun vj hvj vj' hvj' => h vj (hlift vj hvj) vj' (hlift vj' hvj')

section Row

variable {b : Builder} {row : TripUpdate} {us : List NewTripUpdate}

theorem rowAfter_vj :
    (rowAfter b row us).vj = row.vj := by
  induction us generalizing row with
  | nil =>
      rfl
  | cons t us ih =>
      rw [rowAfter, List.foldl_cons]
      exact ih.trans processTripUpdate_vj

theorem foldl_turnRow
    (old : Option TripUpdate) :
    us.foldl (turnRow b) old = old.map (fun row => rowAfter b row us) := by
  induction us generalizing old with
  | nil =>
      cases old <;> rfl
  | cons t us ih =>
      rw [List.foldl_cons, ih]
      cases old <;> rfl

/-- A trip that is not stored is linked by the trip updates that create it. -/
theorem linksOn_none
    (b : Builder) (us : List NewTripUpdate) :
    linksOn b none us =
      (us.filter (fun t => decide (Creates b t))).map (fun t => t.vj.id) := by
  induction us with
  | nil =>
      rfl
  | cons t us ih =>
      have hnone : turnRow b none t = none := rfl
      rw [linksOn] at ih
      rw [linksOn, emittedOn, hnone, ih, turnLink]
      change (if Creates b t then _ else none).toList ++ _ = _
      by_cases h : Creates b t
      · rw [if_pos h, List.filter_cons_of_pos (by simpa using h),
          List.map_cons, rowId, processTripUpdate_vj]
        rfl
      · rw [if_neg h, List.filter_cons_of_neg (by simpa using h)]
        rfl

/-- The trip updates on a stored trip all link its row. -/
theorem linksOn_some
    {id : String} (h : id ∈ linksOn b (some row) us) :
    id = rowId row := by
  induction us generalizing row with
  | nil =>
      cases h
  | cons t us ih =>
      rw [linksOn, emittedOn, List.mem_append] at h
      rcases h with hfirst | hrest
      · unfold turnLink at hfirst
        split at hfirst
        · rw [Option.toList_some, List.mem_singleton] at hfirst
          rw [hfirst, rowId, processTripUpdate_vj]
          rfl
        · cases hfirst
      · have hid : id = rowId (afterTurn b row t) := ih hrest
        rw [hid]
        exact congrArg VehicleJourney.id processTripUpdate_vj

end Row

/-- The session of the turns on some trip updates, whatever their outcomes. -/
def loopSession (b : Builder) (s : Session) (ts : List NewTripUpdate) : Session :=
  ts.foldl (fun s t => (handleTripUpdate b s t).1) s

/-- The rows of a session have distinct identifiers and dated vehicle journeys. -/
structure DistinctRows (s : Session) : Prop where
  ids : (s.rows.map rowId).Nodup
  keys : (s.rows.map (fun row => row.vj.datedKey)).Nodup

theorem distinctRows_session
    (db : Db) :
    DistinctRows db.session :=
  ⟨db.uniqueVj, db.uniqueDatedVj⟩

section Loop

variable {b : Builder} {s : Session} {db : Db} {ts : List NewTripUpdate}

/-- The turns of the loop act on the stored row of their own trip. -/
theorem turns_keyed
    (b : Builder) :
    Keyed (fun s t => (handleTripUpdate b s t).1) (fun _ _ => True) DistinctRows
      (fun t : NewTripUpdate => t.vj.datedKey) (fun s k => rowOf s.rows k)
      (turnRow b) where
  keeps := by
    intro s t h _
    have hvjs := handleTripUpdate_rows_vj (b := b) (t := t) h.ids
    constructor
    · exact handleTripUpdate_rowIds h.ids
    · rw [map_of_vj_eq VehicleJourney.datedKey hvjs]
      exact h.keys
  lookup_step := by
    intro s t k h _
    have hfind : rowOf (handleTripUpdate b s t).1.rows k =
        if t.vj.datedKey = k then
          turnRow b (rowOf s.rows t.vj.datedKey) t
        else rowOf s.rows k :=
      findByDatedVj_handleTripUpdate h.ids h.keys
        { t.vj with navitiaTripId := k.1, startTimestamp := k.2 }
    rw [hfind]
    split
    · rename_i hkey
      rw [hkey]
    · rfl

theorem along_trivial
    (b : Builder) (s : Session) (ts : List NewTripUpdate) :
    Runs.Along (fun s t => (handleTripUpdate b s t).1) (fun _ _ => True) s ts :=
  Runs.along_of_forall (fun _ _ => trivial)

/-- The stored row of a trip after the loop. -/
theorem rowOf_loopSession
    (h : DistinctRows s) (k : DatedKey) :
    rowOf (loopSession b s ts).rows k =
      (rowOf s.rows k).map (fun row => rowAfter b row (turnsOn k ts)) := by
  rw [loopSession, (turns_keyed b).lookup_foldl (along_trivial b s ts) h,
    foldl_turnRow]
  rfl

/-- The vehicle journeys of the stored rows are kept by the turns. -/
theorem loopSession_vj
    (h : DistinctRows s) :
    (loopSession b s ts).rows.map TripUpdate.vj = s.rows.map TripUpdate.vj := by
  have hstep : ∀ (s1 : Session) (t : NewTripUpdate),
      (DistinctRows s1 ∧ s1.rows.map TripUpdate.vj = s.rows.map TripUpdate.vj) →
      True →
      DistinctRows (handleTripUpdate b s1 t).1 ∧
        (handleTripUpdate b s1 t).1.rows.map TripUpdate.vj =
          s.rows.map TripUpdate.vj :=
    fun s1 t h1 _ => ⟨(turns_keyed b).keeps s1 t h1.1 trivial,
      (handleTripUpdate_rows_vj h1.1.ids).trans h1.2⟩
  exact (Runs.invariant_of_along hstep (along_trivial b s ts) ⟨h, rfl⟩).2

/-- The rows created by a loop are those its trip updates create alone. -/
theorem loopSession_created
    (h : DistinctRows s) {rows : List TripUpdate}
    (hvjs : s.rows.map TripUpdate.vj = rows.map TripUpdate.vj) :
    (loopSession b s ts).created =
      s.created ++ ts.filterMap (createdOf b rows) := by
  induction ts generalizing s with
  | nil =>
      simp [loopSession]
  | cons t ts ih =>
      have hcreated : createdOf b s.rows t = createdOf b rows t := by
        simp only [createdOf, findByDatedVj_eq_none_of_vj hvjs]
      have hnext := (turns_keyed b).keeps s t h trivial
      rw [loopSession, List.foldl_cons]
      refine (ih hnext ((handleTripUpdate_rows_vj h.ids).trans hvjs)).trans ?_
      rw [handleTripUpdate_created_eq, hcreated, List.append_assoc,
        ← filterMap_cons_toList]

/-- The links of a loop are those that its trip updates give in their turns. -/
theorem loopSession_links
    (b : Builder) (s : Session) (ts : List NewTripUpdate) :
    (loopSession b s ts).links = s.links ++
      (emitted (fun s t => (handleTripUpdate b s t).1)
        (fun t : NewTripUpdate => t.vj.datedKey) (fun s k => rowOf s.rows k)
        (turnLink b) s ts).map Prod.snd := by
  induction ts generalizing s with
  | nil =>
      simp [loopSession, emitted]
  | cons t ts ih =>
      have hlink : turnLink b (rowOf s.rows t.vj.datedKey) t =
          linkOf b s.rows t := rfl
      rw [loopSession, List.foldl_cons]
      refine (ih _).trans ?_
      rw [handleTripUpdate_links_eq, emitted, hlink, List.map_append,
        List.append_assoc]
      cases linkOf b s.rows t <;> rfl

end Loop

section Commit

variable {b : Builder} {db : Db} {rtu : RealTimeUpdate}
variable {ts : List NewTripUpdate} {k : DatedKey}

theorem rowOf_eq_some_iff
    {rows : List TripUpdate}
    (hkeys : (rows.map (fun row => row.vj.datedKey)).Nodup) {row : TripUpdate} :
    rowOf rows k = some row ↔ row ∈ rows ∧ row.vj.datedKey = k := by
  constructor
  · intro h
    exact ⟨List.mem_of_find?_eq_some h, by simpa using List.find?_some h⟩
  · rintro ⟨hrow, rfl⟩
    refine KeyedStore.find?_eq_some_of_key hkeys (fun row' _ => ?_) hrow
    simp

/-- The stored rows of the session of a loop are those left by their own turns. -/
theorem mem_loopSession_rows
    {row : TripUpdate} :
    row ∈ (loopSession b db.session ts).rows ↔
      ∃ stored ∈ db.tripUpdates,
        row = rowAfter b stored (turnsOn stored.vj.datedKey ts) := by
  have hdistinct := distinctRows_session db
  have hkeys :
      ((loopSession b db.session ts).rows.map
        (fun row => row.vj.datedKey)).Nodup := by
    rw [map_of_vj_eq VehicleJourney.datedKey (loopSession_vj hdistinct)]
    exact hdistinct.keys
  constructor
  · intro hrow
    have hfound := (rowOf_eq_some_iff hkeys).2 ⟨hrow, rfl⟩
    rw [rowOf_loopSession hdistinct, Option.map_eq_some_iff] at hfound
    obtain ⟨stored, hstored, hleft⟩ := hfound
    obtain ⟨hmem, hkey⟩ := (rowOf_eq_some_iff db.uniqueDatedVj).1 hstored
    exact ⟨stored, hmem, by rw [hkey, hleft]⟩
  · rintro ⟨stored, hstored, rfl⟩
    have hfound := (rowOf_eq_some_iff db.uniqueDatedVj).2 ⟨hstored, rfl⟩
    have hleft : rowOf (loopSession b db.session ts).rows stored.vj.datedKey = _ :=
      rowOf_loopSession hdistinct stored.vj.datedKey
    rw [show rowOf db.session.rows stored.vj.datedKey = some stored from hfound]
      at hleft
    exact List.mem_of_find?_eq_some hleft

theorem createdOf_eq_some_iff
    {t : NewTripUpdate} {row : TripUpdate} :
    createdOf b db.tripUpdates t = some row ↔
      rowOf db.tripUpdates t.vj.datedKey = none ∧ Creates b t ∧
        (processTripUpdate b none t).tripUpdate = row := by
  unfold createdOf
  split
  · rename_i h
    rw [Option.some.injEq]
    exact ⟨fun heq => ⟨h.1, h.2, heq⟩, fun hall => hall.2.2⟩
  · rename_i h
    exact iff_of_false nofun (fun hall => h ⟨hall.1, hall.2.1⟩)

/-- The rows created by a loop, trip by trip. -/
theorem mem_loopSession_created
    {row : TripUpdate} :
    row ∈ (loopSession b db.session ts).created ↔
      ∃ t ∈ ts, rowOf db.tripUpdates t.vj.datedKey = none ∧ Creates b t ∧
        (processTripUpdate b none t).tripUpdate = row := by
  rw [loopSession_created (distinctRows_session db) rfl]
  simp only [Db.session, List.nil_append, List.mem_filterMap,
    createdOf_eq_some_iff]

/-- The rows that a loop would store are those that each trip is left with. -/
theorem mem_allRows_iff
    {row : TripUpdate} :
    row ∈ (loopSession b db.session ts).allRows ↔
      ∃ k, row ∈ rowsAfter b (rowOf db.tripUpdates k) (turnsOn k ts) := by
  constructor
  · intro hrow
    rcases List.mem_append.1 hrow with hstored | hcreated
    · obtain ⟨stored, hmem, rfl⟩ := mem_loopSession_rows.1 hstored
      have hfound := (rowOf_eq_some_iff db.uniqueDatedVj).2 ⟨hmem, rfl⟩
      refine ⟨stored.vj.datedKey, ?_⟩
      rw [hfound]
      exact List.mem_singleton_self _
    · obtain ⟨t, ht, hnone, hcreates, rfl⟩ := mem_loopSession_created.1 hcreated
      refine ⟨t.vj.datedKey, ?_⟩
      rw [hnone]
      refine List.mem_map.2 ⟨t, List.mem_filter.2 ⟨?_, ?_⟩, rfl⟩
      · exact mem_stepsOn.2 ⟨ht, rfl⟩
      · simpa using hcreates
  · rintro ⟨k, hrow⟩
    cases hfound : rowOf db.tripUpdates k with
    | some stored =>
        rw [hfound, rowsAfter, List.mem_singleton] at hrow
        obtain ⟨hmem, hkey⟩ := (rowOf_eq_some_iff db.uniqueDatedVj).1 hfound
        refine List.mem_append_left _ (mem_loopSession_rows.2 ?_)
        exact ⟨stored, hmem, by rw [hrow, hkey]⟩
    | none =>
        rw [hfound, rowsAfter] at hrow
        obtain ⟨t, ht, hleft⟩ := List.mem_map.1 hrow
        rw [List.mem_filter, decide_eq_true_eq] at ht
        obtain ⟨hmem, hkey⟩ := mem_stepsOn.1 ht.1
        refine List.mem_append_right _ (mem_loopSession_created.2 ?_)
        exact ⟨t, hmem, by rw [hkey, hfound], ht.2, hleft⟩

/-- What the turns of a loop emit for their trips. -/
def loopLinks (b : Builder) (db : Db) (ts : List NewTripUpdate) :
    List (DatedKey × String) :=
  emitted (fun s t => (handleTripUpdate b s t).1)
    (fun t : NewTripUpdate => t.vj.datedKey) (fun s k => rowOf s.rows k)
    (turnLink b) db.session ts

theorem filter_loopLinks
    (b : Builder) (db : Db) (ts : List NewTripUpdate) (k : DatedKey) :
    (loopLinks b db ts).filter (fun p => decide (p.1 = k)) =
      (linksOn b (rowOf db.tripUpdates k) (turnsOn k ts)).map
        (fun id => (k, id)) :=
  (turns_keyed b).filter_emitted (along_trivial b db.session ts)
    (distinctRows_session db) k

/-- A link is the identifier of a trip that is stored or received. -/
theorem exists_vj_of_loopLinks
    {id : String} (h : (k, id) ∈ loopLinks b db ts) :
    ∃ vj ∈ db.tripUpdates.map TripUpdate.vj ++ ts.map (fun t => t.vj),
      vj.id = id ∧ vj.datedKey = k := by
  have hmem :
      (k, id) ∈ (loopLinks b db ts).filter (fun p => decide (p.1 = k)) :=
    List.mem_filter.2 ⟨h, by simp⟩
  rw [filter_loopLinks] at hmem
  obtain ⟨id, hid, heq⟩ := List.mem_map.1 hmem
  cases heq
  cases hfound : rowOf db.tripUpdates k with
  | some stored =>
      rw [hfound] at hid
      obtain ⟨hstored, hkey⟩ := (rowOf_eq_some_iff db.uniqueDatedVj).1 hfound
      exact ⟨stored.vj, List.mem_append_left _ (List.mem_map_of_mem hstored),
        (linksOn_some hid).symm, hkey⟩
  | none =>
      rw [hfound, linksOn_none] at hid
      obtain ⟨t, ht, heq⟩ := List.mem_map.1 hid
      obtain ⟨hreceived, hkey⟩ := mem_stepsOn.1 (List.mem_filter.1 ht).1
      exact ⟨t.vj, List.mem_append_right _ (List.mem_map.2 ⟨t, hreceived, rfl⟩),
        heq, hkey⟩

/-- Elements with distinct keys have distinct names that stand for their keys. -/
theorem nodup_map_of_key
    {α β γ : Type} {f : α → β} {g : α → γ} {l : List α}
    (hkeys : (l.map f).Nodup)
    (hsame : ∀ a ∈ l, ∀ a' ∈ l, g a = g a' → f a = f a') :
    (l.map g).Nodup := by
  rw [List.Nodup, List.pairwise_map] at hkeys ⊢
  exact hkeys.imp_of_mem (fun ha ha' hne heq => hne (hsame _ ha _ ha' heq))

/-- The rows that a loop creates for a trip are those that link it. -/
theorem count_createdKeys
    (k : DatedKey) :
    ((loopSession b db.session ts).created.map
        (fun row => row.vj.datedKey)).count k =
      if rowOf db.tripUpdates k = none then
        (linksOn b none (turnsOn k ts)).length
      else 0 := by
  have hkey : ∀ t ∈ ts, ∀ row, createdOf b db.tripUpdates t = some row →
      row.vj.datedKey = t.vj.datedKey := by
    intro t _ row hrow
    rw [← (createdOf_eq_some_iff.1 hrow).2.2, processTripUpdate_vj]
    rfl
  rw [loopSession_created (distinctRows_session db) rfl, linksOn_none]
  simp only [Db.session, List.nil_append, turnsOn, stepsOn, List.filter_filter,
    List.length_map]
  induction ts with
  | nil =>
      simp
  | cons t ts ih =>
      rw [List.forall_mem_cons] at hkey
      rw [filterMap_cons_toList, List.map_append, List.count_append,
        ih hkey.2, List.filter_cons]
      cases hcreated : createdOf b db.tripUpdates t with
      | some row =>
          obtain ⟨hnone, hcreates, -⟩ := createdOf_eq_some_iff.1 hcreated
          have hrow := hkey.1 row hcreated
          by_cases heq : t.vj.datedKey = k
          · subst heq
            simp [hnone, hcreates, hrow, Nat.add_comm]
          · simp [hrow, heq]
      | none =>
          by_cases heq : t.vj.datedKey = k
          · subst heq
            by_cases hnone : rowOf db.tripUpdates t.vj.datedKey = none
            · have hno : ¬ Creates b t := by
                intro hcreates
                rw [createdOf_eq_some_iff.2 ⟨hnone, hcreates, rfl⟩] at hcreated
                cases hcreated
              simp [hno]
            · simp [hnone]
          · simp [heq]

/-- The trips that a loop creates have distinct keys when each is created once. -/
theorem nodup_createdKeys_iff :
    ((loopSession b db.session ts).created.map
        (fun row => row.vj.datedKey)).Nodup ↔
      ∀ k, rowOf db.tripUpdates k = none →
        (linksOn b none (turnsOn k ts)).length ≤ 1 := by
  rw [List.nodup_iff_count_le_one]
  refine forall_congr' (fun k => ?_)
  rw [count_createdKeys]
  split
  · rename_i hnone
    simp [hnone]
  · rename_i hsome
    simp [hsome]

/-- The rows of the session of a loop are those of trips stored or received. -/
theorem exists_vj_of_allRows
    {row : TripUpdate} (h : row ∈ (loopSession b db.session ts).allRows) :
    row.vj ∈ db.tripUpdates.map TripUpdate.vj ++ ts.map (fun t => t.vj) := by
  rcases List.mem_append.1 h with hstored | hcreated
  · obtain ⟨stored, hmem, rfl⟩ := mem_loopSession_rows.1 hstored
    rw [rowAfter_vj]
    exact List.mem_append_left _ (List.mem_map_of_mem hmem)
  · obtain ⟨t, ht, -, -, rfl⟩ := mem_loopSession_created.1 hcreated
    rw [processTripUpdate_vj]
    exact List.mem_append_right _ (List.mem_map.2 ⟨t, ht, rfl⟩)

/-- The rows of a loop have distinct keys when each trip is created once. -/
theorem nodup_allRows_keys
    (honce : ∀ k, rowOf db.tripUpdates k = none →
      (linksOn b none (turnsOn k ts)).length ≤ 1) :
    ((loopSession b db.session ts).allRows.map
      (fun row => row.vj.datedKey)).Nodup := by
  rw [Session.allRows, List.map_append, List.nodup_append]
  refine ⟨?_, nodup_createdKeys_iff.2 honce, ?_⟩
  · rw [map_of_vj_eq VehicleJourney.datedKey
      (loopSession_vj (distinctRows_session db))]
    exact db.uniqueDatedVj
  · intro k hk k' hk' heq
    subst heq
    obtain ⟨row, hrow, rfl⟩ := List.mem_map.1 hk
    obtain ⟨created, hcreated, hkey⟩ := List.mem_map.1 hk'
    obtain ⟨stored, hmem, rfl⟩ := mem_loopSession_rows.1 hrow
    obtain ⟨t, -, hnone, -, rfl⟩ := mem_loopSession_created.1 hcreated
    rw [processTripUpdate_vj, rowAfter_vj] at hkey
    have hfound := (rowOf_eq_some_iff db.uniqueDatedVj).2 ⟨hmem, rfl⟩
    rw [← hkey] at hfound
    rw [show rowOf db.tripUpdates t.vj.datedKey = some stored from hfound]
      at hnone
    cases hnone

variable (hfresh : ∀ id, (rtu.id, id) ∉ db.associations)
variable (hsame : SameIds db.tripUpdates ts)

include hsame in
/-- The links of a loop are distinct when each trip is linked once. -/
theorem nodup_loopSession_links
    (honce : ∀ k, (linksOn b (rowOf db.tripUpdates k)
      (turnsOn k ts)).length ≤ 1) :
    (loopSession b db.session ts).links.Nodup := by
  rw [loopSession_links]
  simp only [Db.session, List.nil_append]
  refine nodup_map_of_key (f := Prod.fst) ?_ ?_
  · refine nodup_keys_iff.2 (fun k => ?_)
    have hon := filter_loopLinks b db ts k
    simp only [loopLinks, Db.session] at hon
    rw [hon, List.length_map]
    exact honce k
  · rintro ⟨k, id⟩ hp ⟨k', id'⟩ hp' heq
    obtain ⟨vj, hvj, hid, hkey⟩ := exists_vj_of_loopLinks hp
    obtain ⟨vj', hvj', hid', hkey'⟩ := exists_vj_of_loopLinks hp'
    have hkeys := hsame vj hvj vj' hvj' (by rw [hid, hid']; exact heq)
    rw [hkey, hkey'] at hkeys
    exact hkeys

/-- A trip of a loop whose links and keys are distinct is linked once. -/
theorem linksOn_length_le_one
    (hkeys : ((loopSession b db.session ts).allRows.map
      (fun row => row.vj.datedKey)).Nodup)
    (hlinks : (loopSession b db.session ts).links.Nodup) (k : DatedKey) :
    (linksOn b (rowOf db.tripUpdates k) (turnsOn k ts)).length ≤ 1 := by
  cases hfound : rowOf db.tripUpdates k with
  | none =>
      rw [Session.allRows, List.map_append, List.nodup_append] at hkeys
      exact nodup_createdKeys_iff.1 hkeys.2.1 k hfound
  | some row =>
      -- the links of a stored trip are all its identifier
      have hall : ∀ id ∈ linksOn b (some row) (turnsOn k ts), id = rowId row :=
        fun id hid => linksOn_some hid
      have hnodup : (linksOn b (some row) (turnsOn k ts)).Nodup := by
        have hon := filter_loopLinks b db ts k
        rw [hfound] at hon
        rw [loopSession_links] at hlinks
        have hpairs : ((loopLinks b db ts).map Prod.snd).Nodup := hlinks
        have hfiltered := hpairs.sublist
          ((List.filter_sublist (p := fun p => decide (p.1 = k))).map Prod.snd)
        rw [hon, List.map_map] at hfiltered
        simpa using hfiltered
      rw [List.eq_replicate_of_mem hall] at hnodup ⊢
      rw [List.length_replicate]
      exact List.nodup_replicate.1 hnodup

include hfresh hsame in
/--
The session of a loop can be committed exactly when the driver takes the error of
its feed and the trip updates on each dated vehicle journey fit.
-/
theorem fitsDatabase_turns_iff :
    FitsDatabase db rtu (loopSession b db.session ts) ↔
      rtu.ErrorFits ∧
        ∀ k, TurnsFit b (rowOf db.tripUpdates k) (turnsOn k ts) := by
  constructor
  · intro h
    refine ⟨h.error, fun k => ⟨?_, fun row hrow => ⟨?_, ?_⟩⟩⟩
    · refine linksOn_length_le_one h.keys ?_ k
      have hpairs := (List.nodup_append.1 h.links).2.1
      exact hpairs.of_map _
    · exact h.effects row (mem_allRows_iff.2 ⟨k, hrow⟩)
    · exact h.texts row (mem_allRows_iff.2 ⟨k, hrow⟩)
  · rintro ⟨herror, hfit⟩
    have hkeys := nodup_allRows_keys (fun k hnone => by
      have honce := (hfit k).linkedOnce
      rwa [hnone] at honce)
    refine ⟨?_, hkeys, ?_, ?_, ?_, herror⟩
    · refine nodup_map_of_key hkeys (fun row hrow row' hrow' heq => ?_)
      exact hsame _ (exists_vj_of_allRows hrow) _ (exists_vj_of_allRows hrow')
        heq
    · exact nodup_associations hfresh
        (nodup_loopSession_links hsame (fun k => (hfit k).linkedOnce))
    · intro row hrow
      obtain ⟨k, hk⟩ := mem_allRows_iff.1 hrow
      exact ((hfit k).storable row hk).effect
    · intro row hrow
      obtain ⟨k, hk⟩ := mem_allRows_iff.1 hrow
      exact ((hfit k).storable row hk).texts

end Commit

end Core
end Kirin
