import Kirin.Core.EncodedRows
import Kirin.Core.PublishedStream
import Kirin.Core.TripTurns

/-!
# Kirin: how the loop of a feed ends

The loop of `handle` stops at the first trip update whose merge raises.  What it
leaves by then is that of the turns on the trip updates it has gone through, and
what is published of it is told trip by trip.

* `goneThrough`: the trip updates that a loop goes through, and what it raises.
* `handleLoop_goneThrough`: the loop leaves the session of their turns.
* `handleLoop_returns_iff`: the loop returns when no merge raises, each trip
  update being merged with what those on its trip leave before it.
* `links_turns_iff`: the rows linked to a feed, trip by trip.
* `convert_turns_iff`: the linked rows can be encoded when those of each trip
  can.
-/

namespace Kirin
namespace Core

open KeyedRuns

/-- The merge of a trip update does not raise. -/
def Merges (b : Builder) (old : Option TripUpdate) (t : NewTripUpdate) : Prop :=
  ∃ accepted, (processTripUpdate b old t).linked = .ok accepted

/-- What a trip update is merged with after some others of its feed. -/
def rowBefore (b : Builder) (rows : List TripUpdate)
    (before : List NewTripUpdate) (t : NewTripUpdate) : Option TripUpdate :=
  (rowOf rows t.vj.datedKey).map
    (fun row => rowAfter b row (turnsOn t.vj.datedKey before))

/--
The trip updates that a loop goes through after some others, and the exception
that the merge of the last one raises, if any.
-/
def goneThrough (b : Builder) (rows : List TripUpdate) :
    List NewTripUpdate → List NewTripUpdate →
    List NewTripUpdate × Option PyException
  | before, [] => (before, none)
  | before, t :: rest =>
      match (processTripUpdate b (rowBefore b rows before t) t).linked with
      | .error e => (before ++ [t], some e)
      | .ok _ => goneThrough b rows (before ++ [t]) rest

/-- The result of a loop that raises an exception, or none. -/
def loopResult (raised : Option PyException) : Except PyException Unit :=
  match raised with
  | some e => .error e
  | none => .ok ()

section Loop

variable {b : Builder} {s : Session} {db : Db}
variable {before ts : List NewTripUpdate} {t : NewTripUpdate}

theorem loopSession_concat :
    loopSession b s (before ++ [t]) =
      (handleTripUpdate b (loopSession b s before) t).1 := by
  rw [loopSession, List.foldl_append]
  rfl

/-- The stored row that a turn finds is left by those before it. -/
theorem findByDatedVj_loopSession :
    findByDatedVj (loopSession b db.session before).rows t.vj =
      rowBefore b db.tripUpdates before t :=
  rowOf_loopSession (distinctRows_session db) t.vj.datedKey

/-- The loop leaves the session of the turns on what it goes through. -/
theorem handleLoop_goneThrough :
    handleLoop b (loopSession b db.session before) ts =
      (loopSession b db.session (goneThrough b db.tripUpdates before ts).1,
        loopResult (goneThrough b db.tripUpdates before ts).2) := by
  induction ts generalizing before with
  | nil =>
      rfl
  | cons t rest ih =>
      have houtcome := handleTripUpdate_outcome b
        (loopSession b db.session before) t
      rw [findByDatedVj_loopSession] at houtcome
      rw [handleLoop, goneThrough]
      cases hlinked : (processTripUpdate b
          (rowBefore b db.tripUpdates before t) t).linked with
      | error e =>
          rw [hlinked] at houtcome
          rw [show handleTripUpdate b (loopSession b db.session before) t =
            (loopSession b db.session (before ++ [t]), .error e) from
            Prod.ext loopSession_concat.symm houtcome]
          rfl
      | ok accepted =>
          rw [hlinked] at houtcome
          rw [show handleTripUpdate b (loopSession b db.session before) t =
            (loopSession b db.session (before ++ [t]), .ok ()) from
            Prod.ext loopSession_concat.symm houtcome]
          exact ih

theorem handleLoop_eq_goneThrough :
    handleLoop b db.session ts =
      (loopSession b db.session (goneThrough b db.tripUpdates [] ts).1,
        loopResult (goneThrough b db.tripUpdates [] ts).2) :=
  @handleLoop_goneThrough b db [] ts

/-- A loop that raises nothing goes through all the trip updates. -/
theorem goneThrough_of_none
    {rows : List TripUpdate} (h : (goneThrough b rows before ts).2 = none) :
    (goneThrough b rows before ts).1 = before ++ ts := by
  induction ts generalizing before with
  | nil =>
      exact (List.append_nil before).symm
  | cons t rest ih =>
      rw [goneThrough] at h ⊢
      split
      · rename_i e hlinked
        rw [hlinked] at h
        cases h
      · rename_i accepted hlinked
        rw [hlinked] at h
        rw [ih h, List.append_assoc, List.singleton_append]

/-- The trip updates that a loop goes through are some of the feed. -/
theorem goneThrough_sublist
    (b : Builder) (rows : List TripUpdate) (before ts : List NewTripUpdate) :
    (goneThrough b rows before ts).1.Sublist (before ++ ts) := by
  induction ts generalizing before with
  | nil =>
      rw [List.append_nil]
      exact List.Sublist.refl before
  | cons t rest ih =>
      rw [goneThrough]
      split
      · exact ((List.nil_sublist rest).cons_cons t).append_left before
      · have hrest := ih (before ++ [t])
        rwa [List.append_assoc, List.singleton_append] at hrest

/-- A loop raises nothing when each merge returns in its turn. -/
theorem goneThrough_none_iff :
    (goneThrough b db.tripUpdates before ts).2 = none ↔
      Runs.Along (fun s t => (handleTripUpdate b s t).1)
        (fun s t => Merges b (rowOf s.rows t.vj.datedKey) t)
        (loopSession b db.session before) ts := by
  induction ts generalizing before with
  | nil =>
      exact iff_of_true rfl trivial
  | cons t rest ih =>
      rw [goneThrough, Runs.Along, ← loopSession_concat, ← ih,
        show rowOf (loopSession b db.session before).rows t.vj.datedKey =
          rowBefore b db.tripUpdates before t from findByDatedVj_loopSession,
        Merges]
      split
      · rename_i e hlinked
        simp [hlinked]
      · rename_i accepted hlinked
        simp [hlinked]

/-- The loop returns when no merge raises, each trip on its own. -/
theorem handleLoop_returns_iff :
    handleLoop b db.session ts = (loopSession b db.session ts, .ok ()) ↔
      ∀ k, Runs.Along (turnRow b) (Merges b) (rowOf db.tripUpdates k)
        (turnsOn k ts) := by
  have hkeyed := (turns_keyed b).along_iff (Q := Merges b)
    (along_trivial b db.session ts) (distinctRows_session db)
  have hnone := @goneThrough_none_iff b db [] ts
  refine Iff.trans ?_ (hnone.trans hkeyed)
  rw [handleLoop_eq_goneThrough]
  cases hraised : (goneThrough b db.tripUpdates [] ts).2 with
  | none =>
      rw [goneThrough_of_none hraised]
      exact iff_of_true rfl rfl
  | some e =>
      simp [loopResult]

/-- A loop that returns leaves the session of its turns. -/
theorem eq_loopSession
    {s : Session} (h : handleLoop b db.session ts = (s, .ok ())) :
    s = loopSession b db.session ts := by
  have hloop := @handleLoop_eq_goneThrough b db ts
  rw [h] at hloop
  cases hraised : (goneThrough b db.tripUpdates [] ts).2 with
  | none =>
      rw [goneThrough_of_none hraised] at hloop
      exact congrArg Prod.fst hloop
  | some e =>
      rw [hraised] at hloop
      cases congrArg Prod.snd hloop

end Loop

section Linked

variable {b : Builder} {db : Db} {rtu : RealTimeUpdate}
variable {ts : List NewTripUpdate} {row : TripUpdate}

theorem rowsAfter_key
    {k : DatedKey} (h : row ∈ rowsAfter b (rowOf db.tripUpdates k)
      (turnsOn k ts)) :
    row.vj.datedKey = k := by
  cases hfound : rowOf db.tripUpdates k with
  | some stored =>
      rw [hfound, rowsAfter, List.mem_singleton] at h
      rw [h, rowAfter_vj]
      exact ((rowOf_eq_some_iff db.uniqueDatedVj).1 hfound).2
  | none =>
      rw [hfound, rowsAfter] at h
      obtain ⟨t, ht, rfl⟩ := List.mem_map.1 h
      rw [processTripUpdate_vj]
      exact (mem_stepsOn.1 (List.mem_filter.1 ht).1).2

theorem eq_of_length_le_one
    {α : Type} {l : List α} (h : l.length ≤ 1) {a a' : α}
    (ha : a ∈ l) (ha' : a' ∈ l) :
    a = a' := by
  match l with
  | [x] =>
      rw [List.mem_singleton.1 ha, List.mem_singleton.1 ha']
  | _ :: _ :: _ =>
      simp at h

/-- A trip that is linked once is linked by the row it leaves. -/
theorem linksOn_of_rowsAfter
    {k : DatedKey}
    (honce : (linksOn b (rowOf db.tripUpdates k) (turnsOn k ts)).length ≤ 1)
    (hrow : row ∈ rowsAfter b (rowOf db.tripUpdates k) (turnsOn k ts))
    {id : String}
    (hid : id ∈ linksOn b (rowOf db.tripUpdates k) (turnsOn k ts)) :
    id = rowId row := by
  cases hfound : rowOf db.tripUpdates k with
  | some stored =>
      rw [hfound] at hrow hid
      rw [rowsAfter, List.mem_singleton] at hrow
      rw [linksOn_some hid, hrow, rowId, rowId, rowAfter_vj]
  | none =>
      rw [hfound] at honce hrow hid
      rw [linksOn_none, List.length_map] at honce
      rw [linksOn_none] at hid
      obtain ⟨t, ht, rfl⟩ := List.mem_map.1 hid
      obtain ⟨t', ht', rfl⟩ := List.mem_map.1 hrow
      rw [eq_of_length_le_one honce ht ht', rowId, processTripUpdate_vj]
      rfl

variable (hsame : SameIds db.tripUpdates ts)

include hsame in
/-- The rows linked to a feed are those of the trips that its turns link. -/
theorem links_turns_iff
    {k : DatedKey}
    (honce : (linksOn b (rowOf db.tripUpdates k) (turnsOn k ts)).length ≤ 1)
    (hrow : row ∈ rowsAfter b (rowOf db.tripUpdates k) (turnsOn k ts)) :
    rowId row ∈ (loopSession b db.session ts).links ↔
      linksOn b (rowOf db.tripUpdates k) (turnsOn k ts) ≠ [] := by
  have hkey := rowsAfter_key hrow
  have hall : row ∈ (loopSession b db.session ts).allRows :=
    mem_allRows_iff.2 ⟨k, hrow⟩
  rw [loopSession_links]
  simp only [Db.session, List.nil_append]
  constructor
  · intro hmem
    obtain ⟨⟨k', id⟩, hp, hid⟩ := List.mem_map.1 hmem
    simp only at hid
    subst hid
    have hp : (k', rowId row) ∈ loopLinks b db ts := hp
    obtain ⟨vj, hvj, hid, hkey'⟩ := exists_vj_of_loopLinks hp
    have hsamekey := hsame vj hvj row.vj (exists_vj_of_allRows hall) hid
    rw [hkey, hkey'] at hsamekey
    subst hsamekey
    intro hnil
    have hfiltered : (k', rowId row) ∈
        (loopLinks b db ts).filter (fun p => decide (p.1 = k')) :=
      List.mem_filter.2 ⟨hp, by simp⟩
    rw [filter_loopLinks, hnil] at hfiltered
    cases hfiltered
  · intro hne
    obtain ⟨id, hid⟩ := List.exists_mem_of_ne_nil _ hne
    have hfiltered := List.mem_map_of_mem (f := fun id => (k, id)) hid
    rw [← filter_loopLinks] at hfiltered
    refine List.mem_map.2 ⟨(k, id), (List.mem_filter.1 hfiltered).1, ?_⟩
    exact linksOn_of_rowsAfter honce hrow hid

/-- The row that a linked trip leaves can be encoded. -/
def LinkedEncodable (b : Builder) (old : Option TripUpdate)
    (us : List NewTripUpdate) : Prop :=
  linksOn b old us ≠ [] → ∀ row ∈ rowsAfter b old us, FieldsFit row

instance (b : Builder) (old : Option TripUpdate) (us : List NewTripUpdate) :
    Decidable (LinkedEncodable b old us) :=
  inferInstanceAs (Decidable (_ → _))

include hsame in
/-- What is linked to a feed can be encoded when each linked trip can. -/
theorem convert_turns_iff
    {db1 : Db} (hfresh : ∀ id, (rtu.id, id) ∉ db.associations)
    (hcommit : dbCommit db (loopSession b db.session ts) rtu = .ok db1) :
    (∃ entities, convertToGtfsrt (db1.tripUpdatesOf rtu) = .ok entities) ↔
      ∀ k, LinkedEncodable b (rowOf db.tripUpdates k) (turnsOn k ts) := by
  have hfits := (fitsDatabase_turns_iff hfresh hsame).1
    (dbCommit_ok_iff.1 ⟨db1, hcommit⟩)
  have hlinked : ∀ k, ∀ row ∈ rowsAfter b (rowOf db.tripUpdates k)
      (turnsOn k ts),
      (row ∈ db1.tripUpdatesOf rtu ↔
        linksOn b (rowOf db.tripUpdates k) (turnsOn k ts) ≠ []) := by
    intro k row hrow
    rw [tripUpdatesOf_fresh hcommit hfresh, (dbCommit_ok hcommit).1,
      ← links_turns_iff hsame (hfits.2 k).linkedOnce hrow]
    exact and_iff_right (mem_allRows_iff.2 ⟨k, hrow⟩)
  rw [convertToGtfsrt_ok_iff]
  constructor
  · intro hall k hne row hrow
    exact (hall row ((hlinked k row hrow).2 hne)).2
  · intro hall row hrow
    have hmem := ((tripUpdatesOf_fresh hcommit hfresh row).1 hrow).1
    -- the database has the effects of what it has stored
    refine ⟨db1.effects row hmem, ?_⟩
    rw [(dbCommit_ok hcommit).1] at hmem
    obtain ⟨k, hk⟩ := mem_allRows_iff.1 hmem
    exact hall k ((hlinked k row hk).1 hrow) row hk

end Linked

end Core
end Kirin
