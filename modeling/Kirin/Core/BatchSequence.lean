import Kirin.Core.LoopOutcome

/-!
# Kirin: a batch of trip updates and the same trip updates one by one

The rows of a feed are looked up among those stored before its loop, so that a
trip created by one of its trip updates is not seen by the following ones.  A
trip update that is linked twice to a feed cannot be committed either.  Both the
batch and the successive calls are followed trip by trip.

* `handleOne`, `OneReturns`: a call with one trip update.
* `calls_keyed`: successive calls act on the row of their own trip.
* `handle_returns_iff`: when a batch returns, trip by trip.
* `followsSequence_iff`: when the trip updates on one trip leave what successive
  calls do.
* `batch_same_as_sequence`: when a batch does what the successive calls do.
-/

namespace Kirin
namespace Core

open KeyedRuns

/-- What a call with one trip update leaves. -/
def handleOne (b : Builder) (db : Db) (c : RealTimeUpdate × NewTripUpdate) :
    Db :=
  (handle b true db c.1 [c.2]).db

/-- A call with one trip update returns. -/
def OneReturns (b : Builder) (db : Db) (c : RealTimeUpdate × NewTripUpdate) :
    Prop :=
  (handle b true db c.1 [c.2]).outcome.isOk = true

instance (b : Builder) (db : Db) (c : RealTimeUpdate × NewTripUpdate) :
    Decidable (OneReturns b db c) :=
  inferInstanceAs (Decidable (_ = true))

/--
A batch returns, leaves the rows that some calls have left, and has at most one
of them for each dated vehicle journey.
-/
structure SameAsSequence (b : Builder) (rtu : RealTimeUpdate) (db : Db)
    (ts : List NewTripUpdate) (db' : Db) : Prop where
  returns : (handle b true db rtu ts).outcome.isOk = true
  rows : (handle b true db rtu ts).db.tripUpdates.Perm db'.tripUpdates
  distinct : ((handle b true db rtu ts).db.tripUpdates.map
    (fun row => row.vj.datedKey)).Nodup

/--
Among the trip updates on a trip that is not stored, those that follow the one
that creates it are refused on their own, and would leave its row as it is.
-/
def CreatedOnce (b : Builder) : List NewTripUpdate → Prop
  | [] => True
  | t :: us =>
      if Creates b t then
        (∀ t' ∈ us, (processTripUpdate b none t').linked = .ok false) ∧
          rowAfter b (processTripUpdate b none t).tripUpdate us =
            (processTripUpdate b none t).tripUpdate
      else CreatedOnce b us

instance CreatedOnce.decidable (b : Builder) :
    (us : List NewTripUpdate) → Decidable (CreatedOnce b us)
  | [] => inferInstanceAs (Decidable True)
  | t :: us =>
      have : Decidable (CreatedOnce b us) := CreatedOnce.decidable b us
      inferInstanceAs (Decidable (if Creates b t then _ else _))

/--
The trip updates on a trip create it once, or link its stored row once and leave
it encodable then.
-/
def FollowsSequence (b : Builder) (old : Option TripUpdate)
    (us : List NewTripUpdate) : Prop :=
  match old with
  | some row =>
      (linksOn b (some row) us).length ≤ 1 ∧
        (linksOn b (some row) us ≠ [] → FieldsFit (rowAfter b row us))
  | none => CreatedOnce b us

instance (b : Builder) (old : Option TripUpdate) (us : List NewTripUpdate) :
    Decidable (FollowsSequence b old us) :=
  match old with
  | some _ => inferInstanceAs (Decidable (_ ∧ (_ → _)))
  | none => inferInstanceAs (Decidable (CreatedOnce b us))

/-- A call with a trip update on a row merges it, stores it and publishes it. -/
structure TurnReturns (b : Builder) (old : Option TripUpdate)
    (t : NewTripUpdate) : Prop where
  merges : Merges b old t
  storable : ∀ row ∈ storedAfter b old t, Storable row
  encodable : (processTripUpdate b old t).linked = .ok true →
    FieldsFit (processTripUpdate b old t).tripUpdate

/-- The trip updates on a trip are merged, stored and published by one call. -/
structure BatchReturns (b : Builder) (old : Option TripUpdate)
    (us : List NewTripUpdate) : Prop where
  merges : Runs.Along (turnRow b) (Merges b) old us
  fit : TurnsFit b old us
  encodable : LinkedEncodable b old us

section Trip

variable {b : Builder} {row : TripUpdate} {us : List NewTripUpdate}

/-- Successive calls update the row of a stored trip as the batch does. -/
theorem foldl_storedAfter_some
    (b : Builder) (row : TripUpdate) (us : List NewTripUpdate) :
    us.foldl (storedAfter b) (some row) = some (rowAfter b row us) := by
  induction us generalizing row with
  | nil =>
      rfl
  | cons t us ih =>
      rw [List.foldl_cons, storedAfter_some, ih]
      rfl

theorem turnReturns_some
    (h : Runs.Along (storedAfter b) (TurnReturns b) (some row) us) :
    Runs.Along (turnRow b) (Merges b) (some row) us ∧
      (Storable row → Storable (rowAfter b row us)) := by
  induction us generalizing row with
  | nil =>
      exact ⟨trivial, id⟩
  | cons t us ih =>
      obtain ⟨hturn, hrest⟩ := h
      rw [storedAfter_some] at hrest
      obtain ⟨hmerges, hstorable⟩ := ih hrest
      have hleft := hturn.storable _ (storedAfter_some b row t)
      exact ⟨⟨hturn.merges, hmerges⟩, fun _ => hstorable hleft⟩

/-- A trip update that does not create its trip is refused. -/
theorem refused_iff
    {t : NewTripUpdate} :
    (processTripUpdate b none t).linked = .ok false ↔
      Merges b none t ∧ ¬ Creates b t := by
  unfold Merges Creates
  cases (processTripUpdate b none t).linked with
  | error e =>
      simp
  | ok accepted =>
      simp

theorem along_merges_none :
    Runs.Along (turnRow b) (Merges b) none us ↔ ∀ t ∈ us, Merges b none t := by
  induction us with
  | nil =>
      simp [Runs.Along]
  | cons t us ih =>
      rw [Runs.Along, show turnRow b none t = none from rfl, ih,
        List.forall_mem_cons]

theorem rowsAfter_none_cons
    (b : Builder) (t : NewTripUpdate) (us : List NewTripUpdate) :
    rowsAfter b none (t :: us) =
      if Creates b t then
        (processTripUpdate b none t).tripUpdate :: rowsAfter b none us
      else rowsAfter b none us := by
  simp only [rowsAfter, List.filter_cons, decide_eq_true_eq]
  split
  · rw [List.map_cons]
  · rfl

theorem linksOn_none_cons
    (b : Builder) (t : NewTripUpdate) (us : List NewTripUpdate) :
    linksOn b none (t :: us) =
      if Creates b t then t.vj.id :: linksOn b none us
      else linksOn b none us := by
  simp only [linksOn_none, List.filter_cons, decide_eq_true_eq]
  split
  · rw [List.map_cons]
  · rfl

theorem linksOn_none_eq_nil_iff :
    linksOn b none us = [] ↔ ∀ t ∈ us, ¬ Creates b t := by
  rw [linksOn_none, List.map_eq_nil_iff, List.filter_eq_nil_iff]
  simp

theorem rowsAfter_none_eq_nil
    (h : linksOn b none us = []) :
    rowsAfter b none us = [] := by
  rw [linksOn_none, List.map_eq_nil_iff] at h
  rw [rowsAfter, h, List.map_nil]

/-- A trip that is not stored is left so by trip updates that do not create it. -/
theorem storedAfter_of_not_creates
    {t : NewTripUpdate} (h : ¬ Creates b t) :
    storedAfter b none t = none := by
  rw [storedAfter, if_neg]
  rintro (hsome | hlinked)
  · cases hsome
  · exact h hlinked

/-- The trip updates that follow a creation are all refused on their own. -/
theorem batchReturns_created_iff
    {t : NewTripUpdate} (hcreates : Creates b t) (hturn : TurnReturns b none t) :
    BatchReturns b none (t :: us) ↔
      ∀ t' ∈ us, (processTripUpdate b none t').linked = .ok false := by
  have hstorable := hturn.storable _ (storedAfter_linked hcreates)
  have hrefused :
      (∀ t' ∈ us, (processTripUpdate b none t').linked = .ok false) ↔
        (∀ t' ∈ us, Merges b none t') ∧ linksOn b none us = [] := by
    rw [linksOn_none_eq_nil_iff]
    simp only [refused_iff]
    exact ⟨fun h => ⟨fun t' ht' => (h t' ht').1, fun t' ht' => (h t' ht').2⟩,
      fun h t' ht' => ⟨h.1 t' ht', h.2 t' ht'⟩⟩
  rw [hrefused]
  constructor
  · intro h
    have hmerges := along_merges_none.1 h.merges
    have honce := h.fit.linkedOnce
    rw [linksOn_none_cons, if_pos hcreates, List.length_cons] at honce
    exact ⟨fun t' ht' => hmerges t' (List.mem_cons_of_mem t ht'),
      List.length_eq_zero_iff.1 (by omega)⟩
  · rintro ⟨hmerges, hnil⟩
    have hrows : rowsAfter b none (t :: us) =
        [(processTripUpdate b none t).tripUpdate] := by
      rw [rowsAfter_none_cons, if_pos hcreates, rowsAfter_none_eq_nil hnil]
    refine ⟨along_merges_none.2 ?_, ⟨?_, ?_⟩, fun _ => ?_⟩
    · exact List.forall_mem_cons.2 ⟨hturn.merges, hmerges⟩
    · rw [linksOn_none_cons, if_pos hcreates, hnil]
      exact Nat.le_refl 1
    · rw [hrows, List.forall_mem_singleton]
      exact hstorable
    · rw [hrows, List.forall_mem_singleton]
      exact hturn.encodable hcreates

/-- A trip update that does not create its trip says nothing of the others. -/
theorem batchReturns_cons_iff
    {t : NewTripUpdate} (hcreates : ¬ Creates b t)
    (hturn : TurnReturns b none t) :
    BatchReturns b none (t :: us) ↔ BatchReturns b none us := by
  have hlinks := linksOn_none_cons b t us
  have hrows := rowsAfter_none_cons b t us
  rw [if_neg hcreates] at hlinks hrows
  have hfit : TurnsFit b none (t :: us) ↔ TurnsFit b none us := by
    constructor
    · exact fun h => ⟨hlinks ▸ h.linkedOnce, hrows ▸ h.storable⟩
    · exact fun h => ⟨hlinks.symm ▸ h.linkedOnce, hrows.symm ▸ h.storable⟩
  have hencodable : LinkedEncodable b none (t :: us) ↔
      LinkedEncodable b none us := by
    rw [LinkedEncodable, LinkedEncodable, hlinks, hrows]
  constructor
  · exact fun h => ⟨h.merges.2, hfit.1 h.fit, hencodable.1 h.encodable⟩
  · exact fun h => ⟨⟨hturn.merges, h.merges⟩, hfit.2 h.fit,
      hencodable.2 h.encodable⟩

/--
When successive calls return, the trip updates on one trip are handled by one
call, and leave what they leave, exactly when they follow the sequence.
-/
theorem followsSequence_iff
    {old : Option TripUpdate} (hold : ∀ row ∈ old, Storable row)
    (hreturn : Runs.Along (storedAfter b) (TurnReturns b) old us) :
    FollowsSequence b old us ↔
      BatchReturns b old us ∧
        rowsAfter b old us = (us.foldl (storedAfter b) old).toList := by
  cases old with
  | some row =>
      obtain ⟨hmerges, hstorable⟩ := turnReturns_some hreturn
      have hleft := hstorable (hold row rfl)
      rw [foldl_storedAfter_some]
      constructor
      · rintro ⟨honce, hfits⟩
        refine ⟨⟨hmerges, ⟨honce, ?_⟩, fun hlinked => ?_⟩, rfl⟩
        · exact List.forall_mem_singleton.2 hleft
        · exact List.forall_mem_singleton.2 (hfits hlinked)
      · rintro ⟨⟨-, hfit, hencodable⟩, -⟩
        exact ⟨hfit.linkedOnce, fun hlinked =>
          List.forall_mem_singleton.1 (hencodable hlinked)⟩
  | none =>
      change CreatedOnce b us ↔ _
      induction us with
      | nil =>
          refine iff_of_true trivial ⟨⟨trivial, ⟨?_, ?_⟩, ?_⟩, rfl⟩
          · exact Nat.zero_le 1
          · exact fun row hrow => absurd hrow List.not_mem_nil
          · exact fun hlinked => absurd rfl hlinked
      | cons t us ih =>
          obtain ⟨hturn, hrest⟩ := hreturn
          rw [CreatedOnce]
          split
          · rename_i hcreates
            rw [List.foldl_cons, storedAfter_linked hcreates,
              foldl_storedAfter_some, batchReturns_created_iff hcreates hturn]
            refine and_congr_right (fun hrefused => ?_)
            have hnil : linksOn b none us = [] :=
              linksOn_none_eq_nil_iff.2
                (fun t' ht' => (refused_iff.1 (hrefused t' ht')).2)
            rw [rowsAfter_none_cons, if_pos hcreates,
              rowsAfter_none_eq_nil hnil, Option.toList_some, List.cons.injEq]
            exact ⟨fun heq => ⟨heq.symm, rfl⟩, fun heq => heq.1.symm⟩
          · rename_i hcreates
            rw [storedAfter_of_not_creates hcreates] at hrest
            rw [List.foldl_cons, storedAfter_of_not_creates hcreates,
              batchReturns_cons_iff hcreates hturn, rowsAfter_none_cons,
              if_neg hcreates]
            exact ih hrest

/-- No trip update on a trip leaves it as it is. -/
theorem followsSequence_nil
    (b : Builder) (old : Option TripUpdate) :
    FollowsSequence b old [] := by
  cases old with
  | some row =>
      exact ⟨Nat.zero_le 1, fun hlinked => absurd rfl hlinked⟩
  | none =>
      trivial

end Trip

section Calls

variable {b : Builder} {db db1 : Db} {rtu : RealTimeUpdate}
variable {ts : List NewTripUpdate} {c : RealTimeUpdate × NewTripUpdate}
variable {k : DatedKey}

/-- The row of a trip once a loop is committed. -/
theorem rowOf_committed
    (hcommit : dbCommit db (loopSession b db.session ts) rtu = .ok db1)
    {row : TripUpdate} :
    rowOf db1.tripUpdates k = some row ↔
      row ∈ rowsAfter b (rowOf db.tripUpdates k) (turnsOn k ts) := by
  rw [rowOf_eq_some_iff db1.uniqueDatedVj, (dbCommit_ok hcommit).1,
    mem_allRows_iff]
  constructor
  · rintro ⟨⟨k', hrow⟩, hkey⟩
    rw [rowsAfter_key hrow] at hkey
    exact hkey ▸ hrow
  · exact fun hrow => ⟨⟨k, hrow⟩, rowsAfter_key hrow⟩

/-- The rows that one trip update leaves for its trip. -/
theorem mem_rowsAfter_single
    {old : Option TripUpdate} {t : NewTripUpdate} {row : TripUpdate} :
    row ∈ rowsAfter b old [t] ↔ storedAfter b old t = some row := by
  cases old with
  | some stored =>
      rw [storedAfter_some, Option.some_inj, eq_comm]
      exact List.mem_singleton
  | none =>
      rw [rowsAfter_none_cons]
      split
      · rename_i hcreates
        rw [storedAfter_linked hcreates, Option.some_inj, eq_comm]
        exact List.mem_singleton
      · rename_i hcreates
        rw [storedAfter_of_not_creates hcreates]
        exact iff_of_false List.not_mem_nil nofun

theorem mem_rowsAfter_nil
    {old : Option TripUpdate} {row : TripUpdate} :
    row ∈ rowsAfter b old [] ↔ old = some row := by
  cases old with
  | some stored =>
      rw [Option.some_inj, eq_comm]
      exact List.mem_singleton
  | none =>
      exact iff_of_false List.not_mem_nil nofun

/-- A call that returns has committed its turn and encoded what it links. -/
theorem oneReturns_committed
    (h : OneReturns b db c) :
    ∃ db1 entities,
      handleLoop b db.session [c.2] = (loopSession b db.session [c.2], .ok ()) ∧
      dbCommit db (loopSession b db.session [c.2]) c.1 = .ok db1 ∧
      convertToGtfsrt (db1.tripUpdatesOf c.1) = .ok entities ∧
      (handleOne b db c).tripUpdates = db1.tripUpdates := by
  obtain ⟨r, hok⟩ := Checked.exists_eq_ok h
  obtain ⟨s, db1, entities, hloop, hcommit, hpb, -⟩ := handle_ok hok
  have hrows : (handle b true db c.1 [c.2]).db.tripUpdates = s.allRows :=
    (handle_committed hloop hcommit).1
  obtain rfl := eq_loopSession hloop
  refine ⟨db1, entities, hloop, hcommit, hpb, ?_⟩
  rw [handleOne, hrows, (dbCommit_ok hcommit).1]

/-- A call acts on the row of its own trip. -/
theorem rowOf_handleOne
    (h : OneReturns b db c) :
    rowOf (handleOne b db c).tripUpdates k =
      if c.2.vj.datedKey = k then
        storedAfter b (rowOf db.tripUpdates k) c.2
      else rowOf db.tripUpdates k := by
  obtain ⟨db1, entities, -, hcommit, -, hrows⟩ := oneReturns_committed h
  refine Option.ext (fun row => ?_)
  rw [hrows, rowOf_committed hcommit, turnsOn, stepsOn_cons]
  split
  · exact mem_rowsAfter_single
  · exact mem_rowsAfter_nil

/-- Successive calls act on the row of their own trip. -/
theorem calls_keyed
    (b : Builder) :
    Keyed (handleOne b) (OneReturns b) (fun _ => True)
      (fun c : RealTimeUpdate × NewTripUpdate => c.2.vj.datedKey)
      (fun db k => rowOf db.tripUpdates k)
      (fun old c => storedAfter b old c.2) where
  keeps := fun _ _ _ _ => trivial
  lookup_step := fun _ _ _ _ h => rowOf_handleOne h

/-- A call that returns merges, stores and publishes its trip. -/
theorem turnReturns_of_oneReturns
    (h : OneReturns b db c) :
    TurnReturns b (rowOf db.tripUpdates c.2.vj.datedKey) c.2 := by
  obtain ⟨db1, entities, hloop, hcommit, hpb, hrows⟩ := oneReturns_committed h
  have hmerges := handleLoop_returns_iff.1 hloop c.2.vj.datedKey
  rw [turnsOn, stepsOn_cons, if_pos rfl] at hmerges
  have hstored : ∀ row, storedAfter b (rowOf db.tripUpdates c.2.vj.datedKey)
      c.2 = some row → row ∈ db1.tripUpdates := by
    intro row hrow
    have hfound := rowOf_handleOne (k := c.2.vj.datedKey) h
    rw [if_pos rfl, hrow, hrows] at hfound
    exact List.mem_of_find?_eq_some hfound
  refine ⟨hmerges.1, fun row hrow => ?_, fun hlinked => ?_⟩
  · exact ⟨db1.effects row (hstored row hrow), db1.texts row (hstored row hrow)⟩
  · have hlink : rowId (processTripUpdate b
        (rowOf db.tripUpdates c.2.vj.datedKey) c.2).tripUpdate ∈
          (loopSession b db.session [c.2]).links := by
      have hlinks := handleTripUpdate_links b db.session c.2
      rw [show findByDatedVj db.session.rows c.2.vj =
        rowOf db.tripUpdates c.2.vj.datedKey from rfl, if_pos hlinked] at hlinks
      rw [loopSession, List.foldl_cons, List.foldl_nil, hlinks]
      exact List.mem_append_right _ (List.mem_singleton_self _)
    have hpublished := mem_tripUpdatesOf hcommit
      (hstored _ (storedAfter_linked hlinked)) hlink
    exact (convertToGtfsrt_ok_iff.1 ⟨entities, hpb⟩ _ hpublished).2

end Calls

section Batch

variable {b : Builder} {db : Db} {rtu : RealTimeUpdate}
variable {ts : List NewTripUpdate}
variable (hfresh : ∀ id, (rtu.id, id) ∉ db.associations)
variable (hsame : SameIds db.tripUpdates ts)

include hfresh hsame in
/-- When a batch returns, trip by trip. -/
theorem handle_returns_iff :
    (handle b true db rtu ts).outcome.isOk = true ↔
      rtu.ErrorFits ∧
        ∀ k, BatchReturns b (rowOf db.tripUpdates k) (turnsOn k ts) := by
  constructor
  · intro h
    obtain ⟨r, hok⟩ := Checked.exists_eq_ok h
    obtain ⟨s, db1, entities, hloop, hcommit, hpb, -⟩ := handle_ok hok
    obtain rfl := eq_loopSession hloop
    obtain ⟨herror, hfit⟩ := (fitsDatabase_turns_iff hfresh hsame).1
      (dbCommit_ok_iff.1 ⟨db1, hcommit⟩)
    have hencodable := (convert_turns_iff hsame hfresh hcommit).1 ⟨entities, hpb⟩
    exact ⟨herror, fun k => ⟨handleLoop_returns_iff.1 hloop k, hfit k,
      hencodable k⟩⟩
  · rintro ⟨herror, hall⟩
    have hloop := handleLoop_returns_iff.2 (fun k => (hall k).merges)
    obtain ⟨db1, hcommit⟩ := dbCommit_ok_iff.2
      ((fitsDatabase_turns_iff hfresh hsame).2
        ⟨herror, fun k => (hall k).fit⟩)
    obtain ⟨entities, hpb⟩ := (convert_turns_iff hsame hfresh hcommit).2
      (fun k => (hall k).encodable)
    simp only [handle, hloop, hcommit, hpb, Bool.not_true, Bool.false_eq_true,
      if_false]
    split <;> rfl

end Batch

/-- Two lists of rows with distinct keys are the same when they find the same. -/
theorem perm_of_rowOf
    {rows rows' : List TripUpdate}
    (hkeys : (rows.map (fun row => row.vj.datedKey)).Nodup)
    (hkeys' : (rows'.map (fun row => row.vj.datedKey)).Nodup) :
    rows.Perm rows' ↔ ∀ k, rowOf rows k = rowOf rows' k := by
  rw [List.perm_ext_iff_of_nodup hkeys.of_map hkeys'.of_map]
  constructor
  · intro h k
    refine Option.ext (fun row => ?_)
    rw [rowOf_eq_some_iff hkeys, rowOf_eq_some_iff hkeys', h row]
  · intro h row
    have hiff : rowOf rows row.vj.datedKey = some row ↔
        row ∈ rows ∧ row.vj.datedKey = row.vj.datedKey :=
      rowOf_eq_some_iff hkeys
    rw [h, rowOf_eq_some_iff hkeys'] at hiff
    simpa using hiff.symm

/-- What is found for a trip is the only row that is left for it. -/
theorem eq_toList_iff
    {α : Type} {rows : List α} {found left : Option α}
    (hfound : ∀ a, found = some a ↔ a ∈ rows) (hone : rows.length ≤ 1) :
    found = left ↔ rows = left.toList := by
  match rows with
  | [] =>
      have hnone : found = none :=
        Option.eq_none_iff_forall_ne_some.2
          (fun a ha => absurd ((hfound a).1 ha) List.not_mem_nil)
      rw [hnone]
      cases left <;> simp
  | [a] =>
      rw [(hfound a).2 List.mem_cons_self]
      cases left <;> simp
  | _ :: _ :: _ =>
      simp at hone

section Sequence

variable {b : Builder} {db : Db} {rtu : RealTimeUpdate}
variable {ts : List NewTripUpdate}
variable {calls : List (RealTimeUpdate × NewTripUpdate)}

/-- The calls on a trip are those with the trip updates on it. -/
theorem map_stepsOn_calls
    (hcalls : calls.map Prod.snd = ts) (k : DatedKey) :
    (stepsOn (fun c : RealTimeUpdate × NewTripUpdate => c.2.vj.datedKey) k
      calls).map Prod.snd = turnsOn k ts := by
  rw [← hcalls, turnsOn, stepsOn, stepsOn, List.filter_map]
  rfl

/-- The row of a trip after successive calls. -/
theorem rowOf_calls
    (hcalls : calls.map Prod.snd = ts)
    (hreturn : Runs.Along (handleOne b) (OneReturns b) db calls)
    (k : DatedKey) :
    rowOf (calls.foldl (handleOne b) db).tripUpdates k =
      (turnsOn k ts).foldl (storedAfter b) (rowOf db.tripUpdates k) := by
  rw [(calls_keyed b).lookup_foldl hreturn trivial, ← map_stepsOn_calls hcalls,
    List.foldl_map]

/-- Each trip is merged, stored and published by the calls on it. -/
theorem turnReturns_calls
    (hcalls : calls.map Prod.snd = ts)
    (hreturn : Runs.Along (handleOne b) (OneReturns b) db calls)
    (k : DatedKey) :
    Runs.Along (storedAfter b) (TurnReturns b) (rowOf db.tripUpdates k)
      (turnsOn k ts) := by
  have hturns := ((calls_keyed b).along_iff
    (Q := fun old c => TurnReturns b old c.2) hreturn trivial).1
      (hreturn.imp (fun _ _ h => turnReturns_of_oneReturns h))
  rw [← map_stepsOn_calls hcalls, Runs.along_map]
  exact hturns k

/-- The row of a trip after a batch that returns. -/
theorem rowOf_batch
    (hreturns : (handle b true db rtu ts).outcome.isOk = true) (k : DatedKey)
    {row : TripUpdate} :
    rowOf (handle b true db rtu ts).db.tripUpdates k = some row ↔
      row ∈ rowsAfter b (rowOf db.tripUpdates k) (turnsOn k ts) := by
  obtain ⟨r, hok⟩ := Checked.exists_eq_ok hreturns
  obtain ⟨s, db1, entities, hloop, hcommit, -⟩ := handle_ok hok
  obtain rfl := eq_loopSession hloop
  rw [(handle_committed hloop hcommit).1, ← (dbCommit_ok hcommit).1]
  exact rowOf_committed hcommit

/-- A trip that fits has one row at most. -/
theorem TurnsFit.rowsAfter_length
    {old : Option TripUpdate} {us : List NewTripUpdate}
    (h : TurnsFit b old us) :
    (rowsAfter b old us).length ≤ 1 := by
  cases old with
  | some row =>
      exact Nat.le_refl 1
  | none =>
      have honce := h.linkedOnce
      rw [linksOn_none, List.length_map] at honce
      rw [rowsAfter, List.length_map]
      exact honce

end Sequence

namespace Sample

/-- The second stop is five minutes late. -/
def delayedStop : NewTripUpdate :=
  { onTime with
    stopTimeUpdates :=
      [unchanged "sp:a" 0,
        { unchanged "sp:b" 1 with
          arrivalDelay := some (300 * second), arrivalStatus := .update
          departureDelay := some (300 * second), departureStatus := .update },
        unchanged "sp:c" 2] }

/-- The same trip on the next day. -/
def onTimeNextDay : NewTripUpdate :=
  { onTime with
    vj :=
      { id := "9c2d", navitiaTripId := "trip:1"
        startTimestamp := clock 32 0 } }

/-- A delay that is given twice, for a trip that is stored, around a new trip. -/
def delayedTwiceCalls : List (RealTimeUpdate × NewTripUpdate) :=
  [(received "2", delayedStop), (received "3", onTimeNextDay),
    (received "4", delayedStop)]

end Sample

end Core
end Kirin
