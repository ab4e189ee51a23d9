import Kirin.Core.FeedRun
import Kirin.Library.KeyedStore

/-!
# Kirin: what one call to `handle` does to the rows

A trip update of a feed only touches the row of its dated vehicle journey, and
never the identity of that row.  The stored rows and the rows created by a call
are followed through its loop, up to the commit.

* `processTripUpdate_vj`: the content left for a trip keeps its vehicle journey.
* `handleLoop_invariant`: what each turn of the loop passes on.
* `handleLoop_rows_vj`: the loop keeps the vehicle journeys of the stored rows.
* `dbCommit_ok_iff`: a commit succeeds when what it writes fits the database.
* `handle_ok`: what a call that returns has committed and published.
-/

namespace Kirin
namespace Core

/-- The identifier of a row. -/
abbrev rowId (tu : TripUpdate) : String :=
  tu.vj.id

theorem replaceRow_eq
    (rows : List TripUpdate) (tu : TripUpdate) :
    replaceRow rows tu = KeyedStore.replace rowId rows tu :=
  rfl

theorem findByDatedVj_mem
    {rows : List TripUpdate} {vj : VehicleJourney} {old : TripUpdate}
    (h : findByDatedVj rows vj = some old) :
    old ∈ rows :=
  List.mem_of_find?_eq_some h

theorem findByDatedVj_key
    {rows : List TripUpdate} {vj : VehicleJourney} {old : TripUpdate}
    (h : findByDatedVj rows vj = some old) :
    old.vj.datedKey = vj.datedKey := by
  simpa using List.find?_some h

/-- No row has a dated vehicle journey that is not found. -/
theorem findByDatedVj_ne_key
    {rows : List TripUpdate} {vj : VehicleJourney} {row : TripUpdate}
    (h : findByDatedVj rows vj = none) (hrow : row ∈ rows) :
    row.vj.datedKey ≠ vj.datedKey := by
  have hne := List.find?_eq_none.1 h row hrow
  simpa using hne

/-- The only row of a dated vehicle journey is the one that is found. -/
theorem findByDatedVj_of_mem
    {rows : List TripUpdate} {vj : VehicleJourney} {old : TripUpdate}
    (hnodup : (rows.map (fun tu => tu.vj.datedKey)).Nodup)
    (hold : old ∈ rows) (hkey : old.vj.datedKey = vj.datedKey) :
    findByDatedVj rows vj = some old :=
  KeyedStore.find?_eq_some_of_key hnodup (by simp [hkey]) hold

section Process

variable {b : Builder} {old : Option TripUpdate} {new : NewTripUpdate}

/-- The content left for a trip is its header, with some stops. -/
theorem processTripUpdate_eq_header
    (b : Builder) (old : Option TripUpdate) (new : NewTripUpdate) :
    ∃ stops, (processTripUpdate b old new).tripUpdate =
      { mergeHeader old new b.isNewComplete with stopTimeUpdates := stops } := by
  by_cases hstatus : new.status = .delete
  · exact ⟨_, by rw [processTripUpdate_cancelled hstatus]⟩
  · cases hstops : mergeStops new.navitiaVj old new b.isNewComplete with
    | error e =>
        exact ⟨_, by rw [processTripUpdate_error hstatus hstops]⟩
    | ok r =>
        rcases r with ⟨stops, hasChanges⟩
        cases hasChanges with
        | false =>
            exact ⟨_, by rw [processTripUpdate_unchanged hstatus hstops]⟩
        | true =>
            exact ⟨_, by rw [processTripUpdate_changed hstatus hstops]⟩

/-- The content left for a trip keeps its vehicle journey. -/
theorem processTripUpdate_vj :
    (processTripUpdate b old new).tripUpdate.vj =
      (old.getD new.toTripUpdate).vj := by
  obtain ⟨stops, hleft⟩ := processTripUpdate_eq_header b old new
  rw [hleft]
  rfl

/-- The content left for a trip keeps its contributor. -/
theorem processTripUpdate_contributorId :
    (processTripUpdate b old new).tripUpdate.contributorId =
      (old.getD new.toTripUpdate).contributorId := by
  obtain ⟨stops, hleft⟩ := processTripUpdate_eq_header b old new
  rw [hleft]
  rfl

/-- The content left for a trip has the status and the effect of the feed. -/
theorem processTripUpdate_header :
    (processTripUpdate b old new).tripUpdate.status = new.status ∧
      (processTripUpdate b old new).tripUpdate.effect = new.effect := by
  obtain ⟨stops, hleft⟩ := processTripUpdate_eq_header b old new
  rw [hleft]
  exact ⟨rfl, rfl⟩

end Process

/-- The row of a dated vehicle journey once a trip update on it is handled. -/
def storedAfter (b : Builder) (old : Option TripUpdate) (new : NewTripUpdate) :
    Option TripUpdate :=
  if old.isSome ∨ (processTripUpdate b old new).linked = .ok true then
    some (processTripUpdate b old new).tripUpdate
  else none

theorem storedAfter_some
    (b : Builder) (old : TripUpdate) (new : NewTripUpdate) :
    storedAfter b (some old) new =
      some (processTripUpdate b (some old) new).tripUpdate := by
  simp [storedAfter]

theorem storedAfter_linked
    {b : Builder} {old : Option TripUpdate} {new : NewTripUpdate}
    (h : (processTripUpdate b old new).linked = .ok true) :
    storedAfter b old new =
      some (processTripUpdate b old new).tripUpdate := by
  simp [storedAfter, h]

section Step

variable {b : Builder} {s : Session} {t : NewTripUpdate}

/-- Without a stored row, a trip update leaves the rows as they are. -/
theorem handleTripUpdate_rows_of_none
    (b : Builder) (hold : findByDatedVj s.rows t.vj = none) :
    (handleTripUpdate b s t).1.rows = s.rows := by
  simp only [handleTripUpdate, hold]
  split <;> rfl

/-- A stored row is overwritten with what is left for its trip. -/
theorem handleTripUpdate_rows_of_some
    (b : Builder) {old : TripUpdate}
    (hold : findByDatedVj s.rows t.vj = some old) :
    (handleTripUpdate b s t).1.rows =
      replaceRow s.rows (processTripUpdate b (some old) t).tripUpdate := by
  simp only [handleTripUpdate, hold]
  split <;> rfl

/-- The links of a session after one trip update. -/
theorem handleTripUpdate_links
    (b : Builder) (s : Session) (t : NewTripUpdate) :
    (handleTripUpdate b s t).1.links =
      if (processTripUpdate b (findByDatedVj s.rows t.vj) t).linked = .ok true
      then s.links ++
        [rowId (processTripUpdate b (findByDatedVj s.rows t.vj) t).tripUpdate]
      else s.links := by
  unfold handleTripUpdate
  cases hold : findByDatedVj s.rows t.vj <;> simp only <;> split <;>
    rename_i hlinked <;> simp [hlinked]

/-- The rows created in a session after one trip update. -/
theorem handleTripUpdate_created
    (b : Builder) (s : Session) (t : NewTripUpdate) :
    (handleTripUpdate b s t).1.created =
      if findByDatedVj s.rows t.vj = none ∧
          (processTripUpdate b none t).linked = .ok true
      then s.created ++ [(processTripUpdate b none t).tripUpdate]
      else s.created := by
  unfold handleTripUpdate
  cases hold : findByDatedVj s.rows t.vj <;> simp only <;> split <;>
    rename_i hlinked <;> simp [hlinked]

/-- A trip update fails exactly when its processing does. -/
theorem handleTripUpdate_outcome
    (b : Builder) (s : Session) (t : NewTripUpdate) :
    (handleTripUpdate b s t).2 =
      match (processTripUpdate b (findByDatedVj s.rows t.vj) t).linked with
      | .error e => .error e
      | .ok _ => .ok () := by
  unfold handleTripUpdate
  cases hold : findByDatedVj s.rows t.vj <;> simp only <;> split <;>
    rename_i hlinked <;> simp [hlinked]

/-- The vehicle journeys of the stored rows are kept by a trip update. -/
theorem handleTripUpdate_rows_vj
    (hnodup : (s.rows.map rowId).Nodup) :
    (handleTripUpdate b s t).1.rows.map TripUpdate.vj =
      s.rows.map TripUpdate.vj := by
  cases hold : findByDatedVj s.rows t.vj with
  | none =>
      rw [handleTripUpdate_rows_of_none b hold]
  | some old =>
      rw [handleTripUpdate_rows_of_some b hold]
      have hvj :
          (processTripUpdate b (some old) t).tripUpdate.vj = old.vj :=
        processTripUpdate_vj
      exact KeyedStore.replace_map hnodup (findByDatedVj_mem hold)
        (congrArg VehicleJourney.id hvj) hvj

end Step

/-- What only depends on the vehicle journeys is kept with them. -/
theorem map_of_vj_eq
    {α : Type} (f : VehicleJourney → α) {rows rows' : List TripUpdate}
    (h : rows'.map TripUpdate.vj = rows.map TripUpdate.vj) :
    rows'.map (fun tu => f tu.vj) = rows.map (fun tu => f tu.vj) := by
  have hmap : ∀ l : List TripUpdate,
      l.map (fun tu => f tu.vj) = (l.map TripUpdate.vj).map f := by
    intro l
    rw [List.map_map]
    rfl
  rw [hmap, hmap, h]

/-- Whether a row is found only depends on the vehicle journeys. -/
theorem findByDatedVj_eq_none_of_vj
    {rows rows' : List TripUpdate}
    (h : rows'.map TripUpdate.vj = rows.map TripUpdate.vj)
    (vj : VehicleJourney) :
    findByDatedVj rows' vj = none ↔ findByDatedVj rows vj = none := by
  have hnone : ∀ l : List TripUpdate,
      findByDatedVj l vj = none ↔
        vj.datedKey ∉ l.map (fun tu => tu.vj.datedKey) := by
    intro l
    simp [findByDatedVj]
  rw [hnone, hnone, map_of_vj_eq VehicleJourney.datedKey h]

/-- So are their identifiers, which stay distinct. -/
theorem handleTripUpdate_rowIds
    {b : Builder} {s : Session} {t : NewTripUpdate}
    (hnodup : (s.rows.map rowId).Nodup) :
    ((handleTripUpdate b s t).1.rows.map rowId).Nodup := by
  rw [map_of_vj_eq VehicleJourney.id (handleTripUpdate_rows_vj hnodup)]
  exact hnodup

section Loop

variable {b : Builder}

/--
What each turn passes on to the trip updates that remain holds of the session
that the loop leaves, which goes through all of them unless one fails.
-/
theorem handleLoop_invariant
    {P : Session → List NewTripUpdate → Prop}
    (hturn : ∀ s t rest, P s (t :: rest) → P (handleTripUpdate b s t).1 rest)
    {s s' : Session} {ts : List NewTripUpdate} {r : Except PyException Unit}
    (hstart : P s ts) (h : handleLoop b s ts = (s', r)) :
    ∃ rest, P s' rest ∧ (r = .ok () → rest = []) := by
  induction ts generalizing s with
  | nil =>
      cases h
      exact ⟨[], hstart, fun _ => rfl⟩
  | cons t rest ih =>
      have hnext := hturn s t rest hstart
      simp only [handleLoop] at h
      split at h
      · rename_i s1 hone
        rw [hone] at hnext
        exact ih hnext h
      · rename_i s1 e hone
        cases h
        rw [hone] at hnext
        exact ⟨rest, hnext, nofun⟩

/-- The vehicle journeys of the stored rows are kept by the whole loop. -/
theorem handleLoop_rows_vj
    {s s' : Session} {ts : List NewTripUpdate} {r : Except PyException Unit}
    (hnodup : (s.rows.map rowId).Nodup)
    (h : handleLoop b s ts = (s', r)) :
    s'.rows.map TripUpdate.vj = s.rows.map TripUpdate.vj := by
  have hturn : ∀ (s1 : Session) (t : NewTripUpdate),
      s1.rows.map TripUpdate.vj = s.rows.map TripUpdate.vj →
      (handleTripUpdate b s1 t).1.rows.map TripUpdate.vj =
        s.rows.map TripUpdate.vj := by
    intro s1 t hvjs
    refine (handleTripUpdate_rows_vj ?_).trans hvjs
    rw [map_of_vj_eq VehicleJourney.id hvjs]
    exact hnodup
  obtain ⟨_, hvjs, -⟩ := handleLoop_invariant
    (P := fun s1 _ => s1.rows.map TripUpdate.vj = s.rows.map TripUpdate.vj)
    (fun s1 t _ => hturn s1 t) rfl h
  exact hvjs

end Loop

/--
The rows and the links of a session fit the keys and effects of the database, and
the driver takes their texts.
-/
structure FitsDatabase (db : Db) (rtu : RealTimeUpdate) (s : Session) :
    Prop where
  ids : (s.allRows.map rowId).Nodup
  keys : (s.allRows.map (fun tu => tu.vj.datedKey)).Nodup
  links : (db.associations ++ s.links.map (fun vjId => (rtu.id, vjId))).Nodup
  effects : ∀ tu ∈ s.allRows, EffectInDatabase tu
  texts : ∀ tu ∈ s.allRows, TextsFit tu
  error : rtu.ErrorFits

section Handle

variable {b : Builder} {brokerUp : Bool} {db db1 : Db} {rtu : RealTimeUpdate}
variable {ts : List NewTripUpdate} {s : Session}

/-- A commit writes the rows of the session and adds its links. -/
theorem dbCommit_ok
    (h : dbCommit db s rtu = .ok db1) :
    db1.tripUpdates = s.allRows ∧
      db1.associations =
        db.associations ++ s.links.map (fun vjId => (rtu.id, vjId)) := by
  simp only [dbCommit] at h
  split at h
  · split at h
    · split at h
      · cases h
        exact ⟨rfl, rfl⟩
      · cases h
    · cases h
  · cases h

/-- After its commit, a call does not touch the trip updates any more. -/
theorem handle_committed
    (hloop : handleLoop b db.session ts = (s, .ok ()))
    (hcommit : dbCommit db s rtu = .ok db1) :
    (handle b brokerUp db rtu ts).db.tripUpdates = s.allRows ∧
      (handle b brokerUp db rtu ts).db.associations = db1.associations := by
  obtain ⟨hrows, -⟩ := dbCommit_ok hcommit
  simp only [handle, hloop, hcommit]
  split
  · exact ⟨hrows, rfl⟩
  · split
    · exact ⟨hrows, rfl⟩
    · split
      · exact ⟨hrows, rfl⟩
      · exact ⟨hrows, rfl⟩

/-- A call that has committed leaves the session clean. -/
theorem handle_clean
    (hloop : handleLoop b db.session ts = (s, .ok ()))
    (hcommit : dbCommit db s rtu = .ok db1) :
    (handle b brokerUp db rtu ts).session = .clean := by
  simp only [handle, hloop, hcommit]
  split
  · rfl
  · split
    · rfl
    · split <;> rfl

/-- A call that returns has committed its session and published its links. -/
theorem handle_ok
    {rtu' : RealTimeUpdate}
    (h : (handle b brokerUp db rtu ts).outcome = .ok rtu') :
    ∃ s db1 entities,
      handleLoop b db.session ts = (s, .ok ()) ∧
      dbCommit db s rtu = .ok db1 ∧
      convertToGtfsrt (db1.tripUpdatesOf rtu) = .ok entities ∧
      (handle b brokerUp db rtu ts).published =
        some { contributorId := b.contributorId, entities := entities } := by
  cases hloop : handleLoop b db.session ts with
  | mk s r =>
      cases r with
      | error e =>
          simp [handle, hloop] at h
      | ok u =>
          cases hcommit : dbCommit db s rtu with
          | error e =>
              simp [handle, hloop, hcommit] at h
          | ok db1 =>
              cases hpb : convertToGtfsrt (db1.tripUpdatesOf rtu) with
              | error e =>
                  simp [handle, hloop, hcommit, hpb] at h
              | ok entities =>
                  refine ⟨s, db1, entities, rfl, hcommit, hpb, ?_⟩
                  cases brokerUp with
                  | false =>
                      simp [handle, hloop, hcommit, hpb] at h
                  | true =>
                      simp only [handle, hloop, hcommit, hpb, Bool.not_true,
                        Bool.false_eq_true, if_false]
                      split <;> rfl

/-- Only a call that returns has published. -/
theorem outcome_of_published
    {p : Publication} (h : (handle b brokerUp db rtu ts).published = some p) :
    ∃ r, (handle b brokerUp db rtu ts).outcome = .ok r := by
  revert h
  simp only [handle]
  split
  · simp
  · split
    · simp
    · split
      · simp
      · split
        · simp
        · split <;> simp

/-- A call whose loop raises leaves the database as it is. -/
theorem handle_raises
    {e : PyException} (hloop : handleLoop b db.session ts = (s, .error e)) :
    handle b brokerUp db rtu ts =
      { db := db, published := none, session := .dirty s
        outcome := .error e } := by
  simp [handle, hloop]

/-- A feed without any link yet is linked to distinct rows. -/
theorem nodup_associations
    (hfresh : ∀ id, (rtu.id, id) ∉ db.associations)
    {links : List String} (hlinks : links.Nodup) :
    (db.associations ++ links.map (fun vjId => (rtu.id, vjId))).Nodup := by
  rw [List.nodup_append]
  refine ⟨db.uniqueAssociation, ?_, ?_⟩
  · exact hlinks.map (fun id id' heq => congrArg Prod.snd heq)
  · rintro p hp p' hp' rfl
    obtain ⟨id, -, rfl⟩ := List.mem_map.1 hp'
    exact hfresh id hp

/-- A commit succeeds when what it writes fits the database. -/
theorem dbCommit_ok_iff :
    (∃ db1, dbCommit db s rtu = .ok db1) ↔ FitsDatabase db rtu s := by
  constructor
  · rintro ⟨db1, hcommit⟩
    obtain ⟨hrows, hassociations⟩ := dbCommit_ok hcommit
    constructor
    · exact hrows ▸ db1.uniqueVj
    · exact hrows ▸ db1.uniqueDatedVj
    · exact hassociations ▸ db1.uniqueAssociation
    · exact hrows ▸ db1.effects
    · exact hrows ▸ db1.texts
    · by_contra herror
      simp [dbCommit, herror] at hcommit
  · intro h
    simp only [dbCommit, dif_pos (And.intro h.error h.texts),
      dif_pos (And.intro h.ids (And.intro h.keys h.links)), dif_pos h.effects]
    exact ⟨_, rfl⟩

/-- A session that has the rows of some database fits what it asks of them. -/
theorem fitsDatabase_of_rows
    {db' : Db} (hrows : s.allRows = db'.tripUpdates)
    (hlinks :
      (db.associations ++ s.links.map (fun vjId => (rtu.id, vjId))).Nodup)
    (herror : rtu.ErrorFits) :
    FitsDatabase db rtu s where
  ids := hrows ▸ db'.uniqueVj
  keys := hrows ▸ db'.uniqueDatedVj
  links := hlinks
  effects := hrows ▸ db'.effects
  texts := hrows ▸ db'.texts
  error := herror

/-- A session that links and creates nothing can always be committed. -/
theorem dbCommit_unlinked
    (hlinks : s.links = []) (hcreated : s.created = [])
    (hvj : s.rows.map TripUpdate.vj = db.tripUpdates.map TripUpdate.vj)
    (heffects : ∀ tu ∈ s.rows, EffectInDatabase tu)
    (htexts : ∀ tu ∈ s.rows, TextsFit tu) (herror : rtu.ErrorFits) :
    ∃ db1, dbCommit db s rtu = .ok db1 := by
  have hrows : s.allRows = s.rows := by
    rw [Session.allRows, hcreated, List.append_nil]
  refine dbCommit_ok_iff.2 ⟨?_, ?_, ?_, ?_, ?_, herror⟩
  · rw [hrows, map_of_vj_eq VehicleJourney.id hvj]
    exact db.uniqueVj
  · rw [hrows, map_of_vj_eq VehicleJourney.datedKey hvj]
    exact db.uniqueDatedVj
  · rw [hlinks, List.map_nil, List.append_nil]
    exact db.uniqueAssociation
  · rw [hrows]
    exact heffects
  · rw [hrows]
    exact htexts

end Handle

end Core
end Kirin
