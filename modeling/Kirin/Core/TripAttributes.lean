import Kirin.Core.FeedOutcome

/-!
# Kirin: the attributes of a stored trip

The merge takes the status, the effect and the message of a trip from the last
feed.  When a row is stored it keeps the company, the physical mode and the
headsign of the row, which are those of the feed that has created it.

* `TripAttributes`: the attributes of a trip, `givenOnce` among them.
* `processTripUpdate_attributes_iff`: an accepted trip has the attributes of its
  feed exactly when those given once are the stored ones.
* `handleLoop_rows_givenOnce`: the loop of a feed keeps these.
* `AcceptsTrip`: a trip of a feed is accepted and committed.
* `AcceptsTrip.stores_iff`: the row that is then stored has the attributes of
  the trip exactly when the row stored before, if any, has those given once.
-/

namespace Kirin
namespace Core

/-- What the merge leaves to the first feed on a trip. -/
structure GivenOnce where
  companyId : Option String
  physicalModeId : Option String
  headsign : Option String
deriving DecidableEq, Repr

/-- What a feed says of a trip as a whole. -/
structure TripAttributes where
  status : ModificationType
  effect : Option TripEffect
  message : Option String
  once : GivenOnce
deriving DecidableEq, Repr

namespace TripUpdate

def givenOnce (tu : TripUpdate) : GivenOnce where
  companyId := tu.companyId
  physicalModeId := tu.physicalModeId
  headsign := tu.headsign

def attributes (tu : TripUpdate) : TripAttributes where
  status := tu.status
  effect := tu.effect
  message := tu.message
  once := tu.givenOnce

end TripUpdate

section Process

variable {b : Builder} {old : Option TripUpdate} {t : NewTripUpdate}

/-- The content left for a trip has the attributes of the merge. -/
theorem processTripUpdate_attributes :
    (processTripUpdate b old t).tripUpdate.attributes =
      (mergeHeader old t b.isNewComplete).attributes := by
  obtain ⟨stops, hleft⟩ := processTripUpdate_eq_header b old t
  rw [hleft]
  rfl

/-- The attributes given once are those of the stored row, if there is one. -/
theorem processTripUpdate_givenOnce :
    (processTripUpdate b old t).tripUpdate.givenOnce =
      (old.getD t.toTripUpdate).givenOnce :=
  congrArg TripAttributes.once processTripUpdate_attributes

/-- A complete feed leaves its attributes when those given once are stored. -/
theorem processTripUpdate_attributes_iff
    (hcomplete : b.isNewComplete = true) :
    (processTripUpdate b old t).tripUpdate.attributes =
        t.toTripUpdate.attributes ↔
      ∀ row ∈ old, row.givenOnce = t.toTripUpdate.givenOnce := by
  have hmessage : (mergeHeader old t true).message = t.message := by
    simp [mergeHeader]
  have heq : (mergeHeader old t true).attributes =
      { t.toTripUpdate.attributes with
        once := (old.getD t.toTripUpdate).givenOnce } := by
    rw [TripUpdate.attributes, hmessage]
    rfl
  rw [processTripUpdate_attributes, hcomplete, heq, TripUpdate.attributes]
  cases old with
  | none =>
      simp
  | some row =>
      simp

end Process

section Loop

variable {b : Builder} {s s' : Session} {t : NewTripUpdate}
variable {ts : List NewTripUpdate} {r : Except PyException Unit}

/-- The attributes given once are kept in the stored rows by a trip update. -/
theorem handleTripUpdate_rows_givenOnce
    (hnodup : (s.rows.map rowId).Nodup) :
    (handleTripUpdate b s t).1.rows.map (fun row => (row.vj, row.givenOnce)) =
      s.rows.map (fun row => (row.vj, row.givenOnce)) := by
  cases hfind : findByDatedVj s.rows t.vj with
  | none =>
      rw [handleTripUpdate_rows_of_none b hfind]
  | some old =>
      rw [handleTripUpdate_rows_of_some b hfind]
      have hvj : (processTripUpdate b (some old) t).tripUpdate.vj = old.vj :=
        processTripUpdate_vj
      exact KeyedStore.replace_map hnodup (findByDatedVj_mem hfind)
        (congrArg VehicleJourney.id hvj)
        (Prod.ext hvj processTripUpdate_givenOnce)

/-- So are they by the whole loop. -/
theorem handleLoop_rows_givenOnce
    (hnodup : (s.rows.map rowId).Nodup) (hloop : handleLoop b s ts = (s', r)) :
    s'.rows.map (fun row => (row.vj, row.givenOnce)) =
      s.rows.map (fun row => (row.vj, row.givenOnce)) := by
  have hturn : ∀ (s1 : Session) (t : NewTripUpdate),
      s1.rows.map (fun row => (row.vj, row.givenOnce)) =
        s.rows.map (fun row => (row.vj, row.givenOnce)) →
      (handleTripUpdate b s1 t).1.rows.map
          (fun row => (row.vj, row.givenOnce)) =
        s.rows.map (fun row => (row.vj, row.givenOnce)) := by
    intro s1 t hsame
    have hvjs : s1.rows.map TripUpdate.vj = s.rows.map TripUpdate.vj := by
      simpa [Function.comp_def] using congrArg (List.map Prod.fst) hsame
    refine (handleTripUpdate_rows_givenOnce ?_).trans hsame
    rw [map_of_vj_eq VehicleJourney.id hvjs]
    exact hnodup
  obtain ⟨_, hsame, -⟩ := handleLoop_invariant
    (P := fun s1 _ => s1.rows.map (fun row => (row.vj, row.givenOnce)) =
      s.rows.map (fun row => (row.vj, row.givenOnce)))
    (fun s1 t _ => hturn s1 t) rfl hloop
  exact hsame

/-- What is found for a trip keeps the attributes given once. -/
theorem findByDatedVj_givenOnce
    {rows rows' : List TripUpdate}
    (h : rows'.map (fun row => (row.vj, row.givenOnce)) =
      rows.map (fun row => (row.vj, row.givenOnce))) (vj : VehicleJourney) :
    (findByDatedVj rows' vj).map TripUpdate.givenOnce =
      (findByDatedVj rows vj).map TripUpdate.givenOnce := by
  have hfind : ∀ l : List TripUpdate,
      (findByDatedVj l vj).map TripUpdate.givenOnce =
        ((l.map (fun row => (row.vj, row.givenOnce))).find?
          (fun p => p.1.datedKey == vj.datedKey)).map Prod.snd := by
    intro l
    rw [List.find?_map, Option.map_map]
    rfl
  rw [hfind, hfind, h]

/-- A loop over a list is one over its beginning and then one over its end. -/
theorem handleLoop_append
    (b : Builder) (s : Session) (ts ts' : List NewTripUpdate) :
    handleLoop b s (ts ++ ts') =
      match handleLoop b s ts with
      | (s1, .ok ()) => handleLoop b s1 ts'
      | (s1, .error e) => (s1, .error e) := by
  induction ts generalizing s with
  | nil =>
      rfl
  | cons t rest ih =>
      simp only [List.cons_append, handleLoop]
      cases handleTripUpdate b s t with
      | mk s1 result =>
          cases result with
          | error e =>
              rfl
          | ok u =>
              exact ih s1

/-- The loop keeps the rows of the trips it is not about. -/
theorem handleLoop_keeps
    (hnodup : (s.rows.map rowId).Nodup) {row : TripUpdate}
    (hrow : row ∈ s.allRows)
    (hkey : ∀ t ∈ ts, t.vj.datedKey ≠ row.vj.datedKey) :
    row ∈ (handleLoop b s ts).1.allRows := by
  obtain ⟨_, ⟨-, hleft, -⟩, -⟩ := handleLoop_invariant
    (P := fun s1 rest => (s1.rows.map rowId).Nodup ∧ row ∈ s1.allRows ∧
      ∀ t ∈ rest, t.vj.datedKey ≠ row.vj.datedKey)
    (fun s1 t rest h1 => ⟨handleTripUpdate_rowIds h1.1,
      handleTripUpdate_keeps h1.1 h1.2.1 (h1.2.2 t List.mem_cons_self),
      (List.forall_mem_cons.1 h1.2.2).2⟩)
    ⟨hnodup, hrow, hkey⟩ (Prod.mk.eta (p := handleLoop b s ts)).symm
  exact hleft

end Loop

/--
A trip of a feed is accepted at its turn of the loop, and the feed says nothing
else of its dated vehicle journey afterwards.
-/
def AcceptsTrip (b : Builder) (db : Db) (ts : List NewTripUpdate)
    (t : NewTripUpdate) : Prop :=
  ∃ before after s, ts = before ++ t :: after ∧
    handleLoop b db.session before = (s, .ok ()) ∧
    (processTripUpdate b (findByDatedVj s.rows t.vj) t).linked = .ok true ∧
    ∀ t' ∈ after, t'.vj.datedKey ≠ t.vj.datedKey

/-- The only trip of a feed is accepted when it is linked. -/
theorem acceptsTrip_single
    {b : Builder} {db : Db} {t : NewTripUpdate}
    (h : (processTripUpdate b (findByDatedVj db.tripUpdates t.vj) t).linked =
      .ok true) :
    AcceptsTrip b db [t] t :=
  ⟨[], [], db.session, rfl, rfl, h, by simp⟩

/-- The row of a trip has the attributes of the trip. -/
def StoresAttributes (db : Db) (t : NewTripUpdate) : Prop :=
  ∃ row, findByDatedVj db.tripUpdates t.vj = some row ∧
    row.attributes = t.toTripUpdate.attributes

/-- The row of a trip, if any, has the attributes the trip would give it once. -/
def StoresGivenOnce (db : Db) (t : NewTripUpdate) : Prop :=
  ∀ row ∈ findByDatedVj db.tripUpdates t.vj,
    row.givenOnce = t.toTripUpdate.givenOnce

section Feed

variable {b : Builder} {network : Network} {db : Db} {rtu : RealTimeUpdate}
variable {built : BuiltFeed} {result : HandleResult} {t : NewTripUpdate}

/-- The row that is stored for an accepted trip is the one left at its turn. -/
theorem AcceptsTrip.stored
    (h : AcceptsTrip b db built.tripUpdates t)
    (houtcome : FeedOutcome b network db rtu (.ok built) result)
    (hclean : result.session = .clean) :
    ∃ old, old.map TripUpdate.givenOnce =
        (findByDatedVj db.tripUpdates t.vj).map TripUpdate.givenOnce ∧
      findByDatedVj result.db.tripUpdates t.vj =
        some (processTripUpdate b old t).tripUpdate := by
  obtain ⟨before, after, s, hts, hbefore, hlinked, hafter⟩ := h
  refine ⟨findByDatedVj s.rows t.vj, ?_, ?_⟩
  · exact findByDatedVj_givenOnce
      (handleLoop_rows_givenOnce (s := db.session) db.uniqueVj hbefore) t.vj
  · have hnodup : (s.rows.map rowId).Nodup := by
      rw [map_of_vj_eq VehicleJourney.id
        (handleLoop_rows_vj (s := db.session) db.uniqueVj hbefore)]
      exact db.uniqueVj
    -- the turn returns, and the rows of the trip are kept by the next ones
    obtain ⟨s1, hturn⟩ : ∃ s1, handleTripUpdate b s t = (s1, .ok ()) := by
      refine ⟨(handleTripUpdate b s t).1, Prod.ext rfl ?_⟩
      rw [handleTripUpdate_outcome, hlinked]
    have hmem := mem_allRows_of_linked hlinked
    have hvj := handleTripUpdate_rows_vj (b := b) (t := t) hnodup
    rw [hturn] at hmem hvj
    have hnodup1 : (s1.rows.map rowId).Nodup := by
      rw [map_of_vj_eq VehicleJourney.id hvj]
      exact hnodup
    have hkey := processTripUpdate_datedKey b s.rows t
    have hkeys : ∀ t' ∈ after, t'.vj.datedKey ≠
        (processTripUpdate b (findByDatedVj s.rows t.vj)
          t).tripUpdate.vj.datedKey :=
      fun t' ht' => hkey ▸ hafter t' ht'
    have hend := handleLoop_keeps (b := b) hnodup1 hmem hkeys
    have hloop : handleLoop b db.session built.tripUpdates =
        handleLoop b s1 after := by
      rw [hts, handleLoop_append, hbefore]
      simp only [handleLoop, hturn]
    refine findByDatedVj_of_mem result.db.uniqueDatedVj ?_ hkey
    rw [(houtcome.committed rfl hclean).1, hloop]
    exact hend

/--
A trip of a complete feed that is accepted and committed leaves its attributes
exactly when the row stored before, if any, has those that are given once.
-/
theorem AcceptsTrip.stores_iff
    (h : AcceptsTrip b db built.tripUpdates t)
    (hcomplete : b.isNewComplete = true)
    (houtcome : FeedOutcome b network db rtu (.ok built) result)
    (hclean : result.session = .clean) :
    StoresAttributes result.db t ↔ StoresGivenOnce db t := by
  obtain ⟨old, hold, hrow⟩ := h.stored houtcome hclean
  have hgiven : StoresGivenOnce db t ↔
      ∀ row ∈ old, row.givenOnce = t.toTripUpdate.givenOnce := by
    have hall : ∀ o : Option TripUpdate,
        (∀ row ∈ o, row.givenOnce = t.toTripUpdate.givenOnce) ↔
          ∀ g ∈ o.map TripUpdate.givenOnce, g = t.toTripUpdate.givenOnce := by
      intro o
      cases o <;> simp
    rw [StoresGivenOnce, hall, hall, hold]
  rw [hgiven, ← processTripUpdate_attributes_iff hcomplete, StoresAttributes,
    hrow]
  simp

end Feed

end Core
end Kirin
