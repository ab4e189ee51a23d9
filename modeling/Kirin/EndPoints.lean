import Kirin.Tasks

/-!
# Kirin: the end points of the feeds

A feed comes in by a request of `kirin/cots/cots.py`, `kirin/piv/piv.py` or
`kirin/gtfs_rt/gtfs_rt.py`, which looks for the contributor before anything else.
The first one takes any active contributor of its connector, the others take the
one of their path.

* `answerOf`: the answer to an exception of `kirin/exceptions.py`.
* `EndPoint`: what the end points differ by.
* `findContributor_eq_ok_iff`: a path is found for the active contributor that has
  the connector of the end point.
* `mem_index_iff`: the index of an end point has the paths that are found.
* `receive_feeds`, `receive_trips`: the rows that a feed brings are those of its
  contributor and of its connector.
-/

namespace Kirin

open Kirin.Core
open Kirin.Resources (Contributor ContributorTable)

/-- The answer to a request. -/
structure Answer where
  status : Nat
  message : String
  error : Option String
deriving DecidableEq, Repr

/-- The answer to an exception, with its detail when it is one of Kirin. -/
def answerOf : PyException → Answer
  | .invalidArguments detail =>
      { status := 400, message := "invalid arguments"
        error := truthyText (some detail) }
  | .objectNotFound detail =>
      { status := 404, message := "object not found"
        error := truthyText (some detail) }
  | .unsupportedValue detail =>
      { status := 400, message := "unsupported value"
        error := truthyText (some detail) }
  | .messageNotPublished =>
      { status := 500, message := "impossible to publish message on network"
        error := none }
  | _ =>
      { status := 500, message := "Internal Server Error", error := none }

/-- What is sent to an end point, with the answers and the identifiers it gets. -/
structure Post where
  newId : String
  source : Source
  network : Network

/-- The feed that a builder makes of what is sent. -/
def receivedBy (b : Builder) (p : Post) : ReceivedFeed where
  contributorId := b.contributorId
  rtu :=
    { id := p.newId, connector := b.connector, status := .ok, error := none
      contributorId := b.contributorId }
  source := p.source
  network := p.network

/-- An end point, with its own texts. -/
structure EndPoint where
  connector : ConnectorType
  noData : String
  processed : String
deriving DecidableEq, Repr

namespace EndPoint

def cots : EndPoint where
  connector := .cots
  noData := "no COTS data provided"
  processed := "OK"

def piv : EndPoint where
  connector := .piv
  noData := "no piv data provided"
  processed := "PIV feed processed"

def gtfsRt : EndPoint where
  connector := .gtfsRt
  noData := "no gtfs_rt data provided"
  processed := "GTFS-RT feed processed"

end EndPoint

/-- The first of the COTS contributors. -/
def getCotsContributor (found : List Contributor) :
    Except Answer Contributor :=
  match found with
  | [] =>
      .error
        { status := 404, message := "object not found (error on sub-service)"
          error := none }
  | contributor :: _ => .ok contributor

namespace EndPoint

/-- The contributor of a path. -/
def findContributor (e : EndPoint) (table : ContributorTable)
    (id : Option String) : Except Answer Contributor :=
  match id with
  | none =>
      .error
        { status := 400, message := "Contributor's id is missing"
          error := none }
  | some id =>
      match table.rows.find? (fun c =>
          c.isActive && (c.id == id && c.connectorType == e.connector)) with
      | none =>
          .error
            { status := 404, message := "Contributor '" ++ id ++ "' not found"
              error := none }
      | some contributor => .ok contributor

def builder (e : EndPoint) (c : Contributor) : Builder where
  contributorId := c.id
  connector := e.connector

/-- Process what is sent, and answer. -/
def post (e : EndPoint) (b : Builder) (db : Db) (data : Option Post) :
    Answer × Db :=
  match data with
  | none => (answerOf (.invalidArguments e.noData), db)
  | some p =>
      let f := receivedBy b p
      let result := wrapBuildFeed f.builder f.network db f.rtu f.build
      match result.outcome with
      | .ok _ =>
          ({ status := 200, message := e.processed, error := none }, result.db)
      | .error e => (answerOf e, result.db)

/-- The paths of the active contributors, or a message when there is none. -/
def index (noContributor : String) (found : List Contributor) :
    Except String (List String) :=
  match found with
  | [] => .error noContributor
  | _ => .ok (found.map Contributor.id)

def pivIndex : List Contributor → Except String (List String) :=
  index "No PIV contributor defined"

def gtfsRtIndex : List Contributor → Except String (List String) :=
  index "No GTFS-RT contributor defined"

/-- The feed of a request is processed. -/
theorem post_some
    (e : EndPoint) (b : Builder) (db : Db) (p : Post) :
    (e.post b db (some p)).2 = receive db (receivedBy b p) := by
  simp only [post]
  split <;> rfl

section Paths

variable {e : EndPoint} {table : ContributorTable} {id : String} {c : Contributor}

/-- A path is found for the active contributor that has the connector. -/
theorem findContributor_eq_ok_iff :
    e.findContributor table (some id) = .ok c ↔
      c ∈ table.rows ∧ c.isActive = true ∧ c.id = id ∧
        c.connectorType = e.connector := by
  have hfound : table.rows.find? (fun c =>
        c.isActive && (c.id == id && c.connectorType == e.connector)) = some c ↔
      c ∈ table.rows ∧ c.isActive = true ∧ c.id = id ∧
        c.connectorType = e.connector := by
    constructor
    · intro h
      have hc := List.find?_some h
      simp only [Bool.and_eq_true, beq_iff_eq] at hc
      exact ⟨List.mem_of_find?_eq_some h, hc⟩
    · rintro ⟨hmem, hactive, rfl, hconnector⟩
      refine KeyedStore.find?_eq_some_of_key table.uniqueId ?_ hmem
      intro row hrow
      simp only [Bool.and_eq_true, beq_iff_eq]
      constructor
      · exact fun h => h.2.1
      · intro hid
        obtain rfl := KeyedStore.eq_of_key_eq table.uniqueId hrow hmem hid
        exact ⟨hactive, rfl, hconnector⟩
  rw [← hfound, findContributor]
  split
  · rename_i hnone
    rw [hnone]
    exact iff_of_false (fun h => nomatch h) (fun h => nomatch h)
  · rename_i c' hsome
    rw [hsome, Except.ok.injEq, Option.some.injEq]

/-- The index has the paths that are found, and a message when there is none. -/
theorem mem_index_iff
    {found : List Contributor}
    (hfound : found.Perm (table.findByConnectorType e.connector false))
    (noContributor : String) :
    (∀ ids, index noContributor found = .ok ids →
      (id ∈ ids ↔ ∃ c, e.findContributor table (some id) = .ok c)) ∧
      (index noContributor found = .error noContributor ↔
        ∀ id c, e.findContributor table (some id) ≠ .ok c) := by
  have hmem : ∀ c, c ∈ found ↔
      e.findContributor table (some c.id) = .ok c := by
    intro c
    rw [hfound.mem_iff, findContributor_eq_ok_iff,
      ContributorTable.mem_findByConnectorType_iff]
    exact ⟨fun ⟨h, ha, hc⟩ => ⟨h, ha, rfl, hc⟩,
      fun ⟨h, ha, _, hc⟩ => ⟨h, ha, hc⟩⟩
  constructor
  · intro ids hids
    cases found with
    | nil =>
        cases hids
    | cons first others =>
        cases hids
        rw [List.mem_map]
        constructor
        · rintro ⟨c, hc, rfl⟩
          exact ⟨c, (hmem c).1 hc⟩
        · rintro ⟨c, hc⟩
          have hid := (findContributor_eq_ok_iff.1 hc).2.2.1
          exact ⟨c, (hmem c).2 (hid ▸ hc), hid⟩
  · cases found with
    | nil =>
        refine iff_of_true rfl (fun id c hc => ?_)
        have hid := (findContributor_eq_ok_iff.1 hc).2.2.1
        exact List.not_mem_nil ((hmem c).2 (hid ▸ hc))
    | cons first others =>
        refine iff_of_false (fun h => nomatch h) (fun h => ?_)
        exact h first.id first ((hmem first).1 List.mem_cons_self)

end Paths

end EndPoint

section Brought

variable {db : Db} {f : ReceivedFeed}

/-- A row was stored before, or is of the contributor and connector of a feed. -/
def KnownOr (db : Db) (rtu row : RealTimeUpdate) : Prop :=
  row ∈ db.realTimeUpdates ∨
    row.contributorId = rtu.contributorId ∧ row.connector = rtu.connector

/-- A row that a feed brings is of its contributor and of its connector. -/
theorem receive_feeds
    {row : RealTimeUpdate} (hrow : row ∈ (receive db f).realTimeUpdates) :
    KnownOr db f.rtu row := by
  have houtcome := wrapBuildFeed_outcome f.builder f.network db f.rtu f.build
  have hput : ∀ rtus rtu', SameFeed f.rtu rtu' →
      (∀ row ∈ rtus, KnownOr db f.rtu row) →
      ∀ row ∈ putRtu rtus rtu', KnownOr db f.rtu row := by
    intro rtus rtu' hsame hall row hrow
    rcases of_mem_putRtu hrow with rfl | hold
    · exact Or.inr ⟨hsame.contributorId, hsame.connector⟩
    · exact hall row hold
  have hsaved : ∀ row ∈ (db.saveRtu f.rtu).realTimeUpdates,
      KnownOr db f.rtu row :=
    hput _ _ (SameFeed.refl f.rtu) (fun row hrow => Or.inl hrow)
  exact houtcome.feeds_induction
    (P := fun rtus => ∀ row ∈ rtus, KnownOr db f.rtu row) hput hsaved row hrow

/-- A trip that a feed brings is of its contributor. -/
theorem receive_trips
    {tu : TripUpdate} (htu : tu ∈ (receive db f).tripUpdates) :
    (∃ old ∈ db.tripUpdates, SameTrip old tu) ∨
      tu.contributorId = f.contributorId := by
  have houtcome := wrapBuildFeed_outcome f.builder f.network db f.rtu f.build
  rcases houtcome.rows with hsame | ⟨built, _, _, hbuild, -⟩
  · exact Or.inl ⟨tu, hsame.1 ▸ htu, rfl, rfl⟩
  · rw [hbuild] at houtcome
    refine (houtcome.owned htu).imp_right ?_
    rintro ⟨t, ht, -, hcontributor⟩
    exact hcontributor.symm.trans (build_contributorId hbuild t ht)

end Brought

end Kirin
