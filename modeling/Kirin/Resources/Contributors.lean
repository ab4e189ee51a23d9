import Kirin.Core.PopulatePb

/-!
# Kirin: the resource of the contributors

This module follows `kirin/resources/contributors.py`, which creates, updates and
deactivates the contributors.

* `post`, `put` and `delete` answer a request, or abort and change nothing.
* `step` is the table once a request is answered.

A request carries its JSON object, of which each key is given or not, and may be
null when the schema allows it.  The table carries its primary key as an
invariant.  The details that the libraries give of an error are left out.
-/

namespace Kirin
namespace Resources

open Kirin.Core

def defaultDaysToKeepTripUpdate : Int :=
  3

def defaultDaysToKeepRtUpdate : Int :=
  30

/-- A row of the table of contributors. -/
structure Contributor where
  id : String
  navitiaCoverage : String
  navitiaToken : Option String
  feedUrl : Option String
  connectorType : ConnectorType
  retrievalInterval : Option Int
  isActive : Bool
  brokerUrl : Option String
  exchangeName : Option String
  queueName : Option String
  nbDaysToKeepTripUpdate : Int
  nbDaysToKeepRtUpdate : Int
deriving DecidableEq, Repr

/-- The values of the three fields that configure a broker. -/
def Contributor.brokerFields (c : Contributor) : List (Option String) :=
  [c.brokerUrl, c.exchangeName, c.queueName]

/-- The table of contributors. -/
structure ContributorTable where
  rows : List Contributor
  uniqueId : (rows.map Contributor.id).Nodup

/-- The keys of a JSON object, whose types are those of the schema. -/
structure ContributorData where
  id : Option String
  navitiaCoverage : Option String
  navitiaToken : Option (Option String)
  feedUrl : Option (Option String)
  connectorType : Option ConnectorType
  retrievalInterval : Option (Option Int)
  isActive : Option Bool
  brokerUrl : Option (Option String)
  exchangeName : Option (Option String)
  queueName : Option (Option String)
  nbDaysToKeepTripUpdate : Option Int
  nbDaysToKeepRtUpdate : Option Int
  otherKeys : List String
deriving DecidableEq, Repr

/-- The body of a request: no JSON, one that breaks the types, or an object. -/
inductive Body
  | noJson
  | malformed
  | json (data : ContributorData)
deriving DecidableEq, Repr

/-- The end of a request that is not answered. -/
structure Abort where
  status : Nat
  message : String
deriving DecidableEq, Repr

def badRequest (message : String) : Abort where
  status := 400
  message := message

def notFound : Abort where
  status := 404
  message := ""

/-- An exception that is not caught. -/
def internalError : Abort where
  status := 500
  message := ""

def failedValidation : Abort :=
  badRequest "Failed to validate posted Json data. Error: "

def missingId : Abort :=
  badRequest "Contributor's id is missing"

/-- A text that is neither null nor empty. -/
def isFilled (value : Option String) : Bool :=
  (truthyText value).isSome

/-- A number that the database can hold. -/
def fitsInteger (n : Int) : Bool :=
  decide (-2147483648 ≤ n ∧ n < 2147483648)

namespace ContributorData

/-- The values given to the three fields that configure a broker. -/
def brokerUpdates (data : ContributorData) : List (Option (Option String)) :=
  [data.brokerUrl, data.exchangeName, data.queueName]

/-- The texts of the object, its identifier left out. -/
def texts (data : ContributorData) : List String :=
  data.navitiaCoverage.toList ++
    [data.navitiaToken, data.feedUrl, data.brokerUrl, data.exchangeName,
      data.queueName].filterMap Option.join

/-- The numbers of the object. -/
def integers (data : ContributorData) : List Int :=
  [data.retrievalInterval.join, data.nbDaysToKeepTripUpdate,
    data.nbDaysToKeepRtUpdate].reduceOption

/-- Whether the object has no column to update. -/
def isEmpty (data : ContributorData) : Bool :=
  data.navitiaCoverage.isNone && data.navitiaToken.isNone
    && data.feedUrl.isNone && data.connectorType.isNone
    && data.retrievalInterval.isNone && data.isActive.isNone
    && data.brokerUrl.isNone && data.exchangeName.isNone
    && data.queueName.isNone && data.nbDaysToKeepTripUpdate.isNone
    && data.nbDaysToKeepRtUpdate.isNone

/-- What the schema of an update asks for, besides the types. -/
def fitsPutSchema (data : ContributorData) : Bool :=
  data.retrievalInterval.join.all (fun n => decide (1 ≤ n))

/-- Update a row with the values that are given. -/
def apply (data : ContributorData) (c : Contributor) : Contributor where
  id := c.id
  navitiaCoverage := data.navitiaCoverage.getD c.navitiaCoverage
  navitiaToken := data.navitiaToken.getD c.navitiaToken
  feedUrl := data.feedUrl.getD c.feedUrl
  connectorType := data.connectorType.getD c.connectorType
  retrievalInterval := data.retrievalInterval.getD c.retrievalInterval
  isActive := data.isActive.getD c.isActive
  brokerUrl := data.brokerUrl.getD c.brokerUrl
  exchangeName := data.exchangeName.getD c.exchangeName
  queueName := data.queueName.getD c.queueName
  nbDaysToKeepTripUpdate :=
    data.nbDaysToKeepTripUpdate.getD c.nbDaysToKeepTripUpdate
  nbDaysToKeepRtUpdate :=
    data.nbDaysToKeepRtUpdate.getD c.nbDaysToKeepRtUpdate

/--
The row that an object creates, when it has the two keys that are read without a
default.  A column that is left null takes its own.
-/
def newContributor (data : ContributorData) (id : String) : Option Contributor :=
  match data.navitiaCoverage, data.connectorType with
  | some navitiaCoverage, some connectorType =>
      some
        { id := id
          navitiaCoverage := navitiaCoverage
          navitiaToken := data.navitiaToken.join
          feedUrl := data.feedUrl.join
          connectorType := connectorType
          retrievalInterval := some ((data.retrievalInterval.getD (some 10)).getD 10)
          isActive := data.isActive.getD true
          brokerUrl := data.brokerUrl.join
          exchangeName := data.exchangeName.join
          queueName := data.queueName.join
          nbDaysToKeepTripUpdate :=
            data.nbDaysToKeepTripUpdate.getD defaultDaysToKeepTripUpdate
          nbDaysToKeepRtUpdate :=
            data.nbDaysToKeepRtUpdate.getD defaultDaysToKeepRtUpdate }
  | _, _ => none

/-- What the schema of a creation asks for, besides the types. -/
def fitsPostSchema (data : ContributorData) : Bool :=
  data.fitsPutSchema && data.navitiaCoverage.isSome
    && data.connectorType.isSome && data.nbDaysToKeepTripUpdate.isSome
    && data.nbDaysToKeepRtUpdate.isSome

end ContributorData

namespace ContributorTable

/-- The contributors of a connector, those that are deactivated being optional. -/
def findByConnectorType (table : ContributorTable) (type : ConnectorType)
    (includeDeactivated : Bool) : List Contributor :=
  if includeDeactivated then
    table.rows.filter (fun c => c.connectorType == type)
  else table.rows.filter (fun c => c.connectorType == type && c.isActive)

theorem mem_findByConnectorType_iff
    {table : ContributorTable} {type : ConnectorType} {c : Contributor} :
    c ∈ table.findByConnectorType type false ↔
      c ∈ table.rows ∧ c.isActive = true ∧ c.connectorType = type := by
  rw [findByConnectorType, if_neg Bool.false_ne_true, List.mem_filter,
    Bool.and_eq_true, beq_iff_eq, and_comm (a := c.connectorType = type)]

/-- Change the row of an identifier, which it keeps. -/
def modify (table : ContributorTable) (id : String)
    (f : Contributor → Contributor) (hf : ∀ c, (f c).id = c.id) :
    ContributorTable where
  rows := table.rows.map (fun c => if c.id = id then f c else c)
  uniqueId := by
    rw [List.map_map]
    have hids : Contributor.id ∘ (fun c => if c.id = id then f c else c) =
        Contributor.id := by
      funext c
      simp only [Function.comp]
      split
      · exact hf c
      · rfl
    rw [hids]
    exact table.uniqueId

/-- Take the row of an identifier out. -/
def remove (table : ContributorTable) (id : String) : ContributorTable where
  rows := table.rows.filter (fun c => c.id != id)
  uniqueId := table.uniqueId.sublist (List.filter_sublist.map _)

/-- Add a row, unless its identifier is taken. -/
def insert (table : ContributorTable) (c : Contributor) :
    Option ContributorTable :=
  if h : c.id ∈ table.rows.map Contributor.id then none
  else
    some
      { rows := table.rows ++ [c]
        uniqueId := by
          rw [List.map_append, List.map_singleton, List.nodup_append]
          refine ⟨table.uniqueId, by simp, ?_⟩
          intro a ha b hb hab
          rw [List.mem_singleton.1 hb] at hab
          exact h (hab ▸ ha) }

end ContributorTable

/-- Create a contributor. -/
def post (table : ContributorTable) (id : Option String) (body : Body) :
    Except Abort (ContributorTable × Contributor) :=
  match body with
  | .noJson =>
      .error (badRequest "No posted Json data to create a contributor")
  | .malformed => .error failedValidation
  | .json data =>
      if !data.fitsPostSchema then .error failedValidation
      else
        let id := truthyText id <|> data.id
        let brokerFields := data.brokerUpdates.map Option.join
        if brokerFields.any isFilled && !brokerFields.all isFilled then
          .error (badRequest
            ("'broker_url', 'exchange_name' and 'queue_name' must all be " ++
              "provided or none of them."))
        else
          match data.newContributor (id.getD "") with
          | none =>
              .error (badRequest
                "Missing attribute in input data to construct a contributor")
          | some newContrib =>
              if (id.toList ++ data.texts).any hasNul then .error internalError
              else if id.isNone || !data.integers.all fitsInteger then
                .error (badRequest "Error while creating contributor - ")
              else
                match table.insert newContrib with
                | none =>
                    .error (badRequest "Error while creating contributor - ")
                | some table => .ok (table, newContrib)

/-- The error that the database raises for the update of a row. -/
def updateError (id : String) (data : ContributorData) : Option Abort :=
  -- a key that is not a column
  if !data.otherKeys.isEmpty then some (badRequest "")
  else if (id :: data.texts).any hasNul then some internalError
  -- a statement that sets nothing
  else if data.isEmpty then some (badRequest "")
  else if !data.integers.all fitsInteger then some (badRequest "")
  else none

/-- What an update does, once its object is read: on which row, and with what. -/
def readPut (id : Option String) (body : Body) :
    Except Abort (String × ContributorData) :=
  match body with
  | .noJson => .error (badRequest "No Json data found to update a contributor")
  | .malformed => .error failedValidation
  | .json data =>
      if !data.fitsPutSchema then .error failedValidation
      else
        match truthyText id <|> data.id with
        | none => .error missingId
        | some id =>
            match updateError id data with
            | some abort => .error abort
            | none => .ok (id, data)

/-- Update a contributor. -/
def put (table : ContributorTable) (id : Option String) (body : Body) :
    Except Abort (ContributorTable × Contributor) := do
  let (id, data) ← readPut id body
  let table := table.modify id data.apply (fun _ => rfl)
  match table.rows.find? (fun c => c.id == id) with
  | none => throw notFound
  | some contributor => return (table, contributor)

/-- Deactivate a contributor. -/
def delete (table : ContributorTable) (id : Option String) :
    Except Abort ContributorTable :=
  match id with
  | none => .error missingId
  | some id =>
      match table.rows.find? (fun c => c.isActive && c.id == id) with
      | none => .error notFound
      | some contributor =>
          .ok (table.modify contributor.id
            (fun c => { c with isActive := false }) (fun _ => rfl))

/-- A request that may change the table, with the identifier of its path. -/
inductive Request
  | post (id : Option String) (body : Body)
  | put (id : Option String) (body : Body)
  | delete (id : Option String)
deriving DecidableEq, Repr

/-- The table once a request is answered; one that aborts changes nothing. -/
def step (table : ContributorTable) : Request → ContributorTable
  | .post id body =>
      match post table id body with
      | .ok (table, _) => table
      | .error _ => table
  | .put id body =>
      match put table id body with
      | .ok (table, _) => table
      | .error _ => table
  | .delete id =>
      match delete table id with
      | .ok table => table
      | .error _ => table

/-- The table before any request. -/
def emptyTable : ContributorTable where
  rows := []
  uniqueId := List.nodup_nil

section Rows

variable {table table' : ContributorTable} {c : Contributor}

theorem insert_rows
    {table' : ContributorTable} (h : table.insert c = some table') :
    table'.rows = table.rows ++ [c] := by
  unfold ContributorTable.insert at h
  split at h
  · cases h
  · cases h
    rfl

/-- A creation that is answered has added what its object describes. -/
theorem post_cases
    {id : Option String} {body : Body}
    (h : post table id body = .ok (table', c)) :
    ∃ (data : ContributorData) (id' : String),
      data.fitsPostSchema = true ∧
      ¬((data.brokerUpdates.map Option.join).any isFilled
        && !(data.brokerUpdates.map Option.join).all isFilled) = true ∧
      data.newContributor id' = some c ∧
      data.integers.all fitsInteger = true ∧
      table'.rows = table.rows ++ [c] := by
  cases body with
  | noJson =>
      cases h
  | malformed =>
      cases h
  | json data =>
      simp only [post] at h
      split at h
      · cases h
      · rename_i hschema
        split at h
        · cases h
        · rename_i hchecked
          split at h
          · cases h
          · rename_i newContrib hnew
            split at h
            · cases h
            · split at h
              · cases h
              · rename_i hintegers
                split at h
                · cases h
                · rename_i table1 hinsert
                  cases h
                  refine ⟨data, _, by simpa using hschema, hchecked, hnew, ?_,
                    insert_rows hinsert⟩
                  rw [Bool.or_eq_true, not_or] at hintegers
                  simpa using hintegers.2

/-- An update that is read meets its schema and the limits of the database. -/
theorem readPut_cases
    {id : Option String} {body : Body} {id' : String} {data : ContributorData}
    (h : readPut id body = .ok (id', data)) :
    data.fitsPutSchema = true ∧ updateError id' data = none := by
  cases body with
  | noJson =>
      cases h
  | malformed =>
      cases h
  | json data' =>
      simp only [readPut] at h
      split at h
      · cases h
      · rename_i hschema
        split at h
        · cases h
        · split at h
          · cases h
          · rename_i hnone
            cases h
            exact ⟨by simpa using hschema, hnone⟩

/-- The rows once an update is answered. -/
theorem step_put_rows
    (table : ContributorTable) (id : Option String) (body : Body) :
    (step table (.put id body)).rows =
      match readPut id body with
      | .ok (id', data) =>
          table.rows.map (fun c => if c.id = id' then data.apply c else c)
      | .error _ => table.rows := by
  simp only [step, put]
  cases readPut id body with
  | error e =>
      rfl
  | ok r =>
      obtain ⟨id', data⟩ := r
      simp only [bind, Except.bind]
      split
      · rename_i table' c hput
        split at hput
        · cases hput
        · cases hput
          rfl
      · rename_i e hput
        split at hput
        · rename_i hnone
          -- no row has the identifier, neither after the update nor before
          have hid : ∀ c ∈ table.rows, c.id ≠ id' := by
            intro c hc heq
            have hfind := List.find?_eq_none.1 hnone (data.apply c)
              (List.mem_map.2 ⟨c, hc, if_pos heq⟩)
            simp [ContributorData.apply, heq] at hfind
          symm
          conv_rhs => rw [← List.map_id table.rows]
          refine List.map_congr_left (fun c hc => ?_)
          rw [if_neg (hid c hc)]
          rfl
        · cases hput

theorem modify_ids
    (table : ContributorTable) (id : String) {f : Contributor → Contributor}
    (hf : ∀ c, (f c).id = c.id) :
    (table.modify id f hf).rows.map Contributor.id =
      table.rows.map Contributor.id := by
  rw [ContributorTable.modify, List.map_map]
  refine List.map_congr_left (fun c _ => ?_)
  simp only [Function.comp]
  split
  · exact hf c
  · rfl

/-- No request takes a contributor out of the table. -/
theorem step_keepsIds
    (request : Request) {id : String}
    (h : id ∈ table.rows.map Contributor.id) :
    id ∈ (step table request).rows.map Contributor.id := by
  cases request with
  | post id' body =>
      simp only [step]
      split
      · rename_i table' c hpost
        obtain ⟨_, _, -, -, -, -, hrows⟩ := post_cases hpost
        rw [hrows, List.map_append]
        exact List.mem_append_left _ h
      · exact h
  | put id' body =>
      rw [step_put_rows]
      split
      · rename_i id1 data _
        exact (modify_ids table id1 (f := data.apply) (fun _ => rfl)).symm ▸ h
      · exact h
  | delete id' =>
      simp only [step]
      split
      · rename_i table' hdelete
        unfold delete at hdelete
        split at hdelete
        · cases hdelete
        · split at hdelete
          · cases hdelete
          · cases hdelete
            rw [modify_ids]
            exact h
      · exact h

/-- What does not depend on being active is kept by a deactivation. -/
theorem forall_rows_delete
    {P : Contributor → Prop} (hP : ∀ c, P c → P { c with isActive := false })
    (h : ∀ c ∈ table.rows, P c) (id : Option String) :
    ∀ c ∈ (step table (.delete id)).rows, P c := by
  simp only [step]
  split
  · rename_i table' hdelete
    unfold delete at hdelete
    split at hdelete
    · cases hdelete
    · split at hdelete
      · cases hdelete
      · cases hdelete
        refine List.forall_mem_map.2 (fun c hc => ?_)
        split
        · exact hP c (h c hc)
        · exact h c hc
  · exact h

end Rows

end Resources
end Kirin
