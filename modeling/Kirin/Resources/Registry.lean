import Kirin.Core.BuildWrapper
import Kirin.Library.KeyedStore
import Kirin.Library.Registry
import Kirin.Resources.BrokerConfiguration

/-!
# Kirin: the contributors as a registry

The contributors are created, updated and deactivated by the requests, and deleted
by the command of `kirin/command/purge_rt.py`.

* `purgeContributor`, `get`: the command, and the requests that read the table.
* `Action`, `act`, `entry`: what changes the table, and the write that it is when it
  is accepted.
* `lookup_insert`, `lookup_modify`, `lookup_remove`: what the table makes of a row.
* `registers_contributors`: the table is a registry.
* `contributors_last_written`: each field that a request reads has the last value
  that was accepted for it since the creation of its contributor.
-/

namespace Kirin

open Kirin.Core
open Kirin.Resources (Contributor ContributorTable)

/-- Whether a stored row refers to a contributor. -/
def refersTo (db : Db) (id : String) : Bool :=
  db.realTimeUpdates.any (fun row => row.contributorId == id)
    || db.tripUpdates.any (fun tu => tu.contributorId == id)

/-- A row refers to a contributor. -/
theorem refersTo_eq_true_iff
    {db : Db} {id : String} :
    refersTo db id = true ↔
      (∃ row ∈ db.realTimeUpdates, row.contributorId = id) ∨
        ∃ tu ∈ db.tripUpdates, tu.contributorId = id := by
  simp [refersTo]

/-- Delete a contributor that is not active, unless a row refers to it. -/
def purgeContributor (table : ContributorTable) (db : Db)
    (contributorId : String) : ContributorTable :=
  match table.rows.find? (fun c => c.id == contributorId) with
  | none => table
  | some contrib =>
      if contrib.isActive then table
      else if refersTo db contributorId then table
      else table.remove contributorId

namespace Resources

open Registry

/-- The contributor of an identifier, active or not, or all the active ones. -/
def get (table : ContributorTable) (id : Option String) :
    Except Abort (List Contributor) :=
  match id with
  | some id =>
      match table.rows.find? (fun c => c.id == id) with
      | none => .error notFound
      | some contrib => .ok [contrib]
  | none => .ok (table.rows.filter Contributor.isActive)

/-- What changes the table: a request, or the command, for the rows of a database. -/
inductive Action
  | request (request : Request)
  | purge (db : Db) (contributorId : String)

/-- The table after an action. -/
def act (table : ContributorTable) : Action → ContributorTable
  | .request request => step table request
  | .purge db contributorId => purgeContributor table db contributorId

def lookup (table : ContributorTable) (id : String) : Option Contributor :=
  table.rows.find? (fun c => c.id == id)

/-- The update that a deactivation is. -/
def deactivation : ContributorData where
  id := none
  navitiaCoverage := none
  navitiaToken := none
  feedUrl := none
  connectorType := none
  retrievalInterval := none
  isActive := some false
  brokerUrl := none
  exchangeName := none
  queueName := none
  nbDaysToKeepTripUpdate := none
  nbDaysToKeepRtUpdate := none
  otherKeys := []

/-- The write that an action is, unless it is refused. -/
def entry (table : ContributorTable) :
    Action → Option (String × Write Contributor ContributorData)
  | .request (.post id body) =>
      match post table id body with
      | .ok (_, c) => some (c.id, .create c)
      | .error _ => none
  | .request (.put id body) =>
      match readPut id body with
      | .ok (id', data) =>
          if (lookup table id').isSome then some (id', .update data) else none
      | .error _ => none
  | .request (.delete id) =>
      match id with
      | some id =>
          if (lookup table id).any Contributor.isActive then
            some (id, .update deactivation)
          else none
      | none => none
  | .purge db id =>
      if (lookup table id).any (fun c => !c.isActive && !refersTo db id) then
        some (id, .drop)
      else none

section Lookup

variable {table table' : ContributorTable} {id k : String} {c : Contributor}

theorem lookup_eq_some_iff :
    lookup table id = some c ↔ c ∈ table.rows ∧ c.id = id := by
  constructor
  · intro h
    have hid := List.find?_some h
    rw [beq_iff_eq] at hid
    exact ⟨List.mem_of_find?_eq_some h, hid⟩
  · rintro ⟨hc, hid⟩
    refine KeyedStore.find?_eq_some_of_key table.uniqueId ?_ hc
    intro row hrow
    rw [beq_iff_eq, ← hid]

theorem lookup_eq_none_iff :
    lookup table id = none ↔ id ∉ table.rows.map Contributor.id := by
  simp [lookup]

/-- Two tables with the same rows under a key. -/
theorem lookup_congr
    (h : ∀ c, c.id = k → (c ∈ table'.rows ↔ c ∈ table.rows)) :
    lookup table' k = lookup table k := by
  refine Option.ext (fun c => ?_)
  rw [lookup_eq_some_iff, lookup_eq_some_iff]
  exact and_congr_left (fun hid => h c hid)

/-- A creation adds the row of a new identifier. -/
theorem lookup_insert
    (h : table.insert c = some table') :
    lookup table c.id = none ∧ lookup table' c.id = some c ∧
      ∀ k, k ≠ c.id → lookup table' k = lookup table k := by
  have hrows := insert_rows h
  refine ⟨?_, ?_, fun k hk => ?_⟩
  · rw [lookup_eq_none_iff]
    intro htaken
    rw [ContributorTable.insert, dif_pos htaken] at h
    cases h
  · rw [lookup_eq_some_iff, hrows]
    exact ⟨List.mem_append_right _ List.mem_cons_self, rfl⟩
  · refine lookup_congr (fun c' hid => ?_)
    rw [hrows, List.mem_append, List.mem_singleton, or_iff_left]
    rintro rfl
    exact hk hid.symm

/-- An update changes the row of its identifier. -/
theorem lookup_modify
    {f : Contributor → Contributor} (hf : ∀ c, (f c).id = c.id) :
    lookup (table.modify id f hf) id = (lookup table id).map f ∧
      ∀ k, k ≠ id → lookup (table.modify id f hf) k = lookup table k := by
  have hfind : ∀ k, lookup (table.modify id f hf) k =
      (lookup table k).map (fun c => if c.id = id then f c else c) := by
    intro k
    rw [lookup, ContributorTable.modify, List.find?_map, lookup]
    congr 2
    funext c
    simp only [Function.comp]
    split
    · rw [hf]
    · rfl
  constructor
  · rw [hfind]
    refine Option.map_congr (fun c hc => ?_)
    rw [if_pos (lookup_eq_some_iff.1 hc).2]
  · intro k hk
    rw [hfind]
    cases hc : lookup table k with
    | none =>
        rfl
    | some c =>
        have hid := (lookup_eq_some_iff.1 hc).2
        rw [Option.map_some, if_neg (fun heq => hk (hid.symm.trans heq))]

theorem lookup_remove :
    lookup (table.remove id) id = none ∧
      ∀ k, k ≠ id → lookup (table.remove id) k = lookup table k := by
  constructor
  · rw [lookup_eq_none_iff]
    intro hmem
    obtain ⟨c, hc, hid⟩ := List.mem_map.1 hmem
    have hother := (List.mem_filter.1 hc).2
    simp [hid] at hother
  · intro k hk
    refine lookup_congr (fun c hid => ?_)
    rw [ContributorTable.remove, List.mem_filter]
    simp [hid, hk]

/-- The command removes a contributor that is not active and has no row. -/
theorem purgeContributor_eq
    (table : ContributorTable) (db : Db) (id : String) :
    purgeContributor table db id =
      if (lookup table id).any (fun c => !c.isActive && !refersTo db id) then
        table.remove id
      else table := by
  unfold purgeContributor lookup
  cases table.rows.find? (fun c => c.id == id) with
  | none =>
      rfl
  | some c =>
      cases hactive : c.isActive <;> cases hrefers : refersTo db id <;>
        simp [hactive]

/-- A contributor that the command removes has no row. -/
theorem mem_purgeContributor_ids
    (table : ContributorTable) (db : Db) (gone : String)
    (h : id ∈ table.rows.map Contributor.id) :
    id ∈ (purgeContributor table db gone).rows.map Contributor.id ∨
      refersTo db id = false := by
  rw [purgeContributor_eq]
  split
  · rename_i hany
    obtain ⟨c, -, hgone⟩ := (Option.any_eq_true _ _).1 hany
    rw [Bool.and_eq_true, Bool.not_eq_true', Bool.not_eq_true'] at hgone
    by_cases hid : id = gone
    · exact Or.inr (hid ▸ hgone.2)
    · obtain ⟨c', hc', rfl⟩ := List.mem_map.1 h
      refine Or.inl (List.mem_map_of_mem (List.mem_filter.2 ⟨hc', ?_⟩))
      exact bne_iff_ne.2 hid
  · exact Or.inl h

/-- A creation that is answered adds its row. -/
theorem post_insert
    {body : Body} {path : Option String} (h : post table path body = .ok (table', c)) :
    table.insert c = some table' := by
  cases body with
  | noJson =>
      cases h
  | malformed =>
      cases h
  | json data =>
      simp only [post] at h
      split at h
      · cases h
      · split at h
        · cases h
        · split at h
          · cases h
          · split at h
            · cases h
            · split at h
              · cases h
              · split at h
                · cases h
                · rename_i hinsert
                  cases h
                  exact hinsert

/-- An update that is read changes its row, and nothing when there is none. -/
theorem step_put
    (table : ContributorTable) (path : Option String) (body : Body) :
    step table (.put path body) =
      match readPut path body with
      | .ok (id, data) =>
          if (lookup table id).isSome then
            table.modify id data.apply (fun _ => rfl)
          else table
      | .error _ => table := by
  simp only [step, put]
  cases readPut path body with
  | error e =>
      rfl
  | ok r =>
      obtain ⟨id, data⟩ := r
      have hfound : lookup (table.modify id data.apply (fun _ => rfl)) id =
          (lookup table id).map data.apply := by
        exact (lookup_modify (f := data.apply) (fun _ => rfl)).1
      rw [lookup] at hfound
      simp only [bind, Except.bind, hfound]
      cases lookup table id <;> rfl

theorem step_delete
    (table : ContributorTable) (path : Option String) :
    step table (.delete path) =
      match path with
      | some id =>
          if (lookup table id).any Contributor.isActive then
            table.modify id deactivation.apply (fun _ => rfl)
          else table
      | none => table := by
  cases path with
  | none =>
      rfl
  | some id =>
      simp only [step, delete]
      cases hfind : table.rows.find? (fun c => c.isActive && c.id == id) with
      | none =>
          rw [if_neg]
          intro hany
          obtain ⟨c, hget, hactive⟩ := (Option.any_eq_true _ _).1 hany
          obtain ⟨hc, hid⟩ := lookup_eq_some_iff.1 hget
          refine List.find?_eq_none.1 hfind c hc ?_
          rw [hactive, Bool.true_and, beq_iff_eq]
          exact hid
      | some c =>
          have hfound := List.find?_some hfind
          rw [Bool.and_eq_true, beq_iff_eq] at hfound
          obtain ⟨hactive, rfl⟩ := hfound
          have hget : lookup table c.id = some c :=
            lookup_eq_some_iff.2 ⟨List.mem_of_find?_eq_some hfind, rfl⟩
          rw [hget, Option.any_some, if_pos hactive]
          rfl

end Lookup

/-- The updates of a contributor. -/
def update (c : Contributor) (data : ContributorData) : Contributor :=
  data.apply c

/-- What an action does: nothing, or what its write says. -/
inductive Acts (table : ContributorTable) (action : Action) : Prop
  | refused
      (hentry : entry table action = none) (hact : act table action = table)
  | created
      (c : Contributor) (hentry : entry table action = some (c.id, .create c))
      (hact : table.insert c = some (act table action))
  | updated
      (id : String) (data : ContributorData)
      (hentry : entry table action = some (id, .update data))
      (hfound : lookup table id ≠ none)
      (hact : act table action = table.modify id data.apply (fun _ => rfl))
  | dropped
      (id : String) (hentry : entry table action = some (id, .drop))
      (hfound : lookup table id ≠ none)
      (hact : act table action = table.remove id)

theorem acts
    (table : ContributorTable) (action : Action) :
    Acts table action := by
  have hsome : ∀ {id : String} {p : Contributor → Bool},
      (lookup table id).any p = true → lookup table id ≠ none := by
    intro id p hany hnone
    rw [hnone] at hany
    cases hany
  cases action with
  | request request =>
      cases request with
      | post path body =>
          cases hpost : post table path body with
          | error e =>
              exact .refused (by simp only [entry, hpost])
                (by simp only [act, step, hpost])
          | ok r =>
              obtain ⟨table', c⟩ := r
              have hact : act table (.request (.post path body)) = table' := by
                simp only [act, step, hpost]
              exact .created c (by simp only [entry, hpost])
                (hact ▸ post_insert hpost)
      | put path body =>
          have hput := step_put table path body
          cases hread : readPut path body with
          | error e =>
              rw [hread] at hput
              exact .refused (by simp only [entry, hread]) hput
          | ok r =>
              obtain ⟨id, data⟩ := r
              rw [hread] at hput
              by_cases hfound : (lookup table id).isSome
              · exact .updated id data
                  (by simp only [entry, hread, if_pos hfound])
                  (Option.ne_none_iff_isSome.2 hfound)
                  (hput.trans (if_pos hfound))
              · exact .refused (by simp only [entry, hread, if_neg hfound])
                  (hput.trans (if_neg hfound))
      | delete path =>
          have hdelete := step_delete table path
          cases path with
          | none =>
              exact .refused rfl hdelete
          | some id =>
              by_cases hactive : (lookup table id).any Contributor.isActive
              · exact .updated id deactivation (if_pos hactive) (hsome hactive)
                  (hdelete.trans (if_pos hactive))
              · exact .refused (if_neg hactive) (hdelete.trans (if_neg hactive))
  | purge db id =>
      have hpurge := purgeContributor_eq table db id
      by_cases hgone : (lookup table id).any
          (fun c => !c.isActive && !refersTo db id)
      · exact .dropped id (if_pos hgone) (hsome hgone)
          (hpurge.trans (if_pos hgone))
      · exact .refused (if_neg hgone) (hpurge.trans (if_neg hgone))

/-- The table is a registry: an action is refused, or is a write on one row. -/
theorem registers_contributors :
    Registers update lookup act entry where
  refused := by
    intro table action hnone k
    cases acts table action with
    | refused hentry hact =>
        rw [hact]
    | created c hentry hact =>
        cases hnone.symm.trans hentry
    | updated id data hentry hfound hact =>
        cases hnone.symm.trans hentry
    | dropped id hentry hfound hact =>
        cases hnone.symm.trans hentry
  fits := by
    intro table action k w hw
    cases acts table action with
    | refused hentry hact =>
        cases hw.symm.trans hentry
    | created c hentry hact =>
        cases hw.symm.trans hentry
        exact (lookup_insert hact).1
    | updated id data hentry hfound hact =>
        cases hw.symm.trans hentry
        exact hfound
    | dropped id hentry hfound hact =>
        cases hw.symm.trans hentry
        exact hfound
  written := by
    intro table action k w hw
    cases acts table action with
    | refused hentry hact =>
        cases hw.symm.trans hentry
    | created c hentry hact =>
        cases hw.symm.trans hentry
        exact (lookup_insert hact).2.1
    | updated id data hentry hfound hact =>
        cases hw.symm.trans hentry
        rw [hact]
        exact (lookup_modify (f := data.apply) (fun _ => rfl)).1
    | dropped id hentry hfound hact =>
        cases hw.symm.trans hentry
        rw [hact]
        exact lookup_remove.1
  others := by
    intro table action k w hw k' hk'
    cases acts table action with
    | refused hentry hact =>
        cases hw.symm.trans hentry
    | created c hentry hact =>
        cases hw.symm.trans hentry
        exact (lookup_insert hact).2.2 k' hk'
    | updated id data hentry hfound hact =>
        cases hw.symm.trans hentry
        rw [hact]
        exact (lookup_modify (f := data.apply) (fun _ => rfl)).2 k' hk'
    | dropped id hentry hfound hact =>
        cases hw.symm.trans hentry
        rw [hact]
        exact lookup_remove.2 k' hk'

/-- A creation that is accepted has the values of its object, or the defaults. -/
theorem exists_data_of_created
    {table : ContributorTable} {action : Action} {id : String} {c : Contributor}
    (h : entry table action = some (id, .create c)) :
    ∃ data : ContributorData,
      data.fitsPostSchema = true ∧ data.newContributor id = some c := by
  cases action with
  | request request =>
      cases request with
      | post path body =>
          simp only [entry] at h
          split at h
          · rename_i table' c' hpost
            cases h
            obtain ⟨data, id', hschema, -, hnew, -⟩ := post_cases hpost
            have hid : id' = c.id := by
              unfold ContributorData.newContributor at hnew
              split at hnew
              · cases hnew
                rfl
              · cases hnew
            exact ⟨data, hschema, hid ▸ hnew⟩
          · cases h
      | put path body =>
          simp only [entry] at h
          split at h
          · split at h <;> cases h
          · cases h
      | delete path =>
          simp only [entry] at h
          split at h
          · split at h <;> cases h
          · cases h
  | purge db id' =>
      simp only [entry] at h
      split at h <;> cases h

/--
After every sequence of requests and of deletions by the command, from an empty
table, a contributor is found exactly when its last creation has not been deleted.
Then each of its fields has the last value that an accepted update gave for it since
that creation, or else the value of the creation, and it is in the list of the
contributors exactly when it is active.
-/
theorem contributors_last_written
    (actions : List Action) (id : String) :
    (get (actions.foldl act emptyTable) (some id) = .error notFound ∧
        (writesOf id (journal act entry emptyTable actions) = [] ∨ ∃ before,
          writesOf id (journal act entry emptyTable actions) =
            before ++ [.drop])) ∨
      ∃ (c : Contributor) (data : ContributorData) (created : Contributor)
        (updates : List ContributorData)
        (before : List (Write Contributor ContributorData)),
        get (actions.foldl act emptyTable) (some id) = .ok [c] ∧
        data.fitsPostSchema = true ∧ data.newContributor id = some created ∧
        writesOf id (journal act entry emptyTable actions) =
          before ++ .create created :: updates.map .update ∧
        (∀ {β : Type} (field : Contributor → β)
          (given : ContributorData → Option β), IsField update field given →
          field c = (updates.filterMap given).getLast?.getD (field created)) ∧
        ∃ listed, get (actions.foldl act emptyTable) none = .ok listed ∧
          (c ∈ listed ↔ c.isActive = true) := by
  have hempty : lookup emptyTable id = none := rfl
  rcases rowOf_run registers_contributors hempty actions with
    ⟨hnone, hwrites⟩ | ⟨c, created, updates, hc, ⟨before, hwrites⟩, hrow⟩
  · refine Or.inl ⟨?_, hwrites⟩
    rw [lookup] at hnone
    simp only [get, hnone]
  · have hcreated : Write.create created ∈
        writesOf id (journal act entry emptyTable actions) := by
      rw [hwrites]
      exact List.mem_append_right _ List.mem_cons_self
    obtain ⟨table, action, hentry⟩ :=
      exists_entry_of_mem_journal (mem_writesOf hcreated)
    obtain ⟨data, hschema, hnew⟩ := exists_data_of_created hentry
    refine Or.inr ⟨c, data, created, updates, before, ?_, hschema, hnew, hwrites,
      ?_, _, rfl, ?_⟩
    · rw [lookup] at hc
      simp only [get, hc]
    · intro β field given hfield
      rw [hrow]
      exact hfield.foldl created updates
    · rw [List.mem_filter]
      exact and_iff_right (lookup_eq_some_iff.1 hc).1

namespace Sample

/-- What `addressed` gives. -/
def address : ContributorData :=
  { noKey with brokerUrl := some (some "amqp://broker") }

/-- The row of `created`. -/
def createdContributor : Contributor where
  id := "realtime.piv"
  navitiaCoverage := "sncf"
  navitiaToken := none
  feedUrl := none
  connectorType := .piv
  retrievalInterval := some 10
  isActive := true
  brokerUrl := none
  exchangeName := none
  queueName := none
  nbDaysToKeepTripUpdate := 3
  nbDaysToKeepRtUpdate := 30

end Sample

/-- An update that gives an address leaves the queue of the creation. -/
theorem contributors_last_written_addressed :
    ∃ c, get ([Action.request Sample.created, .request Sample.addressed].foldl act
        emptyTable) (some "realtime.piv") = .ok [c] ∧
      c.brokerUrl = some "amqp://broker" ∧ c.queueName = none := by
  have hjournal : writesOf "realtime.piv" (journal act entry emptyTable
      [.request Sample.created, .request Sample.addressed]) =
        [.create Sample.createdContributor, .update Sample.address] := by
    decide
  rcases contributors_last_written
      [.request Sample.created, .request Sample.addressed] "realtime.piv" with
    ⟨hnone, -⟩ | ⟨c, data, created, updates, before, hget, -, -, hwrites,
      hfields, -⟩
  · exact absurd hnone (by decide)
  · have hsame : [] ++ Write.create Sample.createdContributor ::
        [Sample.address].map Write.update =
          before ++ Write.create created :: updates.map Write.update :=
      hjournal.symm.trans hwrites
    obtain ⟨rfl, rfl⟩ := created_unique hsame
    refine ⟨c, hget, ?_, ?_⟩
    · exact hfields Contributor.brokerUrl ContributorData.brokerUrl
        (fun _ _ => rfl)
    · exact hfields Contributor.queueName ContributorData.queueName
        (fun _ _ => rfl)

end Resources
end Kirin
