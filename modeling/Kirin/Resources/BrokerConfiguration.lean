import Kirin.Library.FieldGroup
import Kirin.Library.Runs
import Kirin.Resources.Contributors

/-!
# Kirin: the broker of a contributor

The three fields that configure a broker have to be filled together.  A creation
checks it, an update does not.

* `post_allOrNone`, `delete_allOrNone`: what is kept by the other requests.
* `apply_allOrNone_iff`: the updates that keep the three fields together.
* `brokers_allOrNone_iff`: they are together in every table reached exactly when
  no update separates them.
-/

namespace Kirin
namespace Resources

open Kirin.Core FieldGroup

/-- A field of the broker has a value. -/
def Filled (value : Option String) : Prop :=
  isFilled value = true

instance : DecidablePred Filled :=
  fun value => inferInstanceAs (Decidable (isFilled value = true))

/-- The three fields of the broker are filled, or none of them is. -/
def AllOrNone (c : Contributor) : Prop :=
  Together Filled c.brokerFields

instance : DecidablePred AllOrNone :=
  fun c => inferInstanceAs (Decidable (Together Filled c.brokerFields))

/-- The brokers of all the rows are configured as they should. -/
def BrokersAllOrNone (table : ContributorTable) : Prop :=
  ∀ c ∈ table.rows, AllOrNone c

instance : DecidablePred BrokersAllOrNone :=
  fun table => inferInstanceAs (Decidable (∀ c ∈ table.rows, AllOrNone c))

/--
An update clears the three fields of a broker that is configured, or none of
them; it fills the three fields of one that is not, or none of them.
-/
def KeepsBroker (data : ContributorData) (c : Contributor) : Prop :=
  if c.brokerFields.all isFilled then
    Together (Clears Filled) data.brokerUpdates
  else Together (Fills Filled) data.brokerUpdates

/-- A request that is an update keeps the broker of the row it is about. -/
def KeepsBrokers (table : ContributorTable) : Request → Prop
  | .put id body =>
      ∀ id' data, readPut id body = .ok (id', data) →
        ∀ c ∈ table.rows, c.id = id' → KeepsBroker data c
  | .post _ _ => True
  | .delete _ => True

section Rows

variable {table : ContributorTable} {c : Contributor} {data : ContributorData}

/-- What an update leaves in the fields of the broker. -/
theorem apply_brokerFields
    (data : ContributorData) (c : Contributor) :
    (data.apply c).brokerFields = patch data.brokerUpdates c.brokerFields :=
  rfl

/-- The updates that keep the fields of a broker together. -/
theorem apply_allOrNone_iff
    (h : AllOrNone c) :
    AllOrNone (data.apply c) ↔ KeepsBroker data c := by
  rw [AllOrNone, apply_brokerFields, KeepsBroker]
  split
  · rename_i hall
    exact together_patch_of_all rfl (List.all_eq_true.1 hall)
  · rename_i hnot
    have hnone : ∀ v ∈ c.brokerFields, ¬ Filled v :=
      h.resolve_left (fun hall => hnot (List.all_eq_true.2 hall))
    exact together_patch_of_none rfl hnone

/-- The check of a creation accepts fields that go together. -/
theorem together_of_checked
    {values : List (Option String)}
    (h : ¬ (values.any isFilled && !values.all isFilled) = true) :
    Together Filled values := by
  cases hall : values.all isFilled with
  | true =>
      exact Or.inl (List.all_eq_true.1 hall)
  | false =>
      have hany : values.any isFilled = false := by
        simpa [hall] using h
      exact Or.inr (fun v hv => List.any_eq_false.1 hany v hv)

theorem newContributor_brokerFields
    {id : String} (h : data.newContributor id = some c) :
    c.brokerFields = data.brokerUpdates.map Option.join := by
  unfold ContributorData.newContributor at h
  split at h
  · cases h
    rfl
  · cases h

/-- A contributor that is created is added, with fields that go together. -/
theorem post_ok
    {table' : ContributorTable} {id : Option String} {body : Body}
    (h : post table id body = .ok (table', c)) :
    AllOrNone c ∧ table'.rows = table.rows ++ [c] := by
  obtain ⟨data, id', -, hchecked, hnew, -, hrows⟩ := post_cases h
  refine ⟨?_, hrows⟩
  rw [AllOrNone, newContributor_brokerFields hnew]
  exact together_of_checked hchecked

/-- A creation keeps the fields of the brokers together. -/
theorem post_allOrNone
    (h : BrokersAllOrNone table) (id : Option String) (body : Body) :
    BrokersAllOrNone (step table (.post id body)) := by
  simp only [step]
  split
  · rename_i table' newContrib hpost
    obtain ⟨hnew, hrows⟩ := post_ok hpost
    rw [BrokersAllOrNone, hrows, List.forall_mem_append]
    exact ⟨h, List.forall_mem_singleton.2 hnew⟩
  · exact h

/-- So does the deactivation of a contributor. -/
theorem delete_allOrNone
    (h : BrokersAllOrNone table) (id : Option String) :
    BrokersAllOrNone (step table (.delete id)) :=
  forall_rows_delete (fun _ hc => hc) h id

/-- An update keeps the fields of the brokers when it does not separate them. -/
theorem put_allOrNone_iff
    (h : BrokersAllOrNone table) (id : Option String) (body : Body) :
    BrokersAllOrNone (step table (.put id body)) ↔
      KeepsBrokers table (.put id body) := by
  rw [BrokersAllOrNone, step_put_rows, KeepsBrokers]
  cases readPut id body with
  | error e =>
      refine iff_of_true h ?_
      intro id' data hread
      cases hread
  | ok r =>
      obtain ⟨id', data⟩ := r
      simp only [Except.ok.injEq, Prod.mk.injEq, and_imp, List.forall_mem_map]
      constructor
      · rintro hall id'' data' rfl rfl c hc hid
        have hrow := hall c hc
        rw [if_pos hid] at hrow
        exact (apply_allOrNone_iff (h c hc)).1 hrow
      · intro hkeeps c hc
        split
        · rename_i hid
          exact (apply_allOrNone_iff (h c hc)).2
            (hkeeps id' data rfl rfl c hc hid)
        · exact h c hc

/-- A request keeps the fields of the brokers together when it should. -/
theorem step_allOrNone_iff
    (request : Request) (h : BrokersAllOrNone table) :
    BrokersAllOrNone (step table request) ↔ KeepsBrokers table request := by
  cases request with
  | post id body =>
      exact iff_of_true (post_allOrNone h id body) trivial
  | put id body =>
      exact put_allOrNone_iff h id body
  | delete id =>
      exact iff_of_true (delete_allOrNone h id) trivial

end Rows

/--
From an empty table, the brokers are all or nothing in every table reached
exactly when every update along the way clears the three fields of a configured
broker or none of them, and fills the three fields of another one or none.
-/
theorem brokers_allOrNone_iff
    (requests : List Request) :
    Runs.Along step (fun table request => BrokersAllOrNone (step table request))
        emptyTable requests ↔
      Runs.Along step KeepsBrokers emptyTable requests :=
  Runs.along_invariant_iff (fun _ request h => step_allOrNone_iff request h)
    (fun _ hc => absurd hc List.not_mem_nil)

namespace Sample

/-- An object without any key. -/
def noKey : ContributorData where
  id := none
  navitiaCoverage := none
  navitiaToken := none
  feedUrl := none
  connectorType := none
  retrievalInterval := none
  isActive := none
  brokerUrl := none
  exchangeName := none
  queueName := none
  nbDaysToKeepTripUpdate := none
  nbDaysToKeepRtUpdate := none
  otherKeys := []

/-- A contributor is created without any broker. -/
def created : Request :=
  .post (some "realtime.piv")
    (.json
      { noKey with
        navitiaCoverage := some "sncf"
        connectorType := some .piv
        nbDaysToKeepTripUpdate := some 3
        nbDaysToKeepRtUpdate := some 30 })

/-- Its broker is then given an address, and nothing else. -/
def addressed : Request :=
  .put (some "realtime.piv")
    (.json { noKey with brokerUrl := some (some "amqp://broker") })

end Sample

/-- An update gives an address to a broker that has neither exchange nor queue. -/
theorem brokers_not_allOrNone_addressed :
    ([Sample.created, Sample.addressed].foldl step emptyTable).rows.map
        Contributor.brokerFields = [[some "amqp://broker", none, none]] ∧
      BrokersAllOrNone (step emptyTable Sample.created) ∧
      ¬ BrokersAllOrNone
        ([Sample.created, Sample.addressed].foldl step emptyTable) := by
  decide

end Resources
end Kirin
