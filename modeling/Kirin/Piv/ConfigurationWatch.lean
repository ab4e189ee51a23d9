import Kirin.Library.Checked
import Kirin.Library.KeyedStore
import Kirin.Piv.Supervision

/-!
# Kirin: the watch of a worker over its configuration

Before it waits for a message, the `PivWorker` of `kirin/command/piv_worker.py`
looks at the table of contributors from time to time, and stops when its
contributor is not there any more or has another configuration.

* `PivWorker.init`, `PivWorker.onIteration`: the functions of the source.
* `Watches`: the table has the contributor of a worker, as it was for its start.
* `init_eq_ok`: it has it when the worker starts.
* `onIteration_cases`: the worker goes on as long as it has it.
-/

namespace Kirin
namespace Piv

open Kirin.Core
open Kirin.Resources (Contributor ContributorTable)

/-- A worker, with the configuration that it keeps of its contributor. -/
structure PivWorker where
  contributorId : String
  brokerUrl : Option String
  navitiaCoverage : String
  navitiaToken : Option String
  exchangeName : Option String
  queueName : Option String
  lastConfigCheckedTime : Datetime
  shouldStop : Bool
deriving DecidableEq, Repr

namespace PivWorker

/-- A worker for a contributor, once it is connected to its broker. -/
def init (c : Contributor) (now : Datetime) : Except PyException PivWorker :=
  (initWorker c).map (fun _ =>
    { contributorId := c.id
      brokerUrl := c.brokerUrl
      navitiaCoverage := c.navitiaCoverage
      navitiaToken := c.navitiaToken
      exchangeName := c.exchangeName
      queueName := c.queueName
      lastConfigCheckedTime := now
      shouldStop := false })

end PivWorker

def getPivContributor (found : List Contributor) (contributorId : String) :
    Option Contributor :=
  (found.filter (fun c => c.id == contributorId)).head?

namespace PivWorker

/-- Whether the contributor that is found is not configured as it was. -/
def configChanged (w : PivWorker) : Option Contributor → Bool
  | none => true
  | some c =>
      c.brokerUrl != w.brokerUrl || c.navitiaCoverage != w.navitiaCoverage
        || c.navitiaToken != w.navitiaToken || c.exchangeName != w.exchangeName
        || c.queueName != w.queueName

/-- Look at the contributors, unless they were looked at a short time ago. -/
def onIteration (confReloadInterval : Timedelta) (now : Datetime)
    (found : List Contributor) (w : PivWorker) : PivWorker :=
  if now - w.lastConfigCheckedTime < confReloadInterval then w
  else
    { w with
      lastConfigCheckedTime := now
      shouldStop := w.shouldStop
        || w.configChanged (getPivContributor found w.contributorId) }

/-- The table has the contributor of a worker, active and configured as it was. -/
def Watches (w : PivWorker) (table : ContributorTable) : Prop :=
  ∃ c ∈ table.rows, c.id = w.contributorId ∧ c.isActive = true ∧
    c.connectorType = .piv ∧ c.brokerUrl = w.brokerUrl ∧
    c.navitiaCoverage = w.navitiaCoverage ∧ c.navitiaToken = w.navitiaToken ∧
    c.exchangeName = w.exchangeName ∧ c.queueName = w.queueName

end PivWorker

section Watch

variable {table : ContributorTable} {found : List Contributor} {w : PivWorker}
variable {c : Contributor} {now : Datetime}

theorem initWorker_eq_ok
    (h : initWorker c = .ok ()) :
    c.connectorType = .piv ∧ c.isActive = true := by
  unfold initWorker at h
  split at h
  · cases h
  · rename_i hpiv
    split at h
    · cases h
    · rename_i hactive
      exact ⟨by simpa using hpiv, by simpa using hactive⟩

theorem init_eq_ok
    (h : PivWorker.init c now = .ok w) :
    w.contributorId = c.id ∧ w.lastConfigCheckedTime = now ∧
      w.shouldStop = false ∧
      ∀ table : ContributorTable, c ∈ table.rows → w.Watches table := by
  obtain ⟨_, hinit, rfl⟩ := Checked.map_eq_ok.1 h
  obtain ⟨hpiv, hactive⟩ := initWorker_eq_ok hinit
  exact ⟨rfl, rfl, rfl, fun table hc =>
    ⟨c, hc, rfl, hactive, hpiv, rfl, rfl, rfl, rfl, rfl⟩⟩

@[simp] theorem onIteration_contributorId
    (interval : Timedelta) (now : Datetime) (found : List Contributor)
    (w : PivWorker) :
    (w.onIteration interval now found).contributorId = w.contributorId := by
  unfold PivWorker.onIteration
  split <;> rfl

/-- Among the active PIV contributors, the one of an identifier is found. -/
theorem getPivContributor_eq_some_iff
    (hfound : found.Perm (table.findByConnectorType .piv false)) {id : String} :
    getPivContributor found id = some c ↔
      c ∈ table.rows ∧ c.id = id ∧ c.isActive = true ∧ c.connectorType = .piv := by
  have hfilter : ∀ c, c ∈ found.filter (fun c => c.id == id) ↔
      c ∈ table.rows ∧ c.id = id ∧ c.isActive = true ∧ c.connectorType = .piv := by
    intro c
    rw [List.mem_filter, hfound.mem_iff,
      ContributorTable.mem_findByConnectorType_iff, beq_iff_eq]
    exact ⟨fun ⟨⟨h, ha, hc⟩, hid⟩ => ⟨h, hid, ha, hc⟩,
      fun ⟨h, hid, ha, hc⟩ => ⟨⟨h, ha, hc⟩, hid⟩⟩
  constructor
  · intro h
    exact (hfilter c).1 (List.mem_of_mem_head? h)
  · intro hc
    obtain ⟨first, hfirst⟩ : ∃ first, getPivContributor found id = some first := by
      rw [getPivContributor, ← Option.isSome_iff_exists, List.isSome_head?]
      exact List.ne_nil_of_mem ((hfilter c).2 hc)
    have hown := (hfilter first).1 (List.mem_of_mem_head? hfirst)
    have hsame : first = c := KeyedStore.eq_of_key_eq table.uniqueId hown.1 hc.1
      (hown.2.1.trans hc.2.1.symm)
    exact hsame ▸ hfirst

/-- What is compared tells whether the contributor is still as it was. -/
theorem configChanged_eq_false_iff
    (hfound : found.Perm (table.findByConnectorType .piv false)) :
    w.configChanged (getPivContributor found w.contributorId) = false ↔
      w.Watches table := by
  constructor
  · intro h
    cases hget : getPivContributor found w.contributorId with
    | none =>
        rw [hget] at h
        cases h
    | some c =>
        obtain ⟨hmem, hid, hactive, hpiv⟩ :=
          (getPivContributor_eq_some_iff hfound).1 hget
        rw [hget] at h
        simp only [PivWorker.configChanged, Bool.or_eq_false_iff,
          bne_eq_false_iff_eq, and_assoc] at h
        exact ⟨c, hmem, hid, hactive, hpiv, h⟩
  · rintro ⟨c, hmem, hid, hactive, hpiv, hsame⟩
    rw [(getPivContributor_eq_some_iff hfound).2 ⟨hmem, hid, hactive, hpiv⟩]
    simp only [PivWorker.configChanged, Bool.or_eq_false_iff,
      bne_eq_false_iff_eq, and_assoc]
    exact hsame

/-- What an iteration leaves of a worker that goes on. -/
theorem onIteration_cases
    (hfound : found.Perm (table.findByConnectorType .piv false))
    (interval : Timedelta) (now : Datetime) (hgo : w.shouldStop = false) :
    (now < w.lastConfigCheckedTime + interval ∧
        w.onIteration interval now found = w) ∨
      w.Watches table ∧ w.onIteration interval now found =
        { w with lastConfigCheckedTime := now } ∨
      ¬w.Watches table ∧ w.onIteration interval now found =
        { w with lastConfigCheckedTime := now, shouldStop := true } := by
  unfold PivWorker.onIteration
  split
  · rename_i hrecent
    exact Or.inl ⟨Int.lt_add_of_sub_left_lt hrecent, rfl⟩
  · right
    rw [hgo, Bool.false_or]
    cases hchanged : w.configChanged
        (getPivContributor found w.contributorId) with
    | false =>
        refine Or.inl ⟨(configChanged_eq_false_iff hfound).1 hchanged, ?_⟩
        rw [← hgo]
    | true =>
        refine Or.inr ⟨fun hwatches => ?_, rfl⟩
        rw [(configChanged_eq_false_iff hfound).2 hwatches] at hchanged
        cases hchanged

end Watch

end Piv
end Kirin
