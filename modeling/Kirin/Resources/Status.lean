import Kirin.FeedJournal
import Kirin.Resources.Contributors

/-!
# Kirin: the probes of the contributors

The status resource tells, for each contributor that is active, when its last
feed was received, when the last valid one was, and the error of the last one.
`get_probes_by_contributor` of `kirin/core/model.py` reads this from the table of
the `RealTimeUpdate`.

* `getProbesByContributor`: the probes, from the table.
* `mem_lastUpdate`, `mem_lastValidUpdate`, `mem_lastUpdateError`: the probes of a
  contributor, from the entries of its journal.
* `probes_of_run`: the probes of a contributor, from the polls it has had.
-/

namespace Kirin
namespace Resources

open Kirin.Core
open Journal (Entry Timed)

/-- The probes: for each contributor, an instant or an error. -/
structure Probes where
  lastUpdate : List (String × Datetime)
  lastValidUpdate : List (String × Datetime)
  lastUpdateError : List (String × Option RtuError)
deriving DecidableEq, Repr

def emptyProbes : Probes where
  lastUpdate := []
  lastValidUpdate := []
  lastUpdateError := []

/-- The instant that is told by `%Y-%m-%dT%H:%M:%SZ`. -/
def toSecond (t : Datetime) : Datetime :=
  t / Core.second * Core.second

/-- The last row of a contributor. -/
def lastRow (rows : List FeedRow) (c : String) : Option FeedRow :=
  lastCreated (rows.filter (fun r => r.contributorId == c))

/-- The last row of a contributor whose status is OK. -/
def lastRowOk (rows : List FeedRow) (c : String) : Option FeedRow :=
  lastCreated
    (rows.filter (fun r => r.contributorId == c && r.status == .ok))

/-- The probes once those of a contributor are added. -/
def addProbes (rows : List FeedRow) (result : Probes) (c : String) : Probes :=
  match lastRow rows c with
  | none => result
  | some row =>
      let date :=
        match row.updatedAt with
        | some updatedAt => updatedAt
        | none => row.createdAt
      let result :=
        { result with
          lastUpdate := result.lastUpdate ++ [(c, toSecond date)] }
      if row.status = .ok then
        { result with
          lastValidUpdate :=
            result.lastValidUpdate ++ [(c, toSecond row.createdAt)] }
      else
        let result :=
          { result with
            lastUpdateError := result.lastUpdateError ++ [(c, row.error)] }
        match lastRowOk rows c with
        | none => result
        | some rowOk =>
            { result with
              lastValidUpdate :=
                result.lastValidUpdate ++ [(c, toSecond rowOk.createdAt)] }

/-- The contributors that are active. -/
def existingIds (table : ContributorTable) : List String :=
  (table.rows.filter Contributor.isActive).map Contributor.id

def getProbesByContributor (table : ContributorTable)
    (rows : List FeedRow) : Probes :=
  (existingIds table).foldl (addProbes rows) emptyProbes

/-- When the last feed of a contributor was received. -/
def lastUpdateOf (rows : List FeedRow) (c : String) : Option Datetime :=
  (lastRow rows c).map (fun row => toSecond row.entry.last)

/-- When the last valid feed of a contributor was received. -/
def lastValidUpdateOf (rows : List FeedRow) (c : String) : Option Datetime :=
  (lastRowOk rows c).map (fun row => toSecond row.createdAt)

/-- The error of the last feed of a contributor, if it is not valid. -/
def lastUpdateErrorOf (rows : List FeedRow) (c : String) :
    Option (Option RtuError) :=
  ((lastRow rows c).filter (fun row => row.status != .ok)).map
    (fun row => row.error)

/-- The pairs of a contributor and of what is known of it. -/
def paired {β : Type} (c : String) (value : Option β) : List (String × β) :=
  value.toList.map (fun v => (c, v))

section Added

variable {rows : List FeedRow} {c : String} {bound : Datetime}
variable (hordered : Journal.Ordered bound (entriesOf c rows))
include hordered

theorem lastRow_eq :
    lastRow rows c =
      (rows.filter (fun r => r.contributorId == c)).getLast? :=
  lastCreated_eq_getLast? (pairwise_createdAt hordered)

theorem lastRowOk_eq :
    lastRowOk rows c =
      ((rows.filter (fun r => r.contributorId == c)).filter
        (fun r => r.status == .ok)).getLast? := by
  have hfilter : rows.filter (fun r =>
        r.contributorId == c && r.status == .ok) =
      (rows.filter (fun r => r.contributorId == c)).filter
        (fun r => r.status == .ok) := by
    rw [List.filter_filter]
    exact List.filter_congr (fun _ _ => Bool.and_comm _ _)
  rw [lastRowOk, hfilter]
  exact lastCreated_eq_getLast? ((pairwise_createdAt hordered).filter _)

/-- When the last row is OK, it is the last one that is OK. -/
theorem lastRowOk_of_lastRow
    {row : FeedRow} (hrow : lastRow rows c = some row)
    (hok : row.status = .ok) :
    lastRowOk rows c = some row := by
  rw [lastRow_eq hordered] at hrow
  obtain ⟨init, hinit⟩ := List.getLast?_eq_some_iff.1 hrow
  rw [lastRowOk_eq hordered, hinit, List.filter_append]
  simp [hok]

/-- What is added for a contributor are its probes. -/
theorem addProbes_eq
    (result : Probes) :
    addProbes rows result c =
      { lastUpdate := result.lastUpdate ++ paired c (lastUpdateOf rows c)
        lastValidUpdate :=
          result.lastValidUpdate ++ paired c (lastValidUpdateOf rows c)
        lastUpdateError :=
          result.lastUpdateError ++ paired c (lastUpdateErrorOf rows c) } := by
  unfold addProbes
  cases hrow : lastRow rows c with
  | none =>
      have hnone : lastRowOk rows c = none := by
        rw [lastRow_eq hordered, List.getLast?_eq_none_iff] at hrow
        rw [lastRowOk_eq hordered, hrow]
        rfl
      simp [lastUpdateOf, lastValidUpdateOf, lastUpdateErrorOf, paired, hrow,
        hnone]
  | some row =>
      have hdate : (match row.updatedAt with
          | some updatedAt => updatedAt
          | none => row.createdAt) = row.entry.last := by
        rw [FeedRow.entry]
        cases row.updatedAt <;> rfl
      by_cases hok : row.status = .ok
      · simp [lastUpdateOf, lastValidUpdateOf, lastUpdateErrorOf, paired, hrow,
          hok, lastRowOk_of_lastRow hordered hrow hok, hdate]
      · cases hrowOk : lastRowOk rows c with
        | none =>
            simp [lastUpdateOf, lastValidUpdateOf, lastUpdateErrorOf, paired,
              hrow, hok, hrowOk, hdate, Option.filter_some]
        | some rowOk =>
            simp [lastUpdateOf, lastValidUpdateOf, lastUpdateErrorOf, paired,
              hrow, hok, hrowOk, hdate, Option.filter_some]

end Added

section Entries

variable {rows : List FeedRow} {c : String} {bound : Datetime}
variable (hordered : Journal.Ordered bound (entriesOf c rows))
include hordered

/-- The last instant of a contributor is that of its last entry. -/
theorem lastUpdateOf_eq :
    lastUpdateOf rows c =
      (entriesOf c rows).getLast?.map (fun e => toSecond e.last) := by
  rw [lastUpdateOf, lastRow_eq hordered, entriesOf, List.getLast?_map,
    Option.map_map]
  rfl

/-- The last valid feed of a contributor is that of its last valid entry. -/
theorem lastValidUpdateOf_eq :
    lastValidUpdateOf rows c =
      (Journal.opened (fun content => content.status == .ok)
        (entriesOf c rows)).getLast?.map toSecond := by
  rw [lastValidUpdateOf, lastRowOk_eq hordered, Journal.opened, entriesOf,
    List.filter_map, List.map_map, List.getLast?_map, Option.map_map]
  rfl

/-- The last error of a contributor is that of its last entry. -/
theorem lastUpdateErrorOf_eq :
    lastUpdateErrorOf rows c =
      (((entriesOf c rows).getLast?.map Entry.content).filter
        (fun content => content.status != .ok)).map FeedContent.error := by
  rw [lastUpdateErrorOf, lastRow_eq hordered, entriesOf, List.getLast?_map,
    Option.map_map]
  cases (rows.filter (fun r => r.contributorId == c)).getLast? with
  | none =>
      rfl
  | some row =>
      have hstatus : row.entry.content.status = row.status := rfl
      simp only [Option.map_some, Function.comp_apply, Option.filter_some,
        hstatus]
      split <;> rfl

end Entries

/-- What is added for some contributors are their probes. -/
theorem foldl_addProbes
    {rows : List FeedRow}
    (hordered : ∀ c, ∃ bound, Journal.Ordered bound (entriesOf c rows))
    (ids : List String) (result : Probes) :
    ids.foldl (addProbes rows) result =
      { lastUpdate := result.lastUpdate ++
          ids.flatMap (fun c => paired c (lastUpdateOf rows c))
        lastValidUpdate := result.lastValidUpdate ++
          ids.flatMap (fun c => paired c (lastValidUpdateOf rows c))
        lastUpdateError := result.lastUpdateError ++
          ids.flatMap (fun c => paired c (lastUpdateErrorOf rows c)) } := by
  induction ids generalizing result with
  | nil =>
      simp
  | cons c rest ih =>
      obtain ⟨bound, hc⟩ := hordered c
      rw [List.foldl_cons, addProbes_eq hc, ih]
      simp

theorem mem_flatMap_paired
    {β : Type} {ids : List String} {f : String → Option β} {c : String} {v : β} :
    (c, v) ∈ ids.flatMap (fun c => paired c (f c)) ↔ c ∈ ids ∧ f c = some v := by
  simp only [paired, List.mem_flatMap, List.mem_map, Option.mem_toList,
    Prod.mk.injEq]
  constructor
  · rintro ⟨c', hc', v', hv', rfl, rfl⟩
    exact ⟨hc', hv'⟩
  · rintro ⟨hc, hv⟩
    exact ⟨c, hc, v, hv, rfl, rfl⟩

/-- The polls of a contributor that tell something. -/
def toldEvents (c : String) (events : List PollEvent) : List PollEvent :=
  (eventsOf c events).filter (fun e => e.happening != .noNew)

/-- The error of a poll, if any. -/
def failureOf (e : PollEvent) : Option RtuError :=
  match e.happening with
  | .processed _ failure => failure
  | .httpError => some (.text "Http Error")
  | .undecodable _ => some (.text "invalid protobuf")
  | .noNew => none

/-- Whether a poll has processed a feed that is valid. -/
def isValid (e : PollEvent) : Bool :=
  match e.happening with
  | .processed _ none => true
  | _ => false

section Polls

variable {events : List PollEvent}

/-- What a poll says: nothing, or its error. -/
theorem said_timed
    (last : Option FeedContent) (e : PollEvent) :
    Journal.said last e.timed = last ∧ e.happening = .noNew ∨
      ∃ content, Journal.said last e.timed = some content ∧
        e.happening ≠ .noNew ∧ content.error = failureOf e ∧
        (content.status = .ok ↔ failureOf e = none) := by
  obtain ⟨contributorId, newId, start, finish, happening⟩ := e
  cases happening with
  | processed rawData failure =>
      cases failure with
      | none =>
          exact Or.inr ⟨_, rfl, nofun, rfl, by simp [failureOf]⟩
      | some error =>
          exact Or.inr ⟨_, rfl, nofun, rfl, by simp [failureOf]⟩
  | httpError =>
      exact Or.inr ⟨_, rfl, nofun, rfl, by simp [failureOf]⟩
  | undecodable rawData =>
      exact Or.inr ⟨_, rfl, nofun, rfl, by simp [failureOf]⟩
  | noNew =>
      exact Or.inl ⟨rfl, rfl⟩

/-- What was said last is what the last poll that tells something has told. -/
theorem foldl_said
    (events : List PollEvent) :
    Option.Rel
      (fun content e => content.error = failureOf e ∧
        (content.status = .ok ↔ failureOf e = none))
      ((events.map PollEvent.timed).foldl Journal.said none)
      (events.filter (fun e => e.happening != .noNew)).getLast? := by
  induction events using List.reverseRecOn with
  | nil =>
      exact .none
  | append_singleton events e ih =>
      rw [List.map_append, List.foldl_append, List.filter_append]
      simp only [List.map_singleton, List.foldl_cons, List.foldl_nil]
      rcases said_timed ((events.map PollEvent.timed).foldl Journal.said none) e
        with ⟨hsaid, hnothing⟩ | ⟨content, hsaid, htold, hcontent⟩
      · rw [hsaid]
        simpa [hnothing] using ih
      · rw [hsaid, List.filter_cons_of_pos (by simpa using htold),
          List.filter_nil, List.getLast?_concat]
        exact .some hcontent

/-- The valid entries are opened by the polls that have processed a valid feed. -/
theorem filterMap_opening
    (events : List PollEvent) :
    (events.map PollEvent.timed).filterMap
        (Journal.opening (fun content => content.status == .ok)) =
      (events.filter isValid).map PollEvent.start := by
  induction events with
  | nil =>
      rfl
  | cons e rest ih =>
      obtain ⟨contributorId, newId, start, finish, happening⟩ := e
      rw [List.map_cons, List.filterMap_cons, ih]
      cases happening with
      | processed rawData failure =>
          cases failure <;> rfl
      | httpError => rfl
      | undecodable rawData => rfl
      | noNew => rfl

/-- A poll that tells of an error repeats it, and is not valid. -/
theorem not_valid_of_repeated
    {c : String} {r : Timed Datetime FeedContent} (hr : r ∈ reportsOf c events)
    {content : FeedContent} (hrepeated : r.report = .repeated content) :
    (content.status == .ok) = false := by
  obtain ⟨e, -, rfl⟩ := List.mem_map.1 hr
  have hreport : e.report = .repeated content := hrepeated
  unfold PollEvent.report at hreport
  split at hreport <;> cases hreport <;> rfl

/-- The last entry tells what the last poll that tells something has told. -/
theorem getLast?_content
    {connectorOf : String → ConnectorType}
    (h : Scheduled connectorOf [] events) (c : String) :
    Option.Rel
      (fun content e => content.error = failureOf e ∧
        (content.status = .ok ↔ failureOf e = none))
      ((entriesOf c (events.foldl (record connectorOf) [])).getLast?.map
        Entry.content)
      (toldEvents c events).getLast? := by
  rw [entriesOf_run h, Journal.getLast?_run_content]
  exact foldl_said (eventsOf c events)

/-- The table has an entry when a poll has told something, ended by the last. -/
theorem getLast?_last
    {connectorOf : String → ConnectorType}
    (h : Scheduled connectorOf [] events) (c : String) :
    (entriesOf c (events.foldl (record connectorOf) [])).getLast?.map
        Entry.last =
      if toldEvents c events = [] then none
      else (eventsOf c events).getLast?.map PollEvent.written := by
  have hcontent := getLast?_content h c
  cases hentry : (entriesOf c
      (events.foldl (record connectorOf) [])).getLast? with
  | none =>
      rw [hentry, Option.map_none] at hcontent
      cases htold : (toldEvents c events).getLast? with
      | none =>
          rw [if_pos (List.getLast?_eq_none_iff.1 htold), Option.map_none]
      | some e =>
          rw [htold] at hcontent
          cases hcontent
  | some entry =>
      rw [hentry, Option.map_some] at hcontent
      have htold : toldEvents c events ≠ [] := by
        intro hnil
        rw [hnil] at hcontent
        cases hcontent
      have hevents : eventsOf c events ≠ [] := by
        intro hnil
        exact htold (by rw [toldEvents, hnil]; rfl)
      obtain ⟨init, last, hlast⟩ :=
        (List.eq_nil_or_concat (eventsOf c events)).resolve_left hevents
      rw [List.concat_eq_append] at hlast
      rw [if_neg htold, hlast, List.getLast?_concat]
      rw [entriesOf_run h, reportsOf, hlast, List.map_append, List.foldl_append]
        at hentry
      exact congrArg some (Journal.getLast?_write _ last.timed entry hentry)

/--
The probes of a contributor, once any polls of any contributors have come: it has
them when it is active, the last instant is that of its last poll, the last valid
one that of its last valid feed, and the error that of the last poll that tells
something.
-/
theorem probes_of_run
    (table : ContributorTable) {connectorOf : String → ConnectorType}
    (h : Scheduled connectorOf [] events) (c : String) :
    let probes := getProbesByContributor table
      (events.foldl (record connectorOf) [])
    (∀ t, (c, t) ∈ probes.lastUpdate ↔
        c ∈ existingIds table ∧ toldEvents c events ≠ [] ∧
          ∃ e, (eventsOf c events).getLast? = some e ∧
            toSecond e.written = t) ∧
      (∀ t, (c, t) ∈ probes.lastValidUpdate ↔
        c ∈ existingIds table ∧
          ∃ e, ((eventsOf c events).filter isValid).getLast? = some e ∧
            toSecond e.start = t) ∧
      ∀ error, (c, error) ∈ probes.lastUpdateError ↔
        c ∈ existingIds table ∧
          ∃ e, (toldEvents c events).getLast? = some e ∧
            failureOf e ≠ none ∧ failureOf e = error := by
  have hordered : ∀ c, ∃ bound, Journal.Ordered bound
      (entriesOf c (events.foldl (record connectorOf) [])) :=
    fun c => ordered_of_run h c
  obtain ⟨bound, hc⟩ := hordered c
  intro probes
  have hprobes := foldl_addProbes hordered (existingIds table) emptyProbes
  rw [← getProbesByContributor] at hprobes
  simp only [probes, hprobes, emptyProbes, List.nil_append, mem_flatMap_paired]
  refine ⟨fun t => and_congr_right' ?_, fun t => and_congr_right' ?_,
    fun error => and_congr_right' ?_⟩
  · have hlast := congrArg (Option.map toSecond) (getLast?_last h c)
    rw [Option.map_map] at hlast
    rw [lastUpdateOf_eq hc]
    refine (Eq.congr_left hlast).trans ?_
    split
    · rename_i hnil
      simp [hnil]
    · rename_i htold
      simp [htold]
  · have hopened := Journal.opened_run
      (P := fun content : FeedContent => content.status == .ok)
      (entriesOf c [])
      (fun r (hr : r ∈ reportsOf c events) _ => not_valid_of_repeated hr)
    rw [← entriesOf_run h, reportsOf, filterMap_opening] at hopened
    rw [lastValidUpdateOf_eq hc, hopened]
    simp [Journal.opened, entriesOf]
  · have hcontent := getLast?_content h c
    rw [lastUpdateErrorOf_eq hc]
    generalize (entriesOf c
      (events.foldl (record connectorOf) [])).getLast?.map Entry.content = last
      at hcontent ⊢
    generalize (toldEvents c events).getLast? = told at hcontent ⊢
    cases hcontent with
    | none =>
        simp
    | @some content e hsame =>
        obtain ⟨herror, hstatus⟩ := hsame
        by_cases hvalid : failureOf e = none
        · simp [hstatus.2 hvalid, hvalid]
        · have hko : content.status ≠ .ok := fun hok => hvalid (hstatus.1 hok)
          simp [Option.filter_some, hko, hvalid, herror]

end Polls

namespace Sample

/-- A contributor that is active. -/
def activeTable : ContributorTable where
  rows :=
    [{ id := "realtime.sherbrooke"
       navitiaCoverage := "ca-qc-sherbrooke"
       navitiaToken := none
       feedUrl := some "http://0.0.0.0/civilia/tripUpdates.pb"
       connectorType := .gtfsRt
       retrievalInterval := some 10
       isActive := true
       brokerUrl := none
       exchangeName := none
       queueName := none
       nbDaysToKeepTripUpdate := 3
       nbDaysToKeepRtUpdate := 30 }]
  uniqueId := by decide

end Sample

/-- A valid feed and two errors after it. -/
theorem probes_of_run_twoErrors :
    ("realtime.sherbrooke", 21 * Core.second) ∈
        (getProbesByContributor Sample.activeTable
          (Kirin.Sample.twoErrors.foldl (record fun _ => .gtfsRt)
            [])).lastUpdate ∧
      ("realtime.sherbrooke", some (.text "Http Error")) ∈
        (getProbesByContributor Sample.activeTable
          (Kirin.Sample.twoErrors.foldl (record fun _ => .gtfsRt)
            [])).lastUpdateError := by
  have hprobes := probes_of_run Sample.activeTable
    Kirin.Sample.scheduled_twoErrors "realtime.sherbrooke"
  refine ⟨(hprobes.1 _).2 ⟨by decide, by decide, _, rfl, by decide⟩,
    (hprobes.2.2 _).2 ⟨by decide, _, rfl, by decide, by decide⟩⟩

end Resources
end Kirin
