import Kirin.Core.FeedOutcome
import Kirin.GtfsRt.Tasks
import Kirin.Library.Runs
import Mathlib.Data.List.Induction

/-!
# Kirin: what the remembered ETag stands for

The ETag of a feed is remembered before the feed is retrieved and processed, and
forgotten by some of the failures only.  A poll that remembers an ETag has to
complete, or to forget it.

* `Poll.recovers`: the failures of a poll that leave nothing remembered.
* `recovers_iff`: they are exactly those after which the poll has completed or
  its ETag is forgotten.
* `gtfsPoller_remembered`: what a poll leaves remembered.
* `skipped_feed_processed`: along runs whose polls recover, a feed that is
  skipped has been processed.
* `wrapBuildEtag_of_feed`: `wrapBuildFeed` ends as the poller says.
-/

namespace Kirin
namespace GtfsRt

open Kirin.Core

/-- The processing returned, or raised because the input is invalid. -/
def PollResult.completed : PollResult → Bool
  | .processed .returned => true
  | .processed (.raised e) => isInvalidInputException e
  | _ => false

/-- A poll of the run has read an ETag and completed. -/
def ProcessedBy (polls : List Poll) (etag : String) : Prop :=
  ∃ before q after, polls = before ++ q :: after ∧
    q.head = .answered (some etag) ∧
    (gtfsPoller q (pollAll none before)).2.completed = true

/-- Every poll that is skipped comes after one that has processed its ETag. -/
def NoFeedLost (polls : List Poll) : Prop :=
  ∀ before p after etag, polls = before ++ p :: after →
    (gtfsPoller p (pollAll none before)).2 = .sameEtag etag →
    ProcessedBy before etag

/-- Nothing stops the poll before its HEAD request. -/
def Poll.starts (p : Poll) : Bool :=
  p.locked && p.hasFeedUrl && !p.isLastCallTooRecent

/-- The poll goes on, with an ETag that it has just remembered. -/
def Remembers (memory : EtagMemory) (p : Poll) : Prop :=
  p.starts = true ∧ (isNewer p memory).2 = none ∧ (isNewer p memory).1 ≠ memory

instance (memory : EtagMemory) (p : Poll) : Decidable (Remembers memory p) :=
  inferInstanceAs (Decidable (_ ∧ _))

/-- The processing completes, or gets to forget the ETag. -/
def WrapBuildAnswers.recovers (a : WrapBuildAnswers) : Bool :=
  match a.buildRtUpdate with
  | .error _ => a.deleteEtag
  | .ok () =>
      match a.buildTripUpdates >>= fun _ => a.handle with
      | .ok () => true
      | .error e => if isInvalidInputException e then a.commit else a.deleteEtag

/--
The builder is constructed and the processing recovers, or the HTTP error is
stored and the ETag forgotten.
-/
def Poll.recovers (p : Poll) : Bool :=
  if p.retrieveGtfsrt then p.makeBuilder && p.wrapBuild.recovers
  else p.saveError && p.deleteEtag

section Step

variable {p : Poll} {a : WrapBuildAnswers} {memory : EtagMemory} {etag : String}

theorem isNewer_cases
    (p : Poll) (memory : EtagMemory) :
    isNewer p memory = (memory, none) ∨
      ∃ etag, p.head = .answered (some etag) ∧
        (isNewer p memory = (memory, some etag) ∧ memory = some etag ∨
          isNewer p memory = (some etag, none) ∧ memory ≠ some etag) := by
  unfold isNewer
  split
  · exact Or.inl rfl
  · exact Or.inl rfl
  · rename_i newEtag hhead
    split
    · exact Or.inl rfl
    · split
      · exact Or.inl rfl
      · split
        · rename_i hsame
          exact Or.inr ⟨newEtag, hhead, Or.inl ⟨rfl, hsame⟩⟩
        · rename_i hnew
          split
          · exact Or.inl rfl
          · exact Or.inr ⟨newEtag, hhead, Or.inr ⟨rfl, hnew⟩⟩

theorem allowReprocessSameData_eq_or
    (deleteEtag : Bool) (memory : EtagMemory) :
    (allowReprocessSameData deleteEtag memory).1 = memory ∨
      (allowReprocessSameData deleteEtag memory).1 = none := by
  cases deleteEtag with
  | false =>
      exact Or.inl rfl
  | true =>
      exact Or.inr rfl

theorem manageDbError_eq_or
    (p : Poll) (memory : EtagMemory) :
    manageDbError p memory = memory ∨ manageDbError p memory = none := by
  unfold manageDbError
  split
  · exact allowReprocessSameData_eq_or p.deleteEtag memory
  · exact Or.inl rfl

theorem wrapBuildEtag_eq_or
    (a : WrapBuildAnswers) (memory : EtagMemory) :
    (wrapBuildEtag a memory).1 = memory ∨ (wrapBuildEtag a memory).1 = none := by
  have hdeleted := allowReprocessSameData_eq_or a.deleteEtag memory
  unfold wrapBuildEtag
  cases a.buildRtUpdate with
  | error e =>
      exact hdeleted
  | ok u =>
      simp only
      cases a.buildTripUpdates >>= fun _ => a.handle with
      | ok v =>
          exact Or.inl rfl
      | error e =>
          simp only
          split
          · exact Or.inl rfl
          · exact hdeleted

/-- An HTTP error leaves the ETag forgotten when it is stored and deleted. -/
theorem manageDbError_eq_none_iff
    (p : Poll) (etag : String) :
    manageDbError p (some etag) ≠ some etag ↔
      (p.saveError && p.deleteEtag) = true := by
  unfold manageDbError allowReprocessSameData
  cases p.saveError <;> cases p.deleteEtag <;> simp

/-- The exits of the processing that complete, or leave the ETag forgotten. -/
theorem wrapBuildEtag_recovers_iff
    (a : WrapBuildAnswers) (etag : String) :
    ((PollResult.processed (wrapBuildEtag a (some etag)).2).completed = true ∨
      (wrapBuildEtag a (some etag)).1 ≠ some etag) ↔ a.recovers = true := by
  unfold wrapBuildEtag WrapBuildAnswers.recovers allowReprocessSameData
  cases a.buildRtUpdate with
  | error e =>
      cases a.deleteEtag <;> simp [PollResult.completed]
  | ok u =>
      simp only
      cases a.buildTripUpdates >>= fun _ => a.handle with
      | ok v =>
          simp [PollResult.completed]
      | error e =>
          cases hinvalid : isInvalidInputException e with
          | true =>
              cases a.commit <;> simp [PollResult.completed, hinvalid]
          | false =>
              cases a.deleteEtag <;> cases a.commit <;>
                simp [PollResult.completed, hinvalid]

/--
A poll that remembers an ETag recovers exactly when it completes or forgets this
ETag again: otherwise the feed is skipped from then on.
-/
theorem recovers_iff
    (hremembers : Remembers memory p) (hhead : p.head = .answered (some etag)) :
    ((gtfsPoller p memory).2.completed = true ∨
      (gtfsPoller p memory).1 ≠ some etag) ↔ p.recovers = true := by
  obtain ⟨hstarts, hgoes, hnew⟩ := hremembers
  have hnewer : isNewer p memory = (some etag, none) := by
    rcases isNewer_cases p memory with hsame | ⟨etag', hhead', hsame | hnext⟩
    · exact absurd (by rw [hsame]) hnew
    · rw [hsame.1] at hgoes
      cases hgoes
    · rw [hhead] at hhead'
      cases hhead'
      exact hnext.1
  have hstops : (!p.locked || !p.hasFeedUrl || p.isLastCallTooRecent) = false := by
    simpa [Poll.starts, and_assoc] using hstarts
  simp only [gtfsPoller, hstops, hnewer, Bool.false_eq_true, if_false,
    Poll.recovers]
  cases p.retrieveGtfsrt with
  | false =>
      simpa [PollResult.completed] using manageDbError_eq_none_iff p etag
  | true =>
      cases p.makeBuilder with
      | false =>
          simp [PollResult.completed]
      | true =>
          simpa using wrapBuildEtag_recovers_iff p.wrapBuild etag

/--
An ETag that is remembered after a poll was remembered before, or is that of the
feed that this poll has processed.
-/
theorem gtfsPoller_remembered
    (hrecovers : Remembers memory p → p.recovers = true)
    (hetag : (gtfsPoller p memory).1 = some etag) :
    memory = some etag ∨
      p.head = .answered (some etag) ∧
        (gtfsPoller p memory).2.completed = true := by
  cases hstops : !p.locked || !p.hasFeedUrl || p.isLastCallTooRecent with
  | true =>
      rw [gtfsPoller, if_pos hstops] at hetag
      exact Or.inl hetag
  | false =>
      -- what follows the comparison keeps the memory or forgets it
      have hkept : ∀ memory', isNewer p memory = (memory', none) →
          memory' = some etag := by
        intro memory' hnewer
        simp only [gtfsPoller, hstops, hnewer, Bool.false_eq_true,
          if_false] at hetag
        split at hetag
        · rcases manageDbError_eq_or p memory' with h | h
          · exact h ▸ hetag
          · rw [h] at hetag
            cases hetag
        · split at hetag
          · exact hetag
          · rcases wrapBuildEtag_eq_or p.wrapBuild memory' with h | h
            · exact h ▸ hetag
            · rw [h] at hetag
              cases hetag
      rcases isNewer_cases p memory with
        hsame | ⟨etag', hhead, ⟨hsame, hmemory⟩ | ⟨hnewer, hnew⟩⟩
      · exact Or.inl (hkept memory hsame)
      · simp only [gtfsPoller, hstops, hsame, Bool.false_eq_true,
          if_false] at hetag
        exact Or.inl hetag
      · have heq : etag' = etag := Option.some.inj (hkept (some etag') hnewer)
        subst heq
        have hremembers : Remembers memory p := by
          refine ⟨?_, by rw [hnewer], by rw [hnewer]; exact hnew.symm⟩
          simpa [Poll.starts, and_assoc] using hstops
        have hdone := (recovers_iff hremembers hhead).2 (hrecovers hremembers)
        exact Or.inr ⟨hhead, hdone.resolve_right (fun hne => hne hetag)⟩

/-- A poll that is skipped has read the remembered ETag. -/
theorem memory_of_sameEtag
    (h : (gtfsPoller p memory).2 = .sameEtag etag) :
    memory = some etag := by
  unfold gtfsPoller at h
  split at h
  · cases h
  · rcases isNewer_cases p memory with
      hsame | ⟨etag', -, ⟨hsame, hmemory⟩ | ⟨hnewer, -⟩⟩
    · rw [hsame] at h
      simp only at h
      split at h
      · cases h
      · split at h <;> cases h
    · rw [hsame] at h
      cases h
      exact hmemory
    · rw [hnewer] at h
      simp only at h
      split at h
      · cases h
      · split at h <;> cases h

end Step

section Run

variable {polls : List Poll}

theorem ProcessedBy.append
    {etag : String} (h : ProcessedBy polls etag) (later : List Poll) :
    ProcessedBy (polls ++ later) etag := by
  obtain ⟨before, q, after, rfl, hq⟩ := h
  exact ⟨before, q, after ++ later, by simp, hq⟩

/-- What is remembered after a run of polls that recover has been processed. -/
theorem pollAll_processed
    (hrecovers : Runs.Along (fun memory p => (gtfsPoller p memory).1)
      (fun memory p => Remembers memory p → p.recovers = true) none polls) :
    ∀ etag, pollAll none polls = some etag → ProcessedBy polls etag := by
  induction polls using List.reverseRecOn with
  | nil =>
      intro etag hetag
      cases hetag
  | append_singleton polls p ih =>
      intro etag hetag
      obtain ⟨hbefore, hlast, -⟩ := Runs.along_append.1 hrecovers
      rw [pollAll, List.foldl_append] at hetag
      rcases gtfsPoller_remembered hlast hetag with hold | ⟨hhead, hdone⟩
      · exact (ih hbefore etag hold).append [p]
      · exact ⟨polls, p, [], rfl, hhead, hdone⟩

/--
Along a run whose polls recover whenever they remember an ETag, a poll is skipped
only after one that has processed the ETag it reads.
-/
theorem skipped_feed_processed
    (hrecovers : Runs.Along (fun memory p => (gtfsPoller p memory).1)
      (fun memory p => Remembers memory p → p.recovers = true) none polls) :
    NoFeedLost polls := by
  rintro before p after etag rfl hskipped
  exact pollAll_processed (Runs.along_append.1 hrecovers).1 etag
    (memory_of_sameEtag hskipped)

/--
A feed that cannot be retrieved at first is processed by the next poll, and
skipped by the one after.
-/
theorem skipped_feed_processed_retrieved :
    NoFeedLost
      [{ Sample.poll "1" with retrieveGtfsrt := false }, Sample.poll "1",
        Sample.poll "1"] :=
  skipped_feed_processed (by decide)

/-- A feed is skipped although its builder could not be constructed. -/
theorem skipped_feed_unprocessed :
    ¬ NoFeedLost
      [{ Sample.poll "1" with makeBuilder := false }, Sample.poll "1"] := by
  intro h
  obtain ⟨before, q, after, heq, -, hdone⟩ :=
    h [{ Sample.poll "1" with makeBuilder := false }] (Sample.poll "1") [] "1"
      rfl (by decide)
  rcases before with _ | ⟨p, before⟩
  · cases heq
    revert hdone
    decide
  · simp at heq

end Run

section Feed

variable {b : Builder} {network : Network} {db : Db} {rtu : RealTimeUpdate}
variable {build : List TripUpdate → Except PyException BuiltFeed}

/--
What happens in `wrap_build` when a feed is processed: the contributor of the
feed cannot be read any more when the session has failed.
-/
def answersOf
    (b : Builder) (network : Network) (db : Db) (rtu : RealTimeUpdate)
    (build : List TripUpdate → Except PyException BuiltFeed) :
    WrapBuildAnswers :=
  match build db.tripUpdates with
  | .error e =>
      { buildRtUpdate := .ok ()
        buildTripUpdates := .error e
        handle := .ok ()
        deleteEtag := network.redisUp
        commit := decide (setRtuStatusKo rtu (errorOf e)).ErrorFits }
  | .ok built =>
      let result := handle b network.brokerUp (db.saveRtu rtu) (built.mark rtu)
        built.tripUpdates
      let recorded := recordFailure network.redisUp (built.mark rtu) result
      { buildRtUpdate := .ok ()
        buildTripUpdates := .ok ()
        handle := result.outcome.map (fun _ => ())
        deleteEtag := decide (result.session ≠ .failed) && network.redisUp
        commit := decide (recorded.session = .clean) }

/--
The processing of a feed ends as the poller says.  It raises again when its
failure can neither be recorded nor be forgotten by Redis.
-/
def EndsAs (network : Network) (result : HandleResult) : WrapBuildResult → Prop
  | .returned => result.outcome.isOk = true
  | .raised e => result.session = .clean ∧ result.outcome = .error e
  | .raisedAgain =>
      result.outcome.isOk = false ∧
        (result.session = .failed ∨ network.redisUp = false)

/-- The processing of a feed ends as the poller says, from what happens in it. -/
theorem wrapBuildEtag_of_feed
    (memory : EtagMemory) :
    EndsAs network (wrapBuildFeed b network db rtu build)
      (wrapBuildEtag (answersOf b network db rtu build) memory).2 := by
  rw [wrapBuildFeed, Db.saveRtu_tripUpdates]
  cases hbuild : build db.tripUpdates with
  | error e =>
      simp only [answersOf, hbuild, wrapBuildEtag, recordFailure, bind,
        Except.bind, allowReprocessSameData]
      cases isInvalidInputException e <;> cases hredis : network.redisUp <;>
        by_cases hfits : (setRtuStatusKo rtu (errorOf e)).ErrorFits <;>
          simp [hredis, hfits, EndsAs, Except.isOk, Except.toBool]
  | ok built =>
      simp only [answersOf, hbuild, wrapBuildEtag]
      generalize handle b network.brokerUp (db.saveRtu rtu) (built.mark rtu)
        built.tripUpdates = result
      rcases result with ⟨db1, published, session, outcome⟩
      cases outcome with
      | ok rtu' =>
          rfl
      | error e =>
          simp only [bind, Except.bind, Except.map, allowReprocessSameData,
            recordFailure]
          cases session with
          | failed =>
              cases isInvalidInputException e <;>
                simp [EndsAs, Except.isOk, Except.toBool]
          | clean =>
              cases isInvalidInputException e <;>
                cases hredis : network.redisUp <;>
                by_cases hfits :
                  (setRtuStatusKo (built.mark rtu) (errorOf e)).ErrorFits <;>
                simp [hredis, hfits, EndsAs, Except.isOk, Except.toBool]
          | dirty s =>
              cases hcommit : dbCommit db1 s
                  (setRtuStatusKo (built.mark rtu) (errorOf e)) <;>
                cases isInvalidInputException e <;>
                cases hredis : network.redisUp <;>
                simp [hredis, hcommit, EndsAs, Except.isOk, Except.toBool]

end Feed

end GtfsRt
end Kirin
