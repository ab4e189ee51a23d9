import Kirin.Core.MergeRaises
import Kirin.Core.RetryPublication

/-!
# Kirin: the exits of the processing of a feed

`wrapBuildFeed` stores the `RealTimeUpdate` of a feed, builds its trip updates,
handles them and records the failure of any of these steps.  Each way out has a
case of `FeedOutcome`, with the session the loop has left and what the commits
have written.

* `RejectedOutcome`, `InterruptedOutcome`, `ReturnedOutcome`: the exits of a feed
  that cannot be built, of one whose loop raises, and of the other ones.
* `wrapBuildFeed_outcome`: the processing of a feed takes one of these exits.
* `FeedOutcome.rows`: the trip updates and the links are those of the session of
  the loop, or those of before.
* `FeedOutcome.mem_otherFeeds`: the rows of the other feeds are left.
* `FeedOutcome.committed`: a feed that leaves the session clean has committed.
* `ReturnedOutcome.session`: the session is left clean when it fits the database.
* `mem_putRtu`, `mem_putRtu_of_ne`: the `RealTimeUpdate` that is stored.
* `FeedOutcome.of_published`: what is published is linked to the feed.
-/

namespace Kirin
namespace Core

section PutRtu

variable {rtus : List RealTimeUpdate} {rtu row : RealTimeUpdate}

/-- Storing a feed leaves the other ones as they are. -/
theorem mem_putRtu_of_ne
    (hne : row.id ≠ rtu.id) :
    row ∈ putRtu rtus rtu ↔ row ∈ rtus := by
  have hrow : row ≠ rtu := by
    rintro rfl
    exact hne rfl
  unfold putRtu
  split
  · rw [List.mem_map]
    constructor
    · rintro ⟨r, hr, heq⟩
      split at heq
      · exact absurd heq.symm hrow
      · exact heq ▸ hr
    · intro hmem
      exact ⟨row, hmem, if_neg hne⟩
  · simp [hrow]

/-- A feed that is stored is the only one of its identifier. -/
theorem mem_putRtu
    (hid : row.id = rtu.id) :
    row ∈ putRtu rtus rtu ↔ row = rtu := by
  unfold putRtu
  split
  · rename_i hany
    rw [List.mem_map]
    constructor
    · rintro ⟨r, hr, heq⟩
      split at heq
      · exact heq.symm
      · rename_i hne
        exact absurd (heq ▸ hid) hne
    · rintro rfl
      obtain ⟨r, hr, heq⟩ := List.any_eq_true.1 hany
      exact ⟨r, hr, if_pos (by simpa using heq)⟩
  · rename_i hany
    have hno : row ∉ rtus := by
      intro hmem
      exact hany (List.any_eq_true.2 ⟨row, hmem, by simpa using hid⟩)
    simp [hno]

theorem of_mem_putRtu
    (h : row ∈ putRtu rtus rtu) :
    row = rtu ∨ row ∈ rtus := by
  by_cases hid : row.id = rtu.id
  · exact Or.inl ((mem_putRtu hid).1 h)
  · exact Or.inr ((mem_putRtu_of_ne hid).1 h)

end PutRtu

@[simp] theorem Db.saveRtu_associations
    (db : Db) (rtu : RealTimeUpdate) :
    (db.saveRtu rtu).associations = db.associations :=
  rfl

@[simp] theorem Db.saveRtu_realTimeUpdates
    (db : Db) (rtu : RealTimeUpdate) :
    (db.saveRtu rtu).realTimeUpdates = putRtu db.realTimeUpdates rtu :=
  rfl

@[simp] theorem setRtuStatusKo_id
    (rtu : RealTimeUpdate) (error : RtuError) :
    (setRtuStatusKo rtu error).id = rtu.id :=
  rfl

@[simp] theorem BuiltFeed.mark_id
    (built : BuiltFeed) (rtu : RealTimeUpdate) :
    (built.mark rtu).id = rtu.id := by
  unfold BuiltFeed.mark
  split <;> rfl

/-- A feed as another one, whatever they are marked with. -/
structure SameFeed (rtu rtu' : RealTimeUpdate) : Prop where
  id : rtu'.id = rtu.id
  connector : rtu'.connector = rtu.connector
  contributorId : rtu'.contributorId = rtu.contributorId

theorem SameFeed.refl
    (rtu : RealTimeUpdate) :
    SameFeed rtu rtu :=
  ⟨rfl, rfl, rfl⟩

theorem SameFeed.ko
    {rtu rtu' : RealTimeUpdate} {error : RtuError} (h : SameFeed rtu rtu') :
    SameFeed rtu (setRtuStatusKo rtu' error) :=
  ⟨h.id, h.connector, h.contributorId⟩

theorem sameFeed_mark
    {rtu : RealTimeUpdate} (built : BuiltFeed) :
    SameFeed rtu (built.mark rtu) := by
  unfold BuiltFeed.mark
  split
  · exact SameFeed.refl rtu
  · exact (SameFeed.refl rtu).ko

/-- A commit stores the feed it is given. -/
theorem dbCommit_realTimeUpdates
    {db db1 : Db} {s : Session} {rtu : RealTimeUpdate}
    (h : dbCommit db s rtu = .ok db1) :
    db1.realTimeUpdates = putRtu db.realTimeUpdates rtu := by
  simp only [dbCommit] at h
  split at h
  · split at h
    · split at h
      · cases h
        rfl
      · cases h
    · cases h
  · cases h

/-- Of the feed, a commit only checks the identifier and the error. -/
theorem FitsDatabase.congr
    {db : Db} {s : Session} {rtu rtu' : RealTimeUpdate}
    (h : FitsDatabase db rtu s) (hid : rtu.id = rtu'.id)
    (herror : rtu'.ErrorFits) :
    FitsDatabase db rtu' s where
  ids := h.ids
  keys := h.keys
  links := hid ▸ h.links
  effects := h.effects
  texts := h.texts
  error := herror

section Exceptions

open Checked

/-- What is not an exception of Kirin is recorded whatever its text. -/
theorem errorOf_takenByDriver
    {e : PyException} (h : isKirinException e = false) :
    (errorOf e).takenByDriver = true ∧ isInvalidInputException e = false := by
  cases e with
  | messageNotPublished => cases h
  | invalidArguments detail => cases h
  | objectNotFound detail => cases h
  | unsupportedValue detail => cases h
  | _ => exact ⟨rfl, rfl⟩

theorem mapM_crashes
    {α β : Type} {f : α → Except PyException β} (h : ∀ a, Crashes (f a))
    (as : List α) :
    Crashes (as.mapM f) := by
  induction as with
  | nil =>
      rw [List.mapM_nil]
      exact raisesOnly_pure _ _
  | cons a as ih =>
      rw [List.mapM_cons]
      exact raisesOnly_bind.2
        ⟨h a, fun b _ => raisesOnly_bind.2
          ⟨ih, fun bs _ => raisesOnly_pure _ _⟩⟩

theorem pbDelay_crashes
    (delay : Option Timedelta) :
    Crashes (pbDelay delay) := by
  unfold pbDelay
  simp only
  split
  · exact raisesOnly_ok _ _
  · exact raisesOnly_error.2 rfl

/-- The encoding raises no exception of Kirin. -/
theorem convertToGtfsrt_crashes
    (rows : List TripUpdate) :
    Crashes (convertToGtfsrt rows) := by
  refine mapM_crashes (fun row => raisesOnly_bind.2 ⟨?_, fun pb _ => ?_⟩) rows
  · refine raisesOnly_bind.2 ⟨?_, fun effect _ => raisesOnly_bind.2
      ⟨?_, fun date _ => raisesOnly_bind.2
        ⟨mapM_crashes (fun st => ?_) _, fun stus _ => raisesOnly_pure _ _⟩⟩⟩
    · unfold pbEffect
      split
      · exact raisesOnly_ok _ _
      · split
        · exact raisesOnly_ok _ _
        · exact raisesOnly_error.2 rfl
    · unfold dateToStr
      split
      · exact raisesOnly_ok _ _
      · exact raisesOnly_error.2 rfl
    · exact raisesOnly_bind.2 ⟨pbDelay_crashes _, fun arrival _ =>
        raisesOnly_bind.2 ⟨pbDelay_crashes _, fun departure _ =>
          raisesOnly_pure _ _⟩⟩
  · exact raisesOnly_pure _ _

/-- Neither does the loop over the trip updates of a feed. -/
theorem handleLoop_crashes
    {b : Builder} {s s' : Session} {ts : List NewTripUpdate} {e : PyException}
    (h : handleLoop b s ts = (s', .error e)) :
    isKirinException e = false := by
  induction ts generalizing s with
  | nil =>
      cases h
  | cons t rest ih =>
      simp only [handleLoop] at h
      split at h
      · exact ih h
      · rename_i s1 e' hone
        cases h
        have houtcome := handleTripUpdate_outcome b s t
        rw [hone] at houtcome
        split at houtcome
        · rename_i e' hlinked
          cases houtcome
          exact processTripUpdate_crashes hlinked
        · cases houtcome

end Exceptions

/-- The exits of a feed whose trip updates cannot be built. -/
inductive RejectedOutcome
    (network : Network) (db : Db) (rtu : RealTimeUpdate) (e : PyException) :
    HandleResult → Prop
  /-- The failure is recorded. -/
  | recorded
      (hforgotten : isInvalidInputException e = true ∨ network.redisUp = true)
      (htaken : (errorOf e).takenByDriver = true) :
      RejectedOutcome network db rtu e
        { db := db.saveRtu (setRtuStatusKo rtu (errorOf e)), published := none
          session := .clean, outcome := .error e }
  /-- Redis does not forget the feed. -/
  | unforgotten
      (hvalid : isInvalidInputException e = false)
      (hredis : network.redisUp = false) :
      RejectedOutcome network db rtu e
        { db := db, published := none, session := .clean
          outcome := .error .connectionError }
  /-- The driver refuses the error. -/
  | refused
      (hforgotten : isInvalidInputException e = true ∨ network.redisUp = true)
      (hrefused : (errorOf e).takenByDriver = false) :
      RejectedOutcome network db rtu e
        { db := db, published := none, session := .failed
          outcome := .error .valueError }

/-- The exits of a feed, as it is marked, that a merge interrupts. -/
inductive InterruptedOutcome
    (network : Network) (db : Db) (rtu : RealTimeUpdate) (s : Session)
    (e : PyException) : HandleResult → Prop
  /-- Redis does not forget the feed. -/
  | pending
      (hredis : network.redisUp = false) :
      InterruptedOutcome network db rtu s e
        { db := db, published := none, session := .dirty s
          outcome := .error .connectionError }
  /-- What is in the session is committed. -/
  | committed
      (db1 : Db)
      (hredis : network.redisUp = true)
      (hcommit : dbCommit db s (setRtuStatusKo rtu (errorOf e)) = .ok db1) :
      InterruptedOutcome network db rtu s e
        { db := db1, published := none, session := .clean
          outcome := .error e }
  /-- What is in the session cannot be committed. -/
  | lost
      (e' : PyException)
      (hredis : network.redisUp = true)
      (hcommit : dbCommit db s (setRtuStatusKo rtu (errorOf e)) = .error e') :
      InterruptedOutcome network db rtu s e
        { db := db, published := none, session := .failed
          outcome := .error e' }

/-- The exits of a feed, as it is marked, whose loop returns. -/
inductive ReturnedOutcome
    (b : Builder) (network : Network) (db : Db) (rtu : RealTimeUpdate)
    (s : Session) : HandleResult → Prop
  /-- The merged trip updates cannot be committed. -/
  | uncommitted
      (e : PyException)
      (hcommit : dbCommit db s rtu = .error e) :
      ReturnedOutcome b network db rtu s
        { db := db, published := none, session := .failed
          outcome := .error .invalidRequestError }
  /-- The trip updates are committed, but cannot be converted or published. -/
  | unpublished
      (db1 : Db) (e : PyException)
      (hcommit : dbCommit db s rtu = .ok db1)
      (hredis : network.redisUp = true) :
      ReturnedOutcome b network db rtu s
        { db := db1.saveRtu (setRtuStatusKo rtu (errorOf e))
          published := none, session := .clean, outcome := .error e }
  /-- Besides, Redis does not forget the feed. -/
  | unmarked
      (db1 : Db)
      (hcommit : dbCommit db s rtu = .ok db1)
      (hredis : network.redisUp = false)
      (hunsent : network.brokerUp = true → ∀ entities,
        convertToGtfsrt (db1.tripUpdatesOf rtu) ≠ .ok entities) :
      ReturnedOutcome b network db rtu s
        { db := db1, published := none, session := .clean
          outcome := .error .connectionError }
  /-- The feed is published without any trip update. -/
  | publishedNothing
      (db1 : Db) (entities : List Entity)
      (hcommit : dbCommit db s rtu = .ok db1)
      (hpb : convertToGtfsrt (db1.tripUpdatesOf rtu) = .ok entities)
      (hempty : db1.tripUpdatesOf rtu = [])
      (hstatus : rtu.status = .ok)
      (hbroker : network.brokerUp = true) :
      ReturnedOutcome b network db rtu s
        { db := db1.saveRtu
            (setRtuStatusKo rtu (.text (noNewInformation rtu.connector)))
          published :=
            some { contributorId := b.contributorId, entities := entities }
          session := .clean
          outcome := .ok
            (setRtuStatusKo rtu (.text (noNewInformation rtu.connector))) }
  /-- The feed is published. -/
  | published
      (db1 : Db) (entities : List Entity)
      (hcommit : dbCommit db s rtu = .ok db1)
      (hpb : convertToGtfsrt (db1.tripUpdatesOf rtu) = .ok entities)
      (hlinked : db1.tripUpdatesOf rtu ≠ [] ∨ rtu.status ≠ .ok)
      (hbroker : network.brokerUp = true) :
      ReturnedOutcome b network db rtu s
        { db := db1
          published :=
            some { contributorId := b.contributorId, entities := entities }
          session := .clean, outcome := .ok rtu }

/--
The exits of the processing of a feed, from the database where its
`RealTimeUpdate` has just been stored.
-/
inductive FeedOutcome
    (b : Builder) (network : Network) (db : Db) (rtu : RealTimeUpdate)
    (build : Except PyException BuiltFeed) (result : HandleResult) : Prop
  | rejected
      (e : PyException)
      (hbuild : build = .error e)
      (hexit : RejectedOutcome network db rtu e result)
  | interrupted
      (built : BuiltFeed) (s : Session) (e : PyException)
      (hbuild : build = .ok built)
      (hloop : handleLoop b db.session built.tripUpdates = (s, .error e))
      (hexit : InterruptedOutcome network db (built.mark rtu) s e result)
  | returned
      (built : BuiltFeed) (s : Session)
      (hbuild : build = .ok built)
      (hloop : handleLoop b db.session built.tripUpdates = (s, .ok ()))
      (hexit : ReturnedOutcome b network db (built.mark rtu) s result)

section Cases

variable {b : Builder} {network : Network} {db : Db} {rtu : RealTimeUpdate}

/-- A feed that cannot be built is recorded, not forgotten, or refused. -/
theorem recordFailure_rejected
    (e : PyException) :
    RejectedOutcome network db rtu e
      (recordFailure network.redisUp rtu
        { db := db, published := none, session := .clean
          outcome := .error e }) := by
  simp only [recordFailure, Bool.and_eq_true, Bool.not_eq_true',
    setRtuStatusKo_errorFits]
  split
  · rename_i hunforgotten
    exact RejectedOutcome.unforgotten hunforgotten.1 hunforgotten.2
  · rename_i hforgotten
    rw [not_and_or, Bool.not_eq_false, Bool.not_eq_false] at hforgotten
    split
    · rename_i htaken
      exact RejectedOutcome.recorded hforgotten htaken
    · rename_i hrefused
      exact RejectedOutcome.refused hforgotten (Bool.not_eq_true _ ▸ hrefused)

/-- What a merge that raises leaves is committed once Redis forgets the feed. -/
theorem recordFailure_raises
    {s : Session} {e : PyException} (hcrash : isKirinException e = false) :
    InterruptedOutcome network db rtu s e
      (recordFailure network.redisUp rtu
        { db := db, published := none, session := .dirty s
          outcome := .error e }) := by
  have hvalid := (errorOf_takenByDriver hcrash).2
  simp only [recordFailure, hvalid, Bool.not_false, Bool.true_and,
    Bool.not_eq_true']
  cases hredis : network.redisUp with
  | false =>
      exact InterruptedOutcome.pending hredis
  | true =>
      cases hcommit : dbCommit db s (setRtuStatusKo rtu (errorOf e)) with
      | error e' =>
          exact InterruptedOutcome.lost e' hredis hcommit
      | ok db1 =>
          exact InterruptedOutcome.committed db1 hredis hcommit

/-- A feed that is committed but not sent is set to KO if Redis forgets it. -/
theorem recordFailure_unsent
    {s : Session} {db1 : Db} {e : PyException}
    (hcommit : dbCommit db s rtu = .ok db1)
    (htaken : (errorOf e).takenByDriver = true)
    (hvalid : isInvalidInputException e = false)
    (hunsent : network.brokerUp = true → ∀ entities,
      convertToGtfsrt (db1.tripUpdatesOf rtu) ≠ .ok entities) :
    ReturnedOutcome b network db rtu s
      (recordFailure network.redisUp rtu
        { db := db1, published := none, session := .clean
          outcome := .error e }) := by
  simp only [recordFailure, hvalid, Bool.not_false, Bool.true_and,
    Bool.not_eq_true', setRtuStatusKo_errorFits, htaken, if_true]
  cases hredis : network.redisUp with
  | false =>
      exact ReturnedOutcome.unmarked db1 hcommit hredis hunsent
  | true =>
      exact ReturnedOutcome.unpublished db1 e hcommit hredis

/-- The handling of a feed whose loop returns. -/
theorem recordFailure_returns
    {s : Session} {ts : List NewTripUpdate}
    (hloop : handleLoop b db.session ts = (s, .ok ())) :
    ReturnedOutcome b network db rtu s
      (recordFailure network.redisUp rtu
        (handle b network.brokerUp db rtu ts)) := by
  cases hcommit : dbCommit db s rtu with
  | error e =>
      simp only [handle, hloop, hcommit, recordFailure]
      exact ReturnedOutcome.uncommitted e hcommit
  | ok db1 =>
      cases hpb : convertToGtfsrt (db1.tripUpdatesOf rtu) with
      | error e =>
          obtain ⟨htaken, hvalid⟩ :=
            errorOf_takenByDriver (convertToGtfsrt_crashes _ e hpb)
          simp only [handle, hloop, hcommit, hpb]
          refine recordFailure_unsent hcommit htaken hvalid
            (fun _ entities => ?_)
          simp [hpb]
      | ok entities =>
          cases hbroker : network.brokerUp with
          | false =>
              simp only [handle, hloop, hcommit, hpb, Bool.not_false, if_true]
              refine recordFailure_unsent hcommit (by decide) rfl
                (fun hup => ?_)
              rw [hbroker] at hup
              cases hup
          | true =>
              simp only [handle, hloop, hcommit, hpb, Bool.not_true,
                Bool.false_eq_true, if_false, Bool.and_eq_true,
                List.isEmpty_iff, beq_iff_eq]
              split
              · rename_i hnothing
                exact ReturnedOutcome.publishedNothing db1 entities hcommit hpb
                  hnothing.1 hnothing.2 hbroker
              · rename_i hsome
                exact ReturnedOutcome.published db1 entities hcommit hpb
                  (Decidable.not_and_iff_or_not.1 hsome) hbroker

/-- The processing of a feed takes one of its exits. -/
theorem wrapBuildFeed_outcome
    (b : Builder) (network : Network) (db : Db) (rtu : RealTimeUpdate)
    (build : List TripUpdate → Except PyException BuiltFeed) :
    FeedOutcome b network (db.saveRtu rtu) rtu (build db.tripUpdates)
      (wrapBuildFeed b network db rtu build) := by
  simp only [wrapBuildFeed, Db.saveRtu_tripUpdates]
  cases hbuild : build db.tripUpdates with
  | error e =>
      exact FeedOutcome.rejected e rfl (recordFailure_rejected e)
  | ok built =>
      cases hloop : handleLoop b (db.saveRtu rtu).session built.tripUpdates with
      | mk s r =>
          cases r with
          | error e =>
              refine FeedOutcome.interrupted built s e rfl hloop ?_
              simp only [handle_raises hloop]
              exact recordFailure_raises (handleLoop_crashes hloop)
          | ok u =>
              exact FeedOutcome.returned built s rfl hloop
                (recordFailure_returns hloop)

end Cases

section Exits

variable {b : Builder} {network : Network} {db : Db} {rtu : RealTimeUpdate}
variable {build : Except PyException BuiltFeed} {result : HandleResult}
variable {s : Session}

/-- A commit that fails is that of a session that does not fit the database. -/
theorem not_fitsDatabase_of_error
    {e : PyException} (hcommit : dbCommit db s rtu = .error e) :
    ¬ FitsDatabase db rtu s := by
  intro hfits
  obtain ⟨db1, hok⟩ := dbCommit_ok_iff.2 hfits
  rw [hok] at hcommit
  cases hcommit

/-- A feed that cannot be built changes no trip update and publishes nothing. -/
theorem RejectedOutcome.unchanged
    {e : PyException} (h : RejectedOutcome network db rtu e result) :
    result.db.tripUpdates = db.tripUpdates ∧
      result.db.associations = db.associations ∧
      result.published = none ∧ result.outcome.isOk = false ∧
      ((errorOf e).takenByDriver = true → result.session = .clean) := by
  cases h with
  | recorded hforgotten htaken =>
      exact ⟨rfl, rfl, rfl, rfl, fun _ => rfl⟩
  | unforgotten hvalid hredis =>
      exact ⟨rfl, rfl, rfl, rfl, fun _ => rfl⟩
  | refused hforgotten hrefused =>
      exact ⟨rfl, rfl, rfl, rfl, by simp [hrefused]⟩

/-- A commit of the session is what an interrupted feed leaves, or nothing. -/
theorem InterruptedOutcome.rows
    {e : PyException} (h : InterruptedOutcome network db rtu s e result) :
    (result.db.tripUpdates = db.tripUpdates ∧
        result.db.associations = db.associations ∧
        result.session ≠ .clean) ∨
      result.db.tripUpdates = s.allRows ∧
        result.db.associations =
          db.associations ++ s.links.map (fun vjId => (rtu.id, vjId)) := by
  cases h with
  | pending hredis =>
      exact Or.inl ⟨rfl, rfl, nofun⟩
  | lost e' hredis hcommit =>
      exact Or.inl ⟨rfl, rfl, nofun⟩
  | committed db1 hredis hcommit =>
      have hrows := dbCommit_ok hcommit
      exact Or.inr hrows

theorem ReturnedOutcome.rows
    (h : ReturnedOutcome b network db rtu s result) :
    (result.db.tripUpdates = db.tripUpdates ∧
        result.db.associations = db.associations ∧
        result.session ≠ .clean) ∨
      result.db.tripUpdates = s.allRows ∧
        result.db.associations =
          db.associations ++ s.links.map (fun vjId => (rtu.id, vjId)) := by
  cases h with
  | uncommitted e hcommit =>
      exact Or.inl ⟨rfl, rfl, nofun⟩
  | unpublished db1 e hcommit hredis =>
      have hrows := dbCommit_ok hcommit
      exact Or.inr hrows
  | unmarked db1 hcommit hredis hunsent =>
      exact Or.inr (dbCommit_ok hcommit)
  | publishedNothing db1 entities hcommit hpb hempty hstatus hbroker =>
      have hrows := dbCommit_ok hcommit
      exact Or.inr hrows
  | published db1 entities hcommit hpb hlinked hbroker =>
      exact Or.inr (dbCommit_ok hcommit)

/--
The processing of a feed commits the session of its loop, or leaves the trip
updates and their links as they are; a feed that is built and leaves the session
clean has committed.
-/
theorem FeedOutcome.rows_cases
    (h : FeedOutcome b network db rtu build result) :
    (result.db.tripUpdates = db.tripUpdates ∧
        result.db.associations = db.associations ∧
        ∀ built, build = .ok built → result.session ≠ .clean) ∨
      ∃ built s r, build = .ok built ∧
        handleLoop b db.session built.tripUpdates = (s, r) ∧
        result.db.tripUpdates = s.allRows ∧
        result.db.associations =
          db.associations ++ s.links.map (fun vjId => (rtu.id, vjId)) := by
  cases h with
  | rejected e hbuild hexit =>
      exact Or.inl ⟨hexit.unchanged.1, hexit.unchanged.2.1, by simp [hbuild]⟩
  | interrupted built s e hbuild hloop hexit =>
      have hrows := hexit.rows
      rw [BuiltFeed.mark_id] at hrows
      exact hrows.imp (fun hsame => ⟨hsame.1, hsame.2.1, fun _ _ => hsame.2.2⟩)
        (fun hwritten => ⟨built, s, _, hbuild, hloop, hwritten⟩)
  | returned built s hbuild hloop hexit =>
      have hrows := hexit.rows
      rw [BuiltFeed.mark_id] at hrows
      exact hrows.imp (fun hsame => ⟨hsame.1, hsame.2.1, fun _ _ => hsame.2.2⟩)
        (fun hwritten => ⟨built, s, _, hbuild, hloop, hwritten⟩)

theorem FeedOutcome.rows
    (h : FeedOutcome b network db rtu build result) :
    (result.db.tripUpdates = db.tripUpdates ∧
        result.db.associations = db.associations) ∨
      ∃ built s r, build = .ok built ∧
        handleLoop b db.session built.tripUpdates = (s, r) ∧
        result.db.tripUpdates = s.allRows ∧
        result.db.associations =
          db.associations ++ s.links.map (fun vjId => (rtu.id, vjId)) :=
  h.rows_cases.imp_left (fun hsame => ⟨hsame.1, hsame.2.1⟩)

/-- A feed that is built and leaves the session clean has committed its loop. -/
theorem FeedOutcome.committed
    {built : BuiltFeed}
    (h : FeedOutcome b network db rtu build result) (hbuild : build = .ok built)
    (hclean : result.session = .clean) :
    result.db.tripUpdates =
        (handleLoop b db.session built.tripUpdates).1.allRows ∧
      result.db.associations = db.associations ++
        (handleLoop b db.session built.tripUpdates).1.links.map
          (fun vjId => (rtu.id, vjId)) := by
  rcases h.rows_cases with ⟨-, -, hdirty⟩ | ⟨built', s, r, hbuild', hloop, hrows⟩
  · exact absurd hclean (hdirty built hbuild)
  · rw [hbuild] at hbuild'
    cases hbuild'
    rw [hloop]
    exact hrows

/-- The processing of a feed only stores the feed, however it is marked. -/
theorem FeedOutcome.feeds_induction
    (h : FeedOutcome b network db rtu build result)
    {P : List RealTimeUpdate → Prop}
    (hput : ∀ rtus rtu', SameFeed rtu rtu' → P rtus → P (putRtu rtus rtu'))
    (hstart : P db.realTimeUpdates) :
    P result.db.realTimeUpdates := by
  have hmark : ∀ built : BuiltFeed, SameFeed rtu (built.mark rtu) := sameFeed_mark
  cases h with
  | rejected e hbuild hexit =>
      cases hexit with
      | recorded hforgotten htaken =>
          exact hput _ _ (SameFeed.refl rtu).ko hstart
      | unforgotten hvalid hredis =>
          exact hstart
      | refused hforgotten hrefused =>
          exact hstart
  | interrupted built s e hbuild hloop hexit =>
      cases hexit with
      | pending hredis =>
          exact hstart
      | lost e' hredis hcommit =>
          exact hstart
      | committed db1 hredis hcommit =>
          rw [dbCommit_realTimeUpdates hcommit]
          exact hput _ _ (hmark built).ko hstart
  | returned built s hbuild hloop hexit =>
      cases hexit with
      | uncommitted e hcommit =>
          exact hstart
      | unpublished db1 e hcommit hredis =>
          rw [Db.saveRtu_realTimeUpdates, dbCommit_realTimeUpdates hcommit]
          exact hput _ _ (hmark built).ko (hput _ _ (hmark built) hstart)
      | unmarked db1 hcommit hredis hunsent =>
          rw [dbCommit_realTimeUpdates hcommit]
          exact hput _ _ (hmark built) hstart
      | publishedNothing db1 entities hcommit hpb hempty hstatus hbroker =>
          rw [Db.saveRtu_realTimeUpdates, dbCommit_realTimeUpdates hcommit]
          exact hput _ _ (hmark built).ko (hput _ _ (hmark built) hstart)
      | published db1 entities hcommit hpb hlinked hbroker =>
          rw [dbCommit_realTimeUpdates hcommit]
          exact hput _ _ (hmark built) hstart

/-- The processing of a feed leaves the rows of the other ones. -/
theorem FeedOutcome.mem_otherFeeds
    (h : FeedOutcome b network db rtu build result) {row : RealTimeUpdate}
    (hne : row.id ≠ rtu.id) :
    row ∈ result.db.realTimeUpdates ↔ row ∈ db.realTimeUpdates :=
  h.feeds_induction
    (P := fun rtus => row ∈ rtus ↔ row ∈ db.realTimeUpdates)
    (fun _ _ hsame hrtus => (mem_putRtu_of_ne (hsame.id ▸ hne)).trans hrtus)
    Iff.rfl

/-- After a loop that returns, the session is clean if it fits the database. -/
theorem ReturnedOutcome.session
    (h : ReturnedOutcome b network db rtu s result) :
    (result.session = .clean ∨ result.session = .failed) ∧
      (result.session = .clean ↔ FitsDatabase db rtu s) := by
  cases h with
  | uncommitted e hcommit =>
      exact ⟨Or.inr rfl, by simp [not_fitsDatabase_of_error hcommit]⟩
  | unpublished db1 e hcommit hredis =>
      exact ⟨Or.inl rfl, iff_of_true rfl (dbCommit_ok_iff.1 ⟨db1, hcommit⟩)⟩
  | unmarked db1 hcommit hredis hunsent =>
      exact ⟨Or.inl rfl, iff_of_true rfl (dbCommit_ok_iff.1 ⟨db1, hcommit⟩)⟩
  | publishedNothing db1 entities hcommit hpb hempty hstatus hbroker =>
      exact ⟨Or.inl rfl, iff_of_true rfl (dbCommit_ok_iff.1 ⟨db1, hcommit⟩)⟩
  | published db1 entities hcommit hpb hlinked hbroker =>
      exact ⟨Or.inl rfl, iff_of_true rfl (dbCommit_ok_iff.1 ⟨db1, hcommit⟩)⟩

/-- A feed that does not leave the session clean raises and publishes nothing. -/
theorem FeedOutcome.of_unclean
    (h : FeedOutcome b network db rtu build result)
    (hunclean : result.session ≠ .clean) :
    result.outcome.isOk = false ∧ result.published = none := by
  cases h with
  | rejected e hbuild hexit =>
      exact ⟨hexit.unchanged.2.2.2.1, hexit.unchanged.2.2.1⟩
  | interrupted built s e hbuild hloop hexit =>
      cases hexit <;> exact ⟨rfl, rfl⟩
  | returned built s hbuild hloop hexit =>
      cases hexit with
      | uncommitted e hcommit =>
          exact ⟨rfl, rfl⟩
      | _ =>
          exact absurd rfl hunclean

/-- A loop that fits the database is committed when Redis answers. -/
theorem FeedOutcome.clean_of_fits
    {built : BuiltFeed} (h : FeedOutcome b network db rtu (.ok built) result)
    (hredis : network.redisUp = true)
    (hfits : FitsDatabase db (built.mark rtu)
      (handleLoop b db.session built.tripUpdates).1) :
    result.session = .clean := by
  cases h with
  | rejected e hbuild hexit =>
      cases hbuild
  | interrupted built s e hbuild hloop hexit =>
      cases hbuild
      rw [hloop] at hfits
      have htaken := (errorOf_takenByDriver (handleLoop_crashes hloop)).1
      cases hexit with
      | pending hdown =>
          rw [hdown] at hredis
          cases hredis
      | lost e' hup hcommit =>
          have hko := hfits.congr (setRtuStatusKo_id _ (errorOf e)).symm
            (setRtuStatusKo_errorFits.2 htaken)
          exact absurd hko (not_fitsDatabase_of_error hcommit)
      | committed db1 hup hcommit =>
          rfl
  | returned built s hbuild hloop hexit =>
      cases hbuild
      rw [hloop] at hfits
      exact hexit.session.2.2 hfits

/-- A feed that is invalid raises when its error can be written. -/
theorem RejectedOutcome.outcome_of_invalid
    {e : PyException} (h : RejectedOutcome network db rtu e result)
    (hinvalid : isInvalidInputException e = true)
    (htaken : (errorOf e).takenByDriver = true) :
    result.outcome = .error e := by
  cases h with
  | recorded hforgotten htaken =>
      rfl
  | unforgotten hvalid hredis =>
      rw [hvalid] at hinvalid
      cases hinvalid
  | refused hforgotten hrefused =>
      rw [hrefused] at htaken
      cases htaken

/-- A feed that is returned leaves the session clean. -/
theorem FeedOutcome.clean_of_ok
    (h : FeedOutcome b network db rtu build result)
    (hok : result.outcome.isOk = true) :
    result.session = .clean := by
  cases h with
  | rejected e hbuild hexit =>
      cases hexit <;> cases hok
  | interrupted built s e hbuild hloop hexit =>
      cases hexit <;> cases hok
  | returned built s hbuild hloop hexit =>
      cases hexit with
      | publishedNothing db1 entities hcommit hpb hempty hstatus hbroker =>
          rfl
      | published db1 entities hcommit hpb hlinked hbroker =>
          rfl
      | _ =>
          cases hok

/-- What is published is what is linked to the feed once it is committed. -/
theorem FeedOutcome.of_published
    (h : FeedOutcome b network db rtu build result) {p : Publication}
    (hp : result.published = some p) :
    ∃ built s db1,
      build = .ok built ∧
      handleLoop b db.session built.tripUpdates = (s, .ok ()) ∧
      dbCommit db s (built.mark rtu) = .ok db1 ∧
      convertToGtfsrt (db1.tripUpdatesOf (built.mark rtu)) = .ok p.entities ∧
      p.contributorId = b.contributorId ∧
      result.db.tripUpdates = db1.tripUpdates := by
  cases h with
  | rejected e hbuild hexit =>
      cases hexit <;> cases hp
  | interrupted built s e hbuild hloop hexit =>
      cases hexit <;> cases hp
  | returned built s hbuild hloop hexit =>
      cases hexit with
      | publishedNothing db1 entities hcommit hpb hempty hstatus hbroker =>
          cases hp
          exact ⟨built, s, db1, hbuild, hloop, hcommit, hpb, rfl, rfl⟩
      | published db1 entities hcommit hpb hlinked hbroker =>
          cases hp
          exact ⟨built, s, db1, hbuild, hloop, hcommit, hpb, rfl, rfl⟩
      | _ =>
          cases hp

end Exits

section Broker

/-- Recording a failure leaves the trip updates that a clean session has written. -/
theorem recordFailure_rows
    {redisUp : Bool} {rtu : RealTimeUpdate} {result : HandleResult}
    (hclean : result.session = .clean) :
    (recordFailure redisUp rtu result).db.tripUpdates =
      result.db.tripUpdates := by
  unfold recordFailure
  split
  · rfl
  · rw [hclean]
    simp only
    split
    · rfl
    · split <;> rfl

/-- The rows that a feed leaves do not depend on the broker. -/
theorem wrapBuildFeed_rows
    (b : Builder) (network : Network) (db : Db) (rtu : RealTimeUpdate)
    (build : List TripUpdate → Except PyException BuiltFeed) :
    (wrapBuildFeed b network db rtu build).db.tripUpdates =
      (wrapBuildFeed b { network with brokerUp := true } db rtu
        build).db.tripUpdates := by
  simp only [wrapBuildFeed]
  cases build (db.saveRtu rtu).tripUpdates with
  | error e =>
      rfl
  | ok built =>
      simp only
      generalize db.saveRtu rtu = db0
      cases hloop : handleLoop b db0.session built.tripUpdates with
      | mk s result =>
          cases result with
          | error e =>
              rw [handle_raises hloop, handle_raises hloop]
          | ok u =>
              cases hcommit : dbCommit db0 s (built.mark rtu) with
              | error e =>
                  simp only [handle, hloop, hcommit]
              | ok db1 =>
                  have hcommitted : ∀ up : Bool, (handle b up db0
                      (built.mark rtu) built.tripUpdates).session = .clean :=
                    fun _ => handle_clean hloop hcommit
                  rw [recordFailure_rows (hcommitted network.brokerUp),
                    recordFailure_rows (hcommitted true),
                    (handle_committed hloop hcommit).1,
                    (handle_committed hloop hcommit).1]

end Broker

end Core
end Kirin
