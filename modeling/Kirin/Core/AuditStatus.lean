import Kirin.Core.FeedOutcome
import Kirin.Core.LoopOutcome

/-!
# Kirin: the audit status of a received feed

The `RealTimeUpdate` of a feed is stored as OK before anything else is done, and
set to KO by its builder, by `handle` or by the recording of a failure.  All of
this is written by commits of one session, the last one once Redis has forgotten
the feed.

* `Audited`: the stored row is OK only for a feed that raised nothing and has
  trip updates, and KO with an error otherwise.
* `HandlingRecorded`: what merging the trip updates leaves can be committed, and
  Redis answers if it is asked to forget the feed.
* `audit_status_iff`: the row says how the processing went exactly then; it stays
  OK otherwise.
-/

namespace Kirin
namespace Core

/-- The row stored for a feed says how the processing of the feed went. -/
def Audited (result : HandleResult) (rtu : RealTimeUpdate) : Prop :=
  ∀ row ∈ result.db.realTimeUpdates, row.id = rtu.id →
    (row.status = .ok →
      result.outcome.isOk = true ∧ result.db.tripUpdatesOf row ≠ []) ∧
    (¬ (result.outcome.isOk = true ∧ result.db.tripUpdatesOf row ≠ []) →
      row.status = .ko ∧ row.error ≠ none)

section Rows

variable {result : HandleResult} {rtu rtu' : RealTimeUpdate}

/-- A feed that is stored as KO is audited, whatever became of it. -/
theorem audited_of_ko
    (rtus : List RealTimeUpdate)
    (hrtus : result.db.realTimeUpdates = putRtu rtus rtu')
    (hid : rtu'.id = rtu.id)
    (hko : rtu'.status = .ko ∧ rtu'.error ≠ none) :
    Audited result rtu := by
  intro row hrow hrowid
  rw [hrtus, mem_putRtu (hrowid.trans hid.symm)] at hrow
  subst hrow
  refine ⟨fun hok => ?_, fun _ => hko⟩
  rw [hko.1] at hok
  cases hok

/-- A feed that is stored as OK has to be returned with its trip updates. -/
theorem audited_iff_of_ok
    (rtus : List RealTimeUpdate)
    (hrtus : result.db.realTimeUpdates = putRtu rtus rtu')
    (hid : rtu'.id = rtu.id) (hok : rtu'.status = .ok) :
    Audited result rtu ↔
      result.outcome.isOk = true ∧ result.db.tripUpdatesOf rtu' ≠ [] := by
  constructor
  · intro haudited
    have hmem : rtu' ∈ result.db.realTimeUpdates := by
      rw [hrtus, mem_putRtu rfl]
    exact (haudited rtu' hmem hid).1 hok
  · intro hprocessed row hrow hrowid
    rw [hrtus, mem_putRtu (hrowid.trans hid.symm)] at hrow
    subst hrow
    exact ⟨fun _ => hprocessed, fun hno => absurd hprocessed hno⟩

/-- A feed that fails is audited when its row is KO with an error. -/
theorem audited_iff_of_failed
    (rtus : List RealTimeUpdate)
    (hrtus : result.db.realTimeUpdates = putRtu rtus rtu')
    (hid : rtu'.id = rtu.id) (hfailed : result.outcome.isOk = false) :
    Audited result rtu ↔ rtu'.status = .ko ∧ rtu'.error ≠ none := by
  refine ⟨fun haudited => ?_, audited_of_ko rtus hrtus hid⟩
  have hmem : rtu' ∈ result.db.realTimeUpdates := by
    rw [hrtus, mem_putRtu rfl]
  exact (haudited rtu' hmem hid).2 (by simp [hfailed])

end Rows

/-- A builder that marks a feed sets it to KO with an error. -/
theorem BuiltFeed.mark_cases
    (built : BuiltFeed) (rtu : RealTimeUpdate) :
    built.mark rtu = rtu ∨
      (built.mark rtu).status = .ko ∧ (built.mark rtu).error ≠ none := by
  unfold BuiltFeed.mark
  cases built.error with
  | none =>
      exact Or.inl rfl
  | some error =>
      exact Or.inr ⟨rfl, Option.some_ne_none error⟩

/-- The failure of a feed that cannot be built is written. -/
structure RejectionRecorded (network : Network) (e : PyException) : Prop where
  forgotten : isInvalidInputException e = true ∨ network.redisUp = true
  taken : (errorOf e).takenByDriver = true

instance (network : Network) (e : PyException) :
    Decidable (RejectionRecorded network e) :=
  decidable_of_iff
    ((isInvalidInputException e = true ∨ network.redisUp = true) ∧
      (errorOf e).takenByDriver = true)
    ⟨fun h => ⟨h.1, h.2⟩, fun h => ⟨h.1, h.2⟩⟩

/--
What the trip updates that are gone through leave can be committed, with the
error of the feed.  Redis answers when a merge raises, or when the trip updates
of a feed without error cannot be sent.
-/
structure HandlingRecorded (b : Builder) (network : Network)
    (rows : List TripUpdate) (rtu : RealTimeUpdate) (built : BuiltFeed) :
    Prop where
  turns : ∀ k, TurnsFit b (rowOf rows k)
    (turnsOn k (goneThrough b rows [] built.tripUpdates).1)
  raised : (goneThrough b rows [] built.tripUpdates).2 ≠ none →
    network.redisUp = true
  error : (goneThrough b rows [] built.tripUpdates).2 = none →
    (built.mark rtu).ErrorFits
  sent : (goneThrough b rows [] built.tripUpdates).2 = none →
    built.error ≠ none ∨ network.redisUp = true ∨
      network.brokerUp = true ∧
        ∀ k, LinkedEncodable b (rowOf rows k) (turnsOn k built.tripUpdates)

/-- The row of a feed is written as its processing went. -/
def StatusRecorded (b : Builder) (network : Network) (rows : List TripUpdate)
    (rtu : RealTimeUpdate) : Except PyException BuiltFeed → Prop
  | .error e =>
      (rtu.status = .ko ∧ rtu.error ≠ none) ∨ RejectionRecorded network e
  | .ok built => HandlingRecorded b network rows rtu built

section Audit

variable {b : Builder} {network : Network} {db : Db} {rtu : RealTimeUpdate}
variable {build : Except PyException BuiltFeed} {result : HandleResult}

/-- A feed that cannot be built is audited when its failure is written. -/
theorem RejectedOutcome.audited_iff
    {e : PyException}
    (h : RejectedOutcome network (db.saveRtu rtu) rtu e result) :
    Audited result rtu ↔
      (rtu.status = .ko ∧ rtu.error ≠ none) ∨ RejectionRecorded network e := by
  cases h with
  | recorded hforgotten htaken =>
      refine iff_of_true
        (audited_of_ko (db.saveRtu rtu).realTimeUpdates rfl rfl ?_)
        (Or.inr ⟨hforgotten, htaken⟩)
      exact ⟨rfl, Option.some_ne_none (errorOf e)⟩
  | unforgotten hvalid hredis =>
      have hno : ¬ RejectionRecorded network e := by
        rintro ⟨hinvalid | hup, -⟩
        · rw [hvalid] at hinvalid
          cases hinvalid
        · rw [hredis] at hup
          cases hup
      rw [audited_iff_of_failed db.realTimeUpdates rfl rfl rfl,
        or_iff_left hno]
  | refused hforgotten hrefused =>
      have hno : ¬ RejectionRecorded network e := by
        rintro ⟨-, htaken⟩
        rw [hrefused] at htaken
        cases htaken
      rw [audited_iff_of_failed db.realTimeUpdates rfl rfl rfl,
        or_iff_left hno]

/-- A commit of what a loop leaves succeeds when the trips gone through fit. -/
theorem dbCommit_goneThrough_iff
    {rtu' : RealTimeUpdate} {ts : List NewTripUpdate}
    (hfresh : ∀ id, (rtu'.id, id) ∉ db.associations)
    (hsame : SameIds db.tripUpdates ts) :
    FitsDatabase db rtu'
        (loopSession b db.session (goneThrough b db.tripUpdates [] ts).1) ↔
      rtu'.ErrorFits ∧ ∀ k, TurnsFit b (rowOf db.tripUpdates k)
        (turnsOn k (goneThrough b db.tripUpdates [] ts).1) := by
  refine fitsDatabase_turns_iff hfresh (hsame.mono (fun row hrow => ?_) ?_)
  · exact List.mem_append_left _ (List.mem_map_of_mem hrow)
  · exact fun t ht => (goneThrough_sublist b db.tripUpdates [] ts).subset ht

/-- A feed that a merge interrupts is audited when its failure is committed. -/
theorem InterruptedOutcome.audited_iff
    {rtu' : RealTimeUpdate} {s : Session} {e : PyException}
    (hok : rtu.status = .ok) (hid : rtu'.id = rtu.id)
    (h : InterruptedOutcome network (db.saveRtu rtu) rtu' s e result) :
    Audited result rtu ↔
      network.redisUp = true ∧
        FitsDatabase (db.saveRtu rtu) (setRtuStatusKo rtu' (errorOf e)) s := by
  have hstill : ¬ (rtu.status = .ko ∧ rtu.error ≠ none) := by
    simp [hok]
  cases h with
  | pending hredis =>
      rw [audited_iff_of_failed db.realTimeUpdates rfl rfl rfl]
      exact iff_of_false hstill (by simp [hredis])
  | lost e' hredis hcommit =>
      rw [audited_iff_of_failed db.realTimeUpdates rfl rfl rfl]
      exact iff_of_false hstill
        (fun hall => not_fitsDatabase_of_error hcommit hall.2)
  | committed db1 hredis hcommit =>
      refine iff_of_true ?_ ⟨hredis, dbCommit_ok_iff.1 ⟨db1, hcommit⟩⟩
      exact audited_of_ko _ (dbCommit_realTimeUpdates hcommit) hid
        ⟨rfl, Option.some_ne_none (errorOf e)⟩

/--
A feed whose loop returns is audited when its session is committed and, unless
its builder has marked it, when it is sent or set to KO.
-/
theorem ReturnedOutcome.audited_iff
    {built : BuiltFeed} {s : Session} (hok : rtu.status = .ok)
    (h : ReturnedOutcome b network (db.saveRtu rtu) (built.mark rtu) s
      result) :
    Audited result rtu ↔
      FitsDatabase (db.saveRtu rtu) (built.mark rtu) s ∧
        (built.error ≠ none ∨ network.redisUp = true ∨
          network.brokerUp = true ∧
            ∀ db1, dbCommit (db.saveRtu rtu) s (built.mark rtu) = .ok db1 →
              ∃ entities, convertToGtfsrt
                (db1.tripUpdatesOf (built.mark rtu)) = .ok entities) := by
  have hid := built.mark_id rtu
  have hko : ∀ error : RtuError,
      (setRtuStatusKo (built.mark rtu) error).status = .ko ∧
        (setRtuStatusKo (built.mark rtu) error).error ≠ none :=
    fun error => ⟨rfl, Option.some_ne_none error⟩
  have hfits : ∀ {db1}, dbCommit (db.saveRtu rtu) s (built.mark rtu) =
      .ok db1 → FitsDatabase (db.saveRtu rtu) (built.mark rtu) s :=
    fun hcommit => dbCommit_ok_iff.1 ⟨_, hcommit⟩
  -- what has been converted is what the commit leaves
  have hsent : ∀ {db1 entities},
      dbCommit (db.saveRtu rtu) s (built.mark rtu) = .ok db1 →
      convertToGtfsrt (db1.tripUpdatesOf (built.mark rtu)) = .ok entities →
      ∀ db2, dbCommit (db.saveRtu rtu) s (built.mark rtu) = .ok db2 →
        ∃ entities, convertToGtfsrt
          (db2.tripUpdatesOf (built.mark rtu)) = .ok entities := by
    intro db1 entities hcommit hpb db2 hcommit'
    rw [hcommit] at hcommit'
    cases hcommit'
    exact ⟨entities, hpb⟩
  cases h with
  | uncommitted e hcommit =>
      rw [audited_iff_of_failed db.realTimeUpdates rfl rfl rfl]
      exact iff_of_false (by simp [hok])
        (fun hall => not_fitsDatabase_of_error hcommit hall.1)
  | unpublished db1 e hcommit hredis =>
      exact iff_of_true
        (audited_of_ko db1.realTimeUpdates rfl hid (hko _))
        ⟨hfits hcommit, Or.inr (Or.inl hredis)⟩
  | unmarked db1 hcommit hredis hunsent =>
      rw [audited_iff_of_failed _ (dbCommit_realTimeUpdates hcommit) hid rfl]
      have hno : ¬ (network.redisUp = true ∨ network.brokerUp = true ∧
          ∀ db1, dbCommit (db.saveRtu rtu) s (built.mark rtu) = .ok db1 →
            ∃ entities, convertToGtfsrt
              (db1.tripUpdatesOf (built.mark rtu)) = .ok entities) := by
        rintro (hup | ⟨hbroker, hall⟩)
        · rw [hredis] at hup
          cases hup
        · obtain ⟨entities, hpb⟩ := hall db1 hcommit
          exact hunsent hbroker entities hpb
      rw [or_iff_left hno, and_iff_right (hfits hcommit)]
      cases herror : built.error with
      | none =>
          simp [BuiltFeed.mark, herror, hok]
      | some error =>
          simp [BuiltFeed.mark, herror, setRtuStatusKo]
  | publishedNothing db1 entities hcommit hpb hempty hstatus hbroker =>
      exact iff_of_true
        (audited_of_ko db1.realTimeUpdates rfl hid (hko _))
        ⟨hfits hcommit, Or.inr (Or.inr ⟨hbroker, hsent hcommit hpb⟩)⟩
  | published db1 entities hcommit hpb hlinked hbroker =>
      have hrtus := dbCommit_realTimeUpdates hcommit
      refine iff_of_true ?_
        ⟨hfits hcommit, Or.inr (Or.inr ⟨hbroker, hsent hcommit hpb⟩)⟩
      rcases built.mark_cases rtu with hmark | hmarked
      · have hstored : (built.mark rtu).status = .ok := by
          rw [hmark, hok]
        refine (audited_iff_of_ok _ hrtus hid hstored).2 ⟨rfl, ?_⟩
        exact hlinked.resolve_right (fun hne => hne hstored)
      · exact audited_of_ko _ hrtus hid hmarked

end Audit

section Recorded

variable {b : Builder} {network : Network} {rows : List TripUpdate}
variable {rtu : RealTimeUpdate} {built : BuiltFeed}

/-- After a merge that raises, Redis answers and what is left can be committed. -/
theorem handlingRecorded_of_raised
    {e : PyException}
    (hraised : (goneThrough b rows [] built.tripUpdates).2 = some e) :
    HandlingRecorded b network rows rtu built ↔
      network.redisUp = true ∧
        ∀ k, TurnsFit b (rowOf rows k)
          (turnsOn k (goneThrough b rows [] built.tripUpdates).1) := by
  constructor
  · intro h
    exact ⟨h.raised (by simp [hraised]), h.turns⟩
  · rintro ⟨hredis, hturns⟩
    exact ⟨hturns, fun _ => hredis, by simp [hraised], by simp [hraised]⟩

/-- When no merge raises, all the trip updates of the feed are committed. -/
theorem handlingRecorded_of_returned
    (hreturned : (goneThrough b rows [] built.tripUpdates).2 = none) :
    HandlingRecorded b network rows rtu built ↔
      ((built.mark rtu).ErrorFits ∧
          ∀ k, TurnsFit b (rowOf rows k) (turnsOn k built.tripUpdates)) ∧
        (built.error ≠ none ∨ network.redisUp = true ∨
          network.brokerUp = true ∧
            ∀ k, LinkedEncodable b (rowOf rows k)
              (turnsOn k built.tripUpdates)) := by
  have hall := goneThrough_of_none hreturned
  rw [List.nil_append] at hall
  constructor
  · intro h
    have hturns := h.turns
    rw [hall] at hturns
    exact ⟨⟨h.error hreturned, hturns⟩, h.sent hreturned⟩
  · rintro ⟨⟨herror, hturns⟩, hsent⟩
    refine ⟨?_, fun hne => absurd hreturned hne, fun _ => herror,
      fun _ => hsent⟩
    rw [hall]
    exact hturns

end Recorded

end Core
end Kirin
