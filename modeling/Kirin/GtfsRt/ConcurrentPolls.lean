import Kirin.GtfsRt.RateLimiter
import Kirin.Library.Lease
import Mathlib.Data.Option.Basic
import Mathlib.Logic.Relation

/-!
# Kirin: the polls of several workers

Any number of workers run `gtfs_poller` for a contributor, each poll with the
interval it was asked with.  A poll takes the lock of `get_lock`, which expires,
or gives up; it reads the last call, then the clock, and writes the last call
before it goes on.  The steps of the polls come in any order, a poll may raise or
be killed at any of them, and what a poll does once it goes on takes any time.

* `Step`: the steps of the polls.
* `Safe`: what the lock guarantees as long as no last call is written too late.
* `Safe.step`, `safe_of_run`: it is kept along every run.
* `concurrent_polls_spaced`: the polls that go on are spaced.
-/

namespace Kirin
namespace GtfsRt

open Kirin.Core Kirin.Resources
open Function (update)
open Relation (ReflTransGen)

/-- How far a poll is, with the expiry of its lock and what it has read. -/
inductive PollPhase
  | ready
  | locked (expiry : Datetime)
  | lastRead (expiry : Datetime) (lastExeDtStr : Option CallText)
  | accepted (expiry : Datetime) (now : Datetime)
  | leaving (expiry : Datetime)
  | ended
deriving DecidableEq, Repr

/-- The expiry of the lock that a poll has to release. -/
def PollPhase.expiry : PollPhase → Option Datetime
  | ready => none
  | locked expiry => some expiry
  | lastRead expiry _ => some expiry
  | accepted expiry _ => some expiry
  | leaving expiry => some expiry
  | ended => none

/-- A poll that goes on: its instant, and the interval it was asked with. -/
structure AcceptedPoll where
  now : Datetime
  interval : Int
deriving DecidableEq, Repr

/--
The clock, what redis holds, the polls, those that have gone on, and those that
have written the last call once their lock had expired.
-/
structure Pollers (ι : Type) where
  now : Datetime
  lock : Option (Lease.Held ι Datetime)
  memory : Option LastCall
  phase : ι → PollPhase
  accepted : List AcceptedPoll
  late : List ι

variable {ι : Type} [DecidableEq ι]

/-- The steps of the polls, the intervals they were asked with being given. -/
inductive Step (timeout : Timedelta) (minimalCallInterval : ι → Option Int) :
    Pollers ι → Pollers ι → Prop
  | wait
      {s : Pollers ι} {now : Datetime} (hlater : s.now ≤ now) :
      Step timeout minimalCallInterval s { s with now := now }
  | acquire
      {s : Pollers ι} {i : ι} (hphase : s.phase i = .ready) :
      Step timeout minimalCallInterval s
        { s with
          lock := (Lease.acquire timeout i s.now s.lock).1
          phase := update s.phase i
            (match (Lease.acquire timeout i s.now s.lock).2 with
              | some expiry => .locked expiry
              | none => .ended) }
  | get
      {s : Pollers ι} {i : ι} {expiry : Datetime}
      (hphase : s.phase i = .locked expiry) :
      Step timeout minimalCallInterval s
        { s with
          phase :=
            update s.phase i (.lastRead expiry (redisGet s.memory s.now)) }
  | compare
      {s : Pollers ι} {i : ι} {expiry : Datetime} {seen : Option CallText}
      (hphase : s.phase i = .lastRead expiry seen) :
      Step timeout minimalCallInterval s
        { s with
          phase := update s.phase i
            (match isTooRecent seen (minimalCallInterval i) s.now with
              | .ok false => .accepted expiry s.now
              | _ => .leaving expiry) }
  | set
      {s : Pollers ι} {i : ι} {expiry now : Datetime} {interval : Int}
      (hphase : s.phase i = .accepted expiry now)
      (hinterval : minimalCallInterval i = some interval) :
      Step timeout minimalCallInterval s
        { s with
          memory := some
            { text := strftime now
              expiresAt := s.now + (interval + 10) * Core.second }
          phase := update s.phase i (.leaving expiry)
          accepted := s.accepted ++ [{ now := now, interval := interval }]
          late := if s.now ≤ expiry then s.late else s.late ++ [i] }
  | raise
      {s : Pollers ι} {i : ι} {expiry : Datetime}
      (hphase : (s.phase i).expiry = some expiry) :
      Step timeout minimalCallInterval s
        { s with phase := update s.phase i (.leaving expiry) }
  | release
      {s : Pollers ι} {i : ι} {expiry : Datetime}
      (hphase : s.phase i = .leaving expiry) :
      Step timeout minimalCallInterval s
        { s with
          lock := (Lease.release i s.now s.lock).1
          phase := update s.phase i .ended }
  | kill
      {s : Pollers ι} (i : ι) :
      Step timeout minimalCallInterval s
        { s with phase := update s.phase i .ended }

/-- Nobody has polled yet. -/
def startPollers (ι : Type) (now : Datetime) : Pollers ι where
  now := now
  lock := none
  memory := none
  phase := fun _ => .ready
  accepted := []
  late := []

/--
A poll goes on more than its interval after the last one that did, or more than
ten seconds after the interval of that one.
-/
def Spaced (a b : AcceptedPoll) : Prop :=
  a.now + b.interval * Core.second < b.now ∨
    a.now + (a.interval + 10) * Core.second < b.now

/-- What redis holds tells the last poll that has gone on. -/
def TellsPoll (call : LastCall) (last : AcceptedPoll) : Prop :=
  strptime call.text = last.now ∧
    last.now + (last.interval + 10) * Core.second ≤ call.expiresAt

/-- What the lock guarantees, as long as no last call is written too late. -/
structure Safe (minimalCallInterval : ι → Option Int) (s : Pollers ι) :
    Prop where
  guards : Lease.Guards s.lock (PollPhase.expiry ∘ s.phase) s.now
  remembers : Option.Rel TellsPoll s.memory s.accepted.getLast?
  read : ∀ i expiry seen, s.phase i = .lastRead expiry seen →
    s.now ≤ expiry → ∃ t, t ≤ s.now ∧ seen = redisGet s.memory t
  decided : ∀ i expiry now interval, s.phase i = .accepted expiry now →
    s.now ≤ expiry → minimalCallInterval i = some interval →
      now ≤ s.now ∧
        ∀ last ∈ s.accepted.getLast?, Spaced last ⟨now, interval⟩
  spaced : s.accepted.IsChain Spaced

section Comparison

open Throttle

/-- A comparison with an interval is that of a throttle. -/
theorem isTooRecent_some
    {interval : Int} (hinterval : 1 ≤ interval ∧ interval < 2147483648)
    (seen : Option CallText) (now : Datetime) :
    isTooRecent seen (some interval) now =
      .ok (!accepts (interval * Core.second) (seen.map strptime) now) := by
  have hduration : asDuration (some interval) =
      .ok (some (interval * Core.second)) := by
    rw [asDuration, if_pos (by omega)]
  cases seen with
  | none =>
      rfl
  | some text =>
      by_cases hrecent : now ≤ strptime text + interval * Core.second
      · simp [isTooRecent, hduration, accepts, hrecent]
      · simp [isTooRecent, hduration, accepts, hrecent, not_le.1 hrecent]

/-- A poll that what it has read lets go on is spaced from the last one. -/
theorem spaced_of_isTooRecent
    {interval : Int} (hinterval : 1 ≤ interval ∧ interval < 2147483648)
    {memory : Option LastCall} {last : Option AcceptedPoll}
    (hremembers : Option.Rel TellsPoll memory last) {read now : Datetime}
    (hread : read ≤ now)
    (hok : isTooRecent (redisGet memory read) (some interval) now = .ok false) :
    ∀ a ∈ last, Spaced a ⟨now, interval⟩ := by
  rw [isTooRecent_some hinterval, redisGet_strptime, Except.ok.injEq,
    Bool.not_eq_false'] at hok
  intro a ha
  cases hremembers with
  | none =>
      cases ha
  | @some call last hcall =>
      cases ha
      rcases lt_of_accepts_readAt hread hok call.instant rfl with hlate | hlate
      · rw [LastCall.instant, hcall.1] at hlate
        exact Or.inl hlate
      · exact Or.inr (hcall.2.trans_lt hlate)

end Comparison

section Steps

variable {timeout : Timedelta} {minimalCallInterval : ι → Option Int}
variable {s s' : Pollers ι}

omit [DecidableEq ι] in
/-- A poll whose lock has not expired is alone. -/
theorem Safe.alone
    (h : Safe minimalCallInterval s) {i j : ι} {expiry expiry' : Datetime}
    (hi : (s.phase i).expiry = some expiry) (hlive : s.now ≤ expiry)
    (hj : (s.phase j).expiry = some expiry') (hlive' : s.now ≤ expiry') :
    i = j :=
  h.guards.unique hi hlive hj hlive'

/-- A poll that takes a step of its own leaves the others as they are. -/
theorem Safe.withPhase
    (h : Safe minimalCallInterval s) {i : ι} {phase : PollPhase}
    {lock : Option (Lease.Held ι Datetime)}
    (hguards : Lease.Guards lock
      (update (PollPhase.expiry ∘ s.phase) i phase.expiry) s.now)
    (hread : ∀ expiry seen, phase = .lastRead expiry seen →
      s.now ≤ expiry → ∃ t, t ≤ s.now ∧ seen = redisGet s.memory t)
    (hdecided : ∀ expiry now interval, phase = .accepted expiry now →
      s.now ≤ expiry → minimalCallInterval i = some interval →
        now ≤ s.now ∧
          ∀ last ∈ s.accepted.getLast?, Spaced last ⟨now, interval⟩) :
    Safe minimalCallInterval
      { s with lock := lock, phase := update s.phase i phase } where
  guards := by
    rw [Function.comp_update]
    exact hguards
  remembers := h.remembers
  read := by
    intro j expiry seen hphase hlive
    simp only [Function.update_apply] at hphase
    split at hphase
    · exact hread expiry seen hphase hlive
    · exact h.read j expiry seen hphase hlive
  decided := by
    intro j expiry now interval hphase hlive hinterval
    simp only [Function.update_apply] at hphase
    split at hphase
    · rename_i hsame
      exact hdecided expiry now interval hphase hlive (hsame ▸ hinterval)
    · exact h.decided j expiry now interval hphase hlive hinterval
  spaced := h.spaced

/-- A step that keeps the lock of a poll keeps what the lock guarantees. -/
theorem Safe.guards_of_expiry
    (h : Safe minimalCallInterval s) {i : ι} {phase : PollPhase}
    (hexpiry : phase.expiry = (s.phase i).expiry) :
    Lease.Guards s.lock
      (update (PollPhase.expiry ∘ s.phase) i phase.expiry) s.now := by
  have hsame : update (PollPhase.expiry ∘ s.phase) i phase.expiry =
      PollPhase.expiry ∘ s.phase := by
    rw [hexpiry]
    exact Function.update_eq_self i _
  rw [hsame]
  exact h.guards

/-- The poll that writes the last call in time is the only one that may. -/
theorem Safe.set
    (h : Safe minimalCallInterval s) {i : ι} {expiry now : Datetime}
    {interval : Int} (hphase : s.phase i = .accepted expiry now)
    (hinterval : minimalCallInterval i = some interval)
    (hlive : s.now ≤ expiry) (late : List ι) :
    Safe minimalCallInterval
      { s with
        memory := some
          { text := strftime now
            expiresAt := s.now + (interval + 10) * Core.second }
        phase := update s.phase i (.leaving expiry)
        accepted := s.accepted ++ [{ now := now, interval := interval }]
        late := late } where
  guards := by
    rw [Function.comp_update]
    have hexpiry : (PollPhase.leaving expiry).expiry = (s.phase i).expiry := by
      rw [hphase]
      rfl
    exact h.guards_of_expiry hexpiry
  remembers := by
    have hnow := (h.decided i expiry now interval hphase hlive hinterval).1
    rw [List.getLast?_concat]
    refine .some ⟨strptime_strftime now, ?_⟩
    exact Int.add_le_add_right hnow _
  read := by
    intro j expiry' seen hphase' hlive'
    simp only [Function.update_apply] at hphase'
    split at hphase'
    · cases hphase'
    · rename_i hother
      exact absurd (h.alone (congrArg PollPhase.expiry hphase') hlive'
        (congrArg PollPhase.expiry hphase) hlive) hother
  decided := by
    intro j expiry' now' interval' hphase' hlive' _
    simp only [Function.update_apply] at hphase'
    split at hphase'
    · cases hphase'
    · rename_i hother
      exact absurd (h.alone (congrArg PollPhase.expiry hphase') hlive'
        (congrArg PollPhase.expiry hphase) hlive) hother
  spaced := by
    have hspaced := (h.decided i expiry now interval hphase hlive hinterval).2
    exact List.isChain_append.2 ⟨h.spaced, List.isChain_singleton _,
      fun last hlast b hb => by
        obtain rfl := Option.some.inj hb
        exact hspaced last hlast⟩

/-- Every step keeps what the lock guarantees, unless it writes too late. -/
theorem Safe.step
    (hintervals : ∀ i, ∀ n ∈ minimalCallInterval i, 1 ≤ n ∧ n < 2147483648)
    (h : Safe minimalCallInterval s)
    (hstep : Step timeout minimalCallInterval s s') (hlate : s'.late = []) :
    Safe minimalCallInterval s' := by
  cases hstep with
  | @wait now hlater =>
      refine ⟨h.guards.later hlater, h.remembers, ?_, ?_, h.spaced⟩
      · intro i expiry seen hphase hlive
        obtain ⟨t, ht, hseen⟩ :=
          h.read i expiry seen hphase (hlater.trans hlive)
        exact ⟨t, ht.trans hlater, hseen⟩
      · intro i expiry now' interval hphase hlive hinterval
        obtain ⟨hnow, hlast⟩ := h.decided i expiry now' interval hphase
          (hlater.trans hlive) hinterval
        exact ⟨hnow.trans hlater, hlast⟩
  | @acquire i hphase =>
      have hguards := h.guards.acquire timeout i
        (congrArg PollPhase.expiry hphase)
      cases hcell : (Lease.acquire timeout i s.now s.lock).2 with
      | none =>
          rw [hcell] at hguards
          exact h.withPhase hguards nofun nofun
      | some expiry =>
          rw [hcell] at hguards
          exact h.withPhase hguards nofun nofun
  | @get i expiry hphase =>
      refine h.withPhase (h.guards_of_expiry (by rw [hphase]; rfl)) ?_ nofun
      intro expiry' seen hread _
      cases hread
      exact ⟨s.now, le_rfl, rfl⟩
  | @compare i expiry seen hphase =>
      split
      · rename_i hok
        refine h.withPhase (h.guards_of_expiry (by rw [hphase]; rfl)) nofun ?_
        intro expiry' now interval haccepted hlive hinterval
        cases haccepted
        obtain ⟨t, ht, rfl⟩ := h.read i expiry seen hphase hlive
        rw [hinterval] at hok
        exact ⟨le_rfl, spaced_of_isTooRecent
          (hintervals i interval hinterval) h.remembers ht hok⟩
      · exact h.withPhase (h.guards_of_expiry (by rw [hphase]; rfl)) nofun nofun
  | @set i expiry now interval hphase hinterval =>
      have hlive : s.now ≤ expiry := by
        by_contra hexpired
        simp [hexpired] at hlate
      exact h.set hphase hinterval hlive _
  | @raise i expiry hphase =>
      exact h.withPhase (h.guards_of_expiry hphase.symm) nofun nofun
  | @release i expiry hphase =>
      exact h.withPhase (h.guards.release i) nofun nofun
  | kill i =>
      exact h.withPhase (h.guards.leave i) nofun nofun

/-- A poll that has written too late is not forgotten. -/
theorem late_of_step
    (hstep : Step timeout minimalCallInterval s s') (hlate : s'.late = []) :
    s.late = [] := by
  cases hstep with
  | set hphase hinterval =>
      simp only at hlate
      split at hlate
      · exact hlate
      · simp at hlate
  | wait hlater => exact hlate
  | acquire hphase => exact hlate
  | get hphase => exact hlate
  | compare hphase => exact hlate
  | raise hphase => exact hlate
  | release hphase => exact hlate
  | kill i => exact hlate

/-- What the lock guarantees is kept along every run without a late writing. -/
theorem safe_of_run
    (hintervals : ∀ i, ∀ n ∈ minimalCallInterval i, 1 ≤ n ∧ n < 2147483648)
    (h : Safe minimalCallInterval s)
    (hrun : ReflTransGen (Step timeout minimalCallInterval) s s')
    (hlate : s'.late = []) :
    Safe minimalCallInterval s' := by
  induction hrun with
  | refl =>
      exact h
  | tail _ hstep ih =>
      exact (ih (late_of_step hstep hlate)).step hintervals hstep hlate

omit [DecidableEq ι] in
/-- Before the first poll, there is nothing to guarantee. -/
theorem safe_start
    (minimalCallInterval : ι → Option Int) (now : Datetime) :
    Safe minimalCallInterval (startPollers ι now) where
  guards := nofun
  remembers := .none
  read := nofun
  decided := nofun
  spaced := List.isChain_nil

/-- A call after the interval is let through, whatever is remembered. -/
theorem isTooRecent_of_late
    {interval : Int} (hinterval : 1 ≤ interval ∧ interval < 2147483648)
    {memory : Option LastCall} {now : Datetime}
    (hlate : ∀ call ∈ memory,
      strptime call.text + interval * Core.second < now) :
    isTooRecent (redisGet memory now) (some interval) now = .ok false := by
  rw [isTooRecent_some hinterval, Except.ok.injEq, Bool.not_eq_false',
    Throttle.accepts_eq_true_iff]
  intro t ht
  rw [redisGet, Option.map_map, Option.mem_map] at ht
  obtain ⟨call, hcall, rfl⟩ := ht
  exact hlate call (Option.eq_some_of_filter_eq_some hcall)

omit [DecidableEq ι] in
/-- There is an instant from which a poll alone goes on. -/
theorem exists_later
    (s : Pollers ι) (interval : Int) :
    ∃ now, s.now ≤ now ∧ Lease.live s.lock now = none ∧
      ∀ call ∈ s.memory, strptime call.text + interval * Core.second < now := by
  have habove : ∀ {α : Type} (o : Option α) (f : α → Int),
      ∃ bound, ∀ x ∈ o, f x < bound := by
    intro α o f
    cases o with
    | none =>
        exact ⟨0, nofun⟩
    | some x =>
        refine ⟨f x + 1, fun y hy => ?_⟩
        obtain rfl := Option.some.inj hy
        omega
  obtain ⟨free, hfree⟩ := habove s.lock Lease.Held.expiry
  obtain ⟨due, hdue⟩ := habove s.memory
    (fun call => strptime call.text + interval * Core.second)
  have hall := le_max_left (max s.now free) due
  refine ⟨max (max s.now free) due, (le_max_left _ _).trans hall,
    Lease.live_of_expired (fun held hheld => ?_), fun call hcall => ?_⟩
  · exact (hfree held hheld).trans_le ((le_max_right _ _).trans hall)
  · exact (hdue call hcall).trans_le (le_max_right _ _)

/-- A poll takes the lock when it is free. -/
theorem Step.lock
    {i : ι} (hphase : s.phase i = .ready)
    (hfree : Lease.live s.lock s.now = none) :
    Step timeout minimalCallInterval s
      { s with
        lock := some { owner := i, expiry := s.now + timeout }
        phase := update s.phase i (.locked (s.now + timeout)) } := by
  have hstep : Step timeout minimalCallInterval s _ := Step.acquire hphase
  rw [Lease.acquire, hfree] at hstep
  exact hstep

/-- A poll goes on when the last call is old enough. -/
theorem Step.accept
    {i : ι} {expiry : Datetime} {seen : Option CallText}
    (hphase : s.phase i = .lastRead expiry seen)
    (hok : isTooRecent seen (minimalCallInterval i) s.now = .ok false) :
    Step timeout minimalCallInterval s
      { s with phase := update s.phase i (.accepted expiry s.now) } := by
  have hstep : Step timeout minimalCallInterval s _ := Step.compare hphase
  rw [hok] at hstep
  exact hstep

/-- A poll that goes on in time is not late. -/
theorem Step.remember
    {i : ι} {expiry now : Datetime} {interval : Int}
    (hphase : s.phase i = .accepted expiry now)
    (hinterval : minimalCallInterval i = some interval)
    (hlive : s.now ≤ expiry) :
    Step timeout minimalCallInterval s
      { s with
        memory := some
          { text := strftime now
            expiresAt := s.now + (interval + 10) * Core.second }
        phase := update s.phase i (.leaving expiry)
        accepted := s.accepted ++ [{ now := now, interval := interval }]
        late := s.late } := by
  have hstep : Step timeout minimalCallInterval s _ :=
    Step.set hphase hinterval
  rw [if_pos hlive] at hstep
  exact hstep

/-- A poll that is yet to come may go on, whatever the others have left. -/
theorem exists_accepted
    (htimeout : 0 ≤ timeout) {i : ι} (hready : s.phase i = .ready)
    {interval : Int} (hinterval : minimalCallInterval i = some interval)
    (hbounds : 1 ≤ interval ∧ interval < 2147483648) :
    ∃ s' now, ReflTransGen (Step timeout minimalCallInterval) s s' ∧
      s'.late = s.late ∧
      s'.accepted = s.accepted ++ [{ now := now, interval := interval }] := by
  obtain ⟨now, hlater, hfree, hmemory⟩ := exists_later s interval
  have hok := isTooRecent_of_late hbounds hmemory
  rw [← hinterval] at hok
  have hread : ReflTransGen (Step timeout minimalCallInterval) s _ :=
    ((ReflTransGen.single (.wait hlater)).tail (.lock hready hfree)).tail
      (.get (Function.update_self i _ _))
  have haccepted := hread.tail (.accept (Function.update_self i _ _) hok)
  exact ⟨_, now, haccepted.tail (.remember (Function.update_self i _ _) hinterval
    (Int.le_add_of_nonneg_right htimeout)), rfl, rfl⟩

end Steps

section Contributors

variable {timeout : Timedelta} {contributor : ι → Contributor}
variable {now : Datetime} {s : Pollers ι}

/-- The interval that each poll is asked with. -/
def asked (contributor : ι → Contributor) (i : ι) : Option Int :=
  (pollerConfig (contributor i)).minimalCallInterval

/--
Any number of polls of a contributor, each asked with the interval it had then,
run in any order, and may raise or be killed.  As long as no poll writes the last
call once its lock has expired:

* the polls that go on are spaced by the interval of the later one, unless it is
  longer than that of the earlier one by more than ten seconds;
* a single poll at a time has a lock that has not expired.

A poll that is yet to come and has an interval may always go on in the end.
-/
theorem concurrent_polls_spaced
    (hcontributor : ∀ i, ∃ requests : List Request,
      contributor i ∈ (requests.foldl step emptyTable).rows)
    (hrun : ReflTransGen (Step timeout (asked contributor))
      (startPollers ι now) s) :
    (s.late = [] →
      s.accepted.IsChain Spaced ∧
        ∀ i j expiry expiry', (s.phase i).expiry = some expiry →
          s.now ≤ expiry → (s.phase j).expiry = some expiry' →
            s.now ≤ expiry' → i = j) ∧
      (0 ≤ timeout → ∀ i interval, s.phase i = .ready →
        asked contributor i = some interval →
          ∃ s' now', ReflTransGen (Step timeout (asked contributor)) s s' ∧
            s'.late = s.late ∧
            s'.accepted =
              s.accepted ++ [{ now := now', interval := interval }]) := by
  have hintervals : ∀ i, ∀ n ∈ asked contributor i,
      1 ≤ n ∧ n < 2147483648 := by
    intro i n hn
    obtain ⟨requests, hmem⟩ := hcontributor i
    exact retrievalInterval_storable requests (contributor i) hmem n hn
  refine ⟨fun hlate => ?_, fun htimeout i interval hready hinterval => ?_⟩
  · have hsafe :=
      safe_of_run hintervals (safe_start (asked contributor) now) hrun hlate
    exact ⟨hsafe.spaced, fun i j expiry expiry' hi hlive hj hlive' =>
      hsafe.alone hi hlive hj hlive'⟩
  · exact exists_accepted htimeout hready hinterval
      (hintervals i interval hinterval)

end Contributors

/-- Two polls, the second one eleven seconds after the first. -/
theorem concurrent_polls_spaced_twice :
    [AcceptedPoll.mk 0 10, AcceptedPoll.mk (11 * Core.second) 10].IsChain
      Spaced := by
  have hcontributor : ∀ _ : Bool, ∃ requests : List Request,
      Sample.contributor ∈ (requests.foldl step emptyTable).rows :=
    fun _ => ⟨[Sample.createdContributor], by decide⟩
  have hfirst : ReflTransGen
      (Step (300 * Core.second) (asked fun _ => Sample.contributor))
      (startPollers Bool 0) _ :=
    ((((ReflTransGen.single (.lock (i := false) rfl rfl)).tail
      (.get (i := false) rfl)).tail (.accept (i := false) rfl rfl)).tail
        (.remember (i := false) rfl rfl (by decide))).tail
          (.release (i := false) rfl)
  have hsecond := ((((hfirst.tail
    (.wait (by decide : (0 : Datetime) ≤ 11 * Core.second))).tail
      (.lock (i := true) rfl rfl)).tail (.get (i := true) rfl)).tail
        (.accept (i := true) rfl rfl)).tail
          (.remember (i := true) rfl rfl (by decide))
  exact ((concurrent_polls_spaced hcontributor hsecond).1 rfl).1

end GtfsRt
end Kirin
