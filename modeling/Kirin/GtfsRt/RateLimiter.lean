import Kirin.Core.Utils
import Kirin.Library.Checked
import Kirin.Library.Throttle
import Kirin.Resources.BrokerConfiguration
import Mathlib.Data.List.ReduceOption

/-!
# Kirin: the rate of the polls

This module follows `_is_last_call_too_recent` of `kirin/gtfs_rt/tasks.py`, with
the configuration that `poller` of `kirin/tasks.py` makes of a contributor.  The
instant of the last poll is remembered in redis as a text that is written to the
microsecond, and that expires.

* `isLastCallTooRecent`: one call, from what is remembered.
* `polls`: the calls of a sequence of polls, and those that go on.
* `retrievalInterval_storable`: the intervals that the contributors can have.
* `isLastCallTooRecent_eq`: with an interval, a call is that of a throttle.
* `rateLimited_iff`: the polls are limited as they should exactly when the
  interval of the contributor is not null.
-/

namespace Kirin
namespace GtfsRt

open Kirin.Core Kirin.Resources

/-- The text of an instant, `%Y-%m-%d %H:%M:%S.%f`. -/
structure CallText where
  date : Date
  hour : Int
  minute : Int
  second : Int
  microsecond : Int
deriving DecidableEq, Repr

def strftime (t : Datetime) : CallText where
  date := Datetime.date t
  hour := (Datetime.time t).micros / 3600000000
  minute := (Datetime.time t).micros / 60000000 % 60
  second := (Datetime.time t).micros / 1000000 % 60
  microsecond := (Datetime.time t).micros % 1000000

def strptime (text : CallText) : Datetime :=
  DayClock.instant day text.date
    (((text.hour * 60 + text.minute) * 60 + text.second) * 1000000
      + text.microsecond)

/-- What redis holds for the last call. -/
structure LastCall where
  text : CallText
  expiresAt : Datetime
deriving DecidableEq, Repr

/-- The text that redis still has at an instant. -/
def redisGet (memory : Option LastCall) (now : Datetime) : Option CallText :=
  (memory.filter (fun call => decide (now ≤ call.expiresAt))).map LastCall.text

/-- Whether an instant comes too soon after the one that redis has. -/
def isTooRecent (lastExeDtStr : Option CallText)
    (minimalCallInterval : Option Int) (now : Datetime) :
    Except PyException Bool :=
  match lastExeDtStr with
  | none => .ok false
  | some text =>
      match asDuration minimalCallInterval with
      | .error e => .error e
      -- a null duration cannot be added to a datetime
      | .ok none => .error .typeError
      | .ok (some duration) =>
          .ok (decide (now ≤ strptime text + duration))

/-- Whether the last call is too recent, with what is then remembered. -/
def isLastCallTooRecent (memory : Option LastCall)
    (minimalCallInterval : Option Int) (now : Datetime) :
    Except PyException (Option LastCall × Bool) :=
  match isTooRecent (redisGet memory now) minimalCallInterval now with
  | .error e => .error e
  | .ok true => .ok (memory, true)
  | .ok false =>
      match minimalCallInterval with
      -- nor can the security margin be added to null
      | none => .error .typeError
      | some interval =>
          .ok
            (some
              { text := strftime now
                expiresAt := now + (interval + 10) * Core.second },
              false)

/-- The configuration of a poll, each key of which is given or not. -/
structure PollerConfig where
  contributor : String
  feedUrl : Option String
  retrievalInterval : Option (Option Int)
deriving DecidableEq, Repr

/-- The configuration that is made of a contributor. -/
def pollerConfig (c : Contributor) : PollerConfig where
  contributor := c.id
  feedUrl := c.feedUrl
  retrievalInterval := some c.retrievalInterval

/-- The interval that a poll asks for. -/
def PollerConfig.minimalCallInterval (config : PollerConfig) : Option Int :=
  config.retrievalInterval.getD (some 10)

/-- The calls made by some polls: those that go on, and what is remembered. -/
def polls (interval : Option Int) (memory : Option LastCall) :
    List Datetime → Except PyException (List Datetime × Option LastCall)
  | [] => .ok ([], memory)
  | now :: nows => do
      let (memory, tooRecent) ← isLastCallTooRecent memory interval now
      let (accepted, memory) ← polls interval memory nows
      return (if tooRecent then accepted else now :: accepted, memory)

/-- The interval that a contributor asks for, null standing for the default. -/
def intervalOf (c : Contributor) : Timedelta :=
  c.retrievalInterval.getD 10 * Core.second

/--
One more poll, after some others: it does not raise, it goes on exactly when the
last poll that went on is more than the interval ago, and it is then remembered
for ten seconds more than the interval.
-/
def Limited (c : Contributor) (before : List Datetime) (now : Datetime) : Prop :=
  ∃ accepted memory memory' tooRecent,
    polls (pollerConfig c).minimalCallInterval none before =
      .ok (accepted, memory) ∧
    isLastCallTooRecent memory (pollerConfig c).minimalCallInterval now =
      .ok (memory', tooRecent) ∧
    (tooRecent = false ↔
      ∀ last ∈ accepted.getLast?, last + intervalOf c < now) ∧
    (tooRecent = false →
      ∀ t, redisGet memory' t =
        if t ≤ now + intervalOf c + 10 * Core.second then some (strftime now)
        else none)

/-- The rate of the polls of a contributor is limited as it should. -/
structure RateLimited (c : Contributor) (nows : List Datetime) : Prop where
  limited : ∀ before now after, nows = before ++ now :: after →
    Limited c before now
  spaced : ∀ accepted memory,
    polls (pollerConfig c).minimalCallInterval none nows =
      .ok (accepted, memory) →
    accepted.IsChain (fun a b => a + intervalOf c < b)

/-- A time of day is made of its hours, minutes, seconds and microseconds. -/
theorem clock_parts
    (micros : Int) :
    ((micros / 3600000000 * 60 + micros / 60000000 % 60) * 60
        + micros / 1000000 % 60) * 1000000 + micros % 1000000 = micros := by
  omega

/-- An instant is read as it was written. -/
@[simp] theorem strptime_strftime
    (t : Datetime) :
    strptime (strftime t) = t := by
  rw [strptime, strftime, clock_parts]
  exact combine_date_time t

section Throttle

open Throttle

/-- The instant that redis holds. -/
def LastCall.instant (call : LastCall) : Expiring Datetime where
  value := strptime call.text
  expiry := call.expiresAt

theorem redisGet_strptime
    (memory : Option LastCall) (now : Datetime) :
    (redisGet memory now).map strptime =
      readAt (memory.map LastCall.instant) now := by
  cases memory with
  | none =>
      rfl
  | some call =>
      by_cases hnow : now ≤ call.expiresAt
      · simp [redisGet, readAt, Option.filter, LastCall.instant, hnow]
      · simp [redisGet, readAt, Option.filter, LastCall.instant, hnow]

/-- A call with an interval that is a duration. -/
theorem isLastCallTooRecent_some
    {interval : Int} (hinterval : 1 ≤ interval ∧ interval < 2147483648)
    (memory : Option LastCall) (now : Datetime) :
    isLastCallTooRecent memory (some interval) now =
      if accepts (interval * Core.second)
          (readAt (memory.map LastCall.instant) now) now then
        .ok
          (some
            { text := strftime now
              expiresAt := now + (interval + 10) * Core.second },
            false)
      else .ok (memory, true) := by
  have hduration : asDuration (some interval) =
      .ok (some (interval * Core.second)) := by
    rw [asDuration, if_pos (by omega)]
  rw [← redisGet_strptime, isLastCallTooRecent]
  cases redisGet memory now with
  | none =>
      rfl
  | some text =>
      by_cases hrecent : now ≤ strptime text + interval * Core.second
      · simp [isTooRecent, hduration, accepts, hrecent]
      · simp [isTooRecent, hduration, accepts, hrecent, not_le.1 hrecent]

/-- A call without an interval raises, whatever is remembered. -/
theorem isLastCallTooRecent_none
    (memory : Option LastCall) (now : Datetime) :
    isLastCallTooRecent memory none now = .error .typeError := by
  rw [isLastCallTooRecent]
  cases redisGet memory now with
  | none =>
      rfl
  | some text =>
      rfl

/-- What redis holds is the last poll that went on, with its expiry. -/
def HoldsLastCall (interval : Int) (memory : Option LastCall)
    (last : Option Datetime) : Prop :=
  memory.map LastCall.instant =
    last.map (fun t => ⟨t, t + (interval + 10) * Core.second⟩)

theorem holdsLastCall_none
    (interval : Int) :
    HoldsLastCall interval none none :=
  rfl

/-- One poll with an interval is a call of the throttle. -/
theorem isLastCallTooRecent_holdsLastCall
    {interval : Int} (hinterval : 1 ≤ interval ∧ interval < 2147483648)
    {memory : Option LastCall} {last : Option Datetime}
    (hmemory : HoldsLastCall interval memory last) (now : Datetime) :
    ∃ memory',
      isLastCallTooRecent memory (some interval) now =
        .ok (memory', !accepts (interval * Core.second) last now) ∧
      HoldsLastCall interval memory' (remember (interval * Core.second) last now) ∧
      (accepts (interval * Core.second) last now = true →
        memory' =
          some
            { text := strftime now
              expiresAt := now + (interval + 10) * Core.second }) := by
  have hexpiry : ∀ s ∈ memory.map LastCall.instant,
      s.value + interval * Core.second ≤ s.expiry := by
    rw [hmemory]
    intro s hs
    obtain ⟨t, -, rfl⟩ := Option.map_eq_some_iff.1 hs
    exact Int.add_le_add_left
      (Int.mul_le_mul_of_nonneg_right (by omega) (by decide)) t
  have hlast : (memory.map LastCall.instant).map Expiring.value = last := by
    rw [hmemory, Option.map_map]
    exact congrFun Option.map_id last
  rw [isLastCallTooRecent_some hinterval, accepts_readAt hexpiry, hlast, remember]
  cases accepts (interval * Core.second) last now with
  | true =>
      refine ⟨_, rfl, ?_, fun _ => rfl⟩
      simp [HoldsLastCall, LastCall.instant]
  | false =>
      exact ⟨memory, rfl, hmemory, fun h => absurd h Bool.false_ne_true⟩

/-- The polls that go on are the calls that the throttle lets through. -/
theorem polls_eq
    {interval : Int} (hinterval : 1 ≤ interval ∧ interval < 2147483648)
    {memory : Option LastCall} {last : Option Datetime}
    (hmemory : HoldsLastCall interval memory last) (nows : List Datetime) :
    ∃ memory',
      polls (some interval) memory nows =
        .ok (through (interval * Core.second) last nows, memory') ∧
      HoldsLastCall interval memory'
        (nows.foldl (remember (interval * Core.second)) last) := by
  induction nows generalizing memory last with
  | nil =>
      exact ⟨memory, rfl, hmemory⟩
  | cons now nows ih =>
      obtain ⟨memory1, hcall, hmemory1, -⟩ :=
        isLastCallTooRecent_holdsLastCall hinterval hmemory now
      obtain ⟨memory2, hrest, hmemory2⟩ := ih hmemory1
      refine ⟨memory2, ?_, hmemory2⟩
      simp only [polls, hcall, hrest, through_cons, remember, bind, Except.bind]
      cases accepts (interval * Core.second) last now with
      | true =>
          rfl
      | false =>
          rfl

end Throttle

/-- The intervals that a contributor can have. -/
def StorableInterval (c : Contributor) : Prop :=
  ∀ n ∈ c.retrievalInterval, 1 ≤ n ∧ n < 2147483648

/-- The intervals that a table can hold. -/
def StorableIntervals (table : ContributorTable) : Prop :=
  ∀ c ∈ table.rows, StorableInterval c

section Contributors

variable {table : ContributorTable} {c : Contributor} {data : ContributorData}

/-- An interval that is given has been checked. -/
theorem interval_of_checked
    (hschema : data.fitsPutSchema = true)
    (hintegers : data.integers.all fitsInteger = true) :
    ∀ n ∈ data.retrievalInterval.join, 1 ≤ n ∧ n < 2147483648 := by
  intro n hn
  have hmem : n ∈ data.integers := by
    rw [ContributorData.integers, List.reduceOption_mem_iff, Option.mem_def.1 hn]
    exact List.mem_cons_self
  have hfits : fitsInteger n = true := List.all_eq_true.1 hintegers n hmem
  rw [fitsInteger, decide_eq_true_eq] at hfits
  rw [ContributorData.fitsPutSchema, Option.mem_def.1 hn, Option.all_some,
    decide_eq_true_eq] at hschema
  exact ⟨hschema, hfits.2⟩

/-- A creation stores the interval that is given, or the default. -/
theorem newContributor_storable
    {id : String} (hschema : data.fitsPutSchema = true)
    (hintegers : data.integers.all fitsInteger = true)
    (h : data.newContributor id = some c) :
    StorableInterval c := by
  have hgiven := interval_of_checked hschema hintegers
  unfold ContributorData.newContributor at h
  split at h
  · cases h
    intro n hn
    cases Option.mem_some_iff.1 hn
    rcases hdata : data.retrievalInterval with _ | _ | m
    · decide
    · decide
    · exact hgiven m (by rw [hdata]; rfl)
  · cases h

/-- An update stores the interval that is given, or keeps the one it has. -/
theorem apply_storable
    (hschema : data.fitsPutSchema = true)
    (hintegers : data.integers.all fitsInteger = true)
    (h : StorableInterval c) :
    StorableInterval (data.apply c) := by
  have hgiven := interval_of_checked hschema hintegers
  intro n hn
  rw [ContributorData.apply] at hn
  cases hdata : data.retrievalInterval with
  | none =>
      rw [hdata] at hn
      exact h n hn
  | some value =>
      rw [hdata] at hn
      exact hgiven n (by rw [hdata]; exact hn)

/-- The intervals stay storable, whatever is requested. -/
theorem step_storable
    (h : StorableIntervals table) (request : Request) :
    StorableIntervals (step table request) := by
  cases request with
  | post id body =>
      simp only [step]
      split
      · rename_i table' newContrib hpost
        obtain ⟨data, id', hschema, -, hnew, hintegers, hrows⟩ := post_cases hpost
        have hput : data.fitsPutSchema = true := by
          simp only [ContributorData.fitsPostSchema, Bool.and_eq_true] at hschema
          exact hschema.1.1.1.1
        rw [StorableIntervals, hrows, List.forall_mem_append]
        exact ⟨h, List.forall_mem_singleton.2
          (newContributor_storable hput hintegers hnew)⟩
      · exact h
  | put id body =>
      rw [StorableIntervals, step_put_rows]
      split
      · rename_i id' data hread
        obtain ⟨hschema, herror⟩ := readPut_cases hread
        have hintegers : data.integers.all fitsInteger = true := by
          unfold updateError at herror
          grind
        refine List.forall_mem_map.2 (fun c hc => ?_)
        split
        · exact apply_storable hschema hintegers (h c hc)
        · exact h c hc
      · exact h
  | delete id =>
      exact forall_rows_delete (fun _ hc => hc) h id

/-- The intervals of the contributors that the requests can leave. -/
theorem retrievalInterval_storable
    (requests : List Request) :
    StorableIntervals (requests.foldl step emptyTable) := by
  have hempty : StorableIntervals emptyTable :=
    fun _ hc => absurd hc List.not_mem_nil
  have hevery : Runs.Along step (fun _ _ => True) emptyTable requests :=
    Runs.along_of_forall (fun _ _ => trivial)
  exact Runs.invariant_of_along
    (fun table request h _ => step_storable h request) hevery hempty

end Contributors

/-- A poll is limited when the interval is not null. -/
theorem limited_of_interval
    {c : Contributor} {interval : Int} (hc : c.retrievalInterval = some interval)
    (hinterval : 1 ≤ interval ∧ interval < 2147483648)
    (before : List Datetime) (now : Datetime) :
    Limited c before now := by
  have hconfig : (pollerConfig c).minimalCallInterval = some interval := hc
  have hof : intervalOf c = interval * Core.second := by
    rw [intervalOf, hc, Option.getD_some]
  obtain ⟨memory, hbefore, hmemory⟩ :=
    polls_eq hinterval (holdsLastCall_none interval) before
  obtain ⟨memory', hcall, -, hset⟩ :=
    isLastCallTooRecent_holdsLastCall hinterval hmemory now
  rw [Throttle.foldl_remember, Option.toList_none, List.nil_append] at hcall hset
  refine ⟨_, memory, memory', _, hconfig ▸ hbefore, hconfig ▸ hcall, ?_, ?_⟩
  · rw [Bool.not_eq_false', Throttle.accepts_eq_true_iff, hof]
  · intro haccepts t
    rw [hset (by simpa using haccepts), hof]
    have hexpiry : now + (interval + 10) * Core.second =
        now + interval * Core.second + 10 * Core.second := by
      rw [Int.add_mul, ← Int.add_assoc]
    by_cases ht : t ≤ now + (interval + 10) * Core.second
    · rw [if_pos (hexpiry ▸ ht)]
      simp [redisGet, Option.filter, ht]
    · rw [if_neg (hexpiry ▸ ht)]
      simp [redisGet, Option.filter, ht]

/-- No poll is limited when the interval is null: the call raises. -/
theorem not_limited_of_null
    {c : Contributor} (hc : c.retrievalInterval = none)
    (before : List Datetime) (now : Datetime) :
    ¬Limited c before now := by
  rintro ⟨accepted, memory, memory', tooRecent, -, hcall, -⟩
  have hconfig : (pollerConfig c).minimalCallInterval = none := hc
  rw [hconfig, isLastCallTooRecent_none] at hcall
  cases hcall

/--
Whatever was requested of the contributors before, the polls of any of them are
limited as they should exactly when its interval is not null.
-/
theorem rateLimited_iff
    (requests : List Request) {c : Contributor}
    (hc : c ∈ (requests.foldl step emptyTable).rows) (nows : List Datetime) :
    RateLimited c nows ↔ c.retrievalInterval ≠ none ∨ nows = [] := by
  cases hinterval : c.retrievalInterval with
  | none =>
      constructor
      · intro h
        cases nows with
        | nil =>
            exact Or.inr rfl
        | cons now nows =>
            exact absurd (h.limited [] now nows rfl)
              (not_limited_of_null hinterval [] now)
      · rintro (h | rfl)
        · exact absurd rfl h
        · refine ⟨fun before now after h => ?_, fun accepted memory h => ?_⟩
          · simp at h
          · cases h
            exact List.isChain_nil
  | some interval =>
      have hbounds := retrievalInterval_storable requests c hc interval hinterval
      refine iff_of_true ⟨fun before now after _ =>
        limited_of_interval hinterval hbounds before now, ?_⟩
        (Or.inl (Option.some_ne_none interval))
      intro accepted memory h
      obtain ⟨memory', hpolls, -⟩ :=
        polls_eq hbounds (holdsLastCall_none interval) nows
      have hconfig : (pollerConfig c).minimalCallInterval = some interval :=
        hinterval
      rw [hconfig, hpolls] at h
      cases h
      rw [intervalOf, hinterval, Option.getD_some]
      exact Throttle.isChain_through none nows

namespace Sample

/-- A GTFS-RT contributor is created with the default interval. -/
def createdContributor : Request :=
  .post (some "realtime.sherbrooke")
    (.json
      { Resources.Sample.noKey with
        navitiaCoverage := some "ca-qc-sherbrooke"
        feedUrl := some (some "http://0.0.0.0/civilia/tripUpdates.pb")
        connectorType := some .gtfsRt
        nbDaysToKeepTripUpdate := some 3
        nbDaysToKeepRtUpdate := some 30 })

/-- Its interval is then set to null. -/
def intervalCleared : Request :=
  .put (some "realtime.sherbrooke")
    (.json { Resources.Sample.noKey with retrievalInterval := some none })

def contributor : Contributor where
  id := "realtime.sherbrooke"
  navitiaCoverage := "ca-qc-sherbrooke"
  navitiaToken := none
  feedUrl := some "http://0.0.0.0/civilia/tripUpdates.pb"
  connectorType := .gtfsRt
  retrievalInterval := some 10
  isActive := true
  brokerUrl := none
  exchangeName := none
  queueName := none
  nbDaysToKeepTripUpdate := 3
  nbDaysToKeepRtUpdate := 30

end Sample

/-- The polls of a contributor that keeps the default interval are limited. -/
theorem rateLimited_createdContributor :
    Sample.contributor ∈
        ([Sample.createdContributor].foldl step emptyTable).rows ∧
      RateLimited Sample.contributor [0, 5 * Core.second, 11 * Core.second] := by
  have hc : Sample.contributor ∈
      ([Sample.createdContributor].foldl step emptyTable).rows := by
    decide
  exact ⟨hc, (rateLimited_iff _ hc _).2 (Or.inl (by decide))⟩

/-- The first poll of a contributor whose interval is set to null raises. -/
theorem not_rateLimited_intervalCleared :
    { Sample.contributor with retrievalInterval := none } ∈
        ([Sample.createdContributor, Sample.intervalCleared].foldl step
          emptyTable).rows ∧
      ¬RateLimited { Sample.contributor with retrievalInterval := none } [0] := by
  refine ⟨by decide, fun h => ?_⟩
  obtain ⟨accepted, memory, memory', tooRecent, hbefore, hcall, -⟩ :=
    h.limited [] 0 [] rfl
  cases hbefore
  cases hcall

end GtfsRt
end Kirin
