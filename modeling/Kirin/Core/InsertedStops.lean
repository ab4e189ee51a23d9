import Kirin.Core.PartialDeletion
import Kirin.Library.KeyedStore

/-!
# Kirin: complete feeds with added stops

An added stop gives its own datetimes, of which the calendar only sees the times
of day, or those of the vehicle journey when the stop point is served there.
The stops of the vehicle journey are then dated by counting the falls of all the
times of day read so far.

* `Calendar.Undelayed.targets_eq_iff`: the merge aims at the base datetimes
  exactly when the readings fall as many times as midnights pass.
* `Calendar.Ahead.targets_of_runningMax`: more readings lose no fall, so that no
  base event can be dated too early and then pushed to its datetime.
* `insertedStops_keep_iff`: adding stops leaves the base stops where they are
  exactly when the midnights are kept.
-/

namespace Kirin
namespace Core

/-- The time of day at which an event is read, if any. -/
def Passage.reading : Passage → Option TimeOfDay
  | .skipped | .untimed => none
  | .scheduled r _ | .added r _ => some r

/-- Number of times the time of day falls along a list. -/
def countFalls (prev : Option TimeOfDay) (rs : List TimeOfDay) : Int :=
  DayClock.descents (prev.map TimeOfDay.micros) (rs.map TimeOfDay.micros)

section Calendar

variable {c : Calendar} {p : Passage} {r : TimeOfDay}

theorem Calendar.Undelayed.after_reading
    (hc : c.Undelayed) (hp : p.reading = some r) :
    c.after p =
      { previousStopEvent := { time := some r, delay := 0 }
        circulationDate := c.dateOf r } := by
  cases p with
  | skipped =>
      cases hp
  | untimed =>
      cases hp
  | scheduled r' b =>
      cases hp
      rw [Calendar.after, Calendar.stopEvent_undelayed hc]
  | added r' t =>
      cases hp
      rw [Calendar.after, Calendar.stopEvent_undelayed hc]

/-- The date follows the falls of the readings. -/
theorem Calendar.dateOf_add_countFalls
    (c : Calendar) (r : TimeOfDay) (rs : List TimeOfDay) :
    c.circulationDate + countFalls c.previousStopEvent.time (r :: rs) =
      c.dateOf r + countFalls (some r) rs := by
  rcases c with ⟨⟨time, delay⟩, date⟩
  cases time with
  | none =>
      rfl
  | some p =>
      simp only [countFalls, Calendar.dateOf, Option.map_some, List.map_cons,
        DayClock.descents]
      exact (Int.add_assoc _ _ _).symm

/--
The merge aims at the base datetimes exactly when the readings up to each of
them fall as many times as midnights have passed.
-/
theorem Calendar.Undelayed.targets_eq_iff
    (hc : c.Undelayed) {ps : List Passage}
    (hread : ∀ p ∈ ps, p.reading.isSome ∧ p.ReadRight) :
    targets c ps = ps.map Passage.wanted ↔
      ∀ k r b, ps[k]? = some (.scheduled r b) →
        c.circulationDate + countFalls c.previousStopEvent.time
          ((ps.filterMap Passage.reading).take (k + 1)) =
            Datetime.date b := by
  induction ps generalizing c with
  | nil =>
      simp [targets]
  | cons p ps ih =>
      rw [List.forall_mem_cons] at hread
      rcases hread with ⟨⟨hsome, hright⟩, hread⟩
      obtain ⟨r, hr⟩ := Option.isSome_iff_exists.1 hsome
      have hafter := hc.after_reading hr
      have htail := ih (hc.after p) hread
      rw [hafter] at htail
      have hsplit :
          (∀ k r' b, (p :: ps)[k]? = some (.scheduled r' b) →
            c.circulationDate + countFalls c.previousStopEvent.time
              (((p :: ps).filterMap Passage.reading).take (k + 1)) =
                Datetime.date b) ↔
          (∀ r' b, p = .scheduled r' b → c.dateOf r = Datetime.date b) ∧
            ∀ k r' b, ps[k]? = some (.scheduled r' b) →
              c.dateOf r + countFalls (some r)
                ((ps.filterMap Passage.reading).take (k + 1)) =
                  Datetime.date b := by
        rw [List.filterMap_cons_some hr]
        simp only [List.take_succ_cons, Calendar.dateOf_add_countFalls]
        constructor
        · intro h
          refine ⟨fun r' b hp => ?_, fun k r' b hk => h (k + 1) r' b hk⟩
          have hzero := h 0 r' b (by simp [hp])
          simpa [countFalls, DayClock.descents] using hzero
        · rintro ⟨hhead, htail⟩ k r' b hk
          cases k with
          | zero =>
              simp only [List.getElem?_cons_zero, Option.some.injEq] at hk
              simpa [countFalls, DayClock.descents] using hhead r' b hk
          | succ k =>
              exact htail k r' b hk
      rw [hsplit, targets, List.map_cons, List.cons.injEq, hafter, htail]
      refine and_congr_left' ?_
      cases p with
      | skipped =>
          cases hr
      | untimed =>
          cases hr
      | scheduled r' b =>
          cases hr
          rw [Calendar.target, Calendar.stopEvent_undelayed hc]
          simp only [Passage.wanted, Option.some.injEq, combine_eq_iff,
            Passage.scheduled.injEq]
          simp only [Passage.ReadRight] at hright
          constructor
          · rintro ⟨hd, -⟩ r' b' ⟨rfl, rfl⟩
            exact hd
          · intro h
            exact ⟨h r b ⟨rfl, rfl⟩, hright⟩
      | added r' t =>
          simp [Calendar.target, Passage.wanted]

/-- The datetime of an event of the base schedule. -/
def Passage.base : Passage → Option Datetime
  | .scheduled _ b => some b
  | _ => none

/--
The calendar has counted at least the midnights passed since the last base
event, or since the start.
-/
def Calendar.Ahead (c : Calendar) (start : Date) : Option Datetime → Prop
  | none => start ≤ c.circulationDate
  | some b => ∃ p, c.previousStopEvent.time = some p ∧
      Datetime.date b + falls (Datetime.time b) p ≤ c.circulationDate

/-- Base events follow each other, the first one being on the start date. -/
structure BaseFollows
    (start : Date) (last : Option Datetime) (base : List Datetime) :
    Prop where
  chain : (last.toList ++ base).IsChain (fun t t' => t ≤ t' ∧ t' - t < day)
  starts : last = none → ∀ b ∈ base.head?, Datetime.date b = start

instance (start : Date) (last : Option Datetime) (base : List Datetime) :
    Decidable (BaseFollows start last base) :=
  decidable_of_iff
    ((last.toList ++ base).IsChain (fun t t' => t ≤ t' ∧ t' - t < day) ∧
      (last = none → ∀ b ∈ base.head?, Datetime.date b = start))
    ⟨fun h => ⟨h.1, h.2⟩, fun h => ⟨h.chain, h.starts⟩⟩

theorem BaseFollows.tail
    {start : Date} {last : Option Datetime} {b : Datetime}
    {base : List Datetime} (h : BaseFollows start last (b :: base)) :
    BaseFollows start (some b) base where
  chain := by
    cases last with
    | none =>
        exact h.chain
    | some l =>
        exact (List.isChain_cons_cons.1 h.chain).2
  starts := by
    rintro ⟨⟩

theorem Calendar.dateOf_of_previous
    {p : TimeOfDay} (h : c.previousStopEvent.time = some p) (r : TimeOfDay) :
    c.dateOf r = c.circulationDate + falls p r := by
  simp only [Calendar.dateOf, h]

theorem Calendar.le_dateOf
    (c : Calendar) (r : TimeOfDay) :
    c.circulationDate ≤ c.dateOf r := by
  cases h : c.previousStopEvent.time with
  | none =>
      simp only [Calendar.dateOf, h]
      exact le_refl _
  | some p =>
      rw [Calendar.dateOf_of_previous h]
      exact Int.le_add_of_nonneg_right (DayClock.descent_nonneg _ _)

/-- Readings between two base events lose no fall. -/
theorem Calendar.Ahead.le_dateOf
    {start : Date} {b : Datetime}
    (h : c.Ahead start (some b)) (r : TimeOfDay) :
    Datetime.date b + falls (Datetime.time b) r ≤ c.dateOf r := by
  rcases h with ⟨p, hp, hle⟩
  rw [Calendar.dateOf_of_previous hp]
  calc
    Datetime.date b + falls (Datetime.time b) r
        ≤ Datetime.date b + (falls (Datetime.time b) p + falls p r) :=
      Int.add_le_add_left (DayClock.descent_le_add _ _ _) _
    _ = Datetime.date b + falls (Datetime.time b) p + falls p r :=
      (Int.add_assoc _ _ _).symm
    _ ≤ c.circulationDate + falls p r := Int.add_le_add_right hle _

theorem Calendar.Ahead.after_reading
    {start : Date} {last : Option Datetime}
    (h : c.Ahead start last) (r : TimeOfDay) (delay : Timedelta) :
    Calendar.Ahead
      { previousStopEvent := { time := some r, delay := delay }
        circulationDate := c.dateOf r } start last := by
  cases last with
  | none =>
      exact le_trans h (c.le_dateOf r)
  | some b =>
      exact ⟨r, rfl, h.le_dateOf r⟩

theorem Calendar.Ahead.date_le
    {start : Date} {last : Option Datetime}
    (h : c.Ahead start last) {b : Datetime} {base : List Datetime}
    (hbase : BaseFollows start last (b :: base)) :
    Datetime.date b ≤ c.dateOf (Datetime.time b) := by
  cases last with
  | none =>
      rw [hbase.starts rfl b rfl]
      exact le_trans h (c.le_dateOf _)
  | some l =>
      obtain ⟨hle, hgap⟩ := (List.isChain_cons_cons.1 hbase.chain).1
      rw [date_of_gap hle hgap]
      exact h.le_dateOf _

/-- A base event makes the calendar its own. -/
theorem Calendar.Ahead.of_date
    (start : Date) (b : Datetime) (delay : Timedelta) :
    Calendar.Ahead
      { previousStopEvent := { time := some (Datetime.time b), delay := delay }
        circulationDate := Datetime.date b } start (some b) := by
  refine ⟨Datetime.time b, rfl, ?_⟩
  simp [DayClock.descent]

/--
When the recorded datetimes are the wanted ones, the merge aims at them: it
never aims before a base event.
-/
theorem Calendar.Ahead.targets_of_runningMax
    {start : Date} {base last : Option Datetime}
    (h : c.Ahead start base) (hc : c.Undelayed) {ps : List Passage}
    (hread : ∀ p ∈ ps, p.reading.isSome ∧ p.ReadRight)
    (hbase : BaseFollows start base (ps.filterMap Passage.base))
    (hmax : runningMax last (targets c ps) = ps.map Passage.wanted) :
    targets c ps = ps.map Passage.wanted := by
  induction ps generalizing c base last with
  | nil =>
      rfl
  | cons p ps ih =>
      rw [List.forall_mem_cons] at hread
      rcases hread with ⟨⟨hsome, hright⟩, hread⟩
      rw [targets, runningMax, List.map_cons, List.cons.injEq] at hmax
      rcases hmax with ⟨hhead, htail⟩
      rw [targets, List.map_cons, List.cons.injEq]
      cases p with
      | skipped =>
          cases hsome
      | untimed =>
          cases hsome
      | added r t =>
          refine ⟨rfl, ih ?_ (hc.after _) hread hbase htail⟩
          rw [hc.after_reading rfl]
          exact h.after_reading r 0
      | scheduled r b =>
          cases hright
          have htarget :
              c.target (.scheduled (Datetime.time b) b) =
                some (combine (c.dateOf (Datetime.time b))
                  (Datetime.time b)) := by
            rw [Calendar.target, Calendar.stopEvent_undelayed hc]
          have hdate : c.dateOf (Datetime.time b) = Datetime.date b := by
            refine le_antisymm ?_ (h.date_le hbase)
            rw [htarget, Option.map_some, Passage.wanted,
              Option.some.injEq] at hhead
            rw [← combine_le_iff]
            calc
              combine (c.dateOf (Datetime.time b)) (Datetime.time b)
                  ≤ atLeast last (combine (c.dateOf (Datetime.time b))
                    (Datetime.time b)) := le_atLeast _ _
              _ = b := hhead
          refine ⟨?_, ih ?_ (hc.after _) hread hbase.tail htail⟩
          · rw [htarget, hdate, combine_date_time]
            rfl
          · rw [hc.after_reading rfl, hdate]
            exact Calendar.Ahead.of_date start b 0

end Calendar

/--
A stop of a complete feed: the datetimes of its events, and its stop time unless
the stop is added.
-/
structure Visit where
  stu : StopTimeUpdate
  times : Events Datetime
  stopTime : Option StopTime
deriving DecidableEq, Repr

namespace Visit

def isBase (v : Visit) : Bool :=
  v.stopTime.isSome

/-- The stop time made for an added stop that the vehicle journey lacks. -/
def fake (v : Visit) : StopTime where
  stopPoint := some { id := v.stu.stopId, codes := [] }
  utcArrivalTime := some (Datetime.time v.times.arrival)
  utcDepartureTime := some (Datetime.time v.times.departure)

/-- The stop time the merge reads, that of the vehicle journey if there is one. -/
def read (vjSts : List StopTime) (v : Visit) : StopTime :=
  (findStInVj v.stu.stopId vjSts).getD v.fake

/-- What the feed says about an event of the stop. -/
def passage (vjSts : List StopTime) (v : Visit) (e : StopEvent) : Passage :=
  match (v.read vjSts).utcTime e with
  | none => .untimed
  | some r =>
      if v.isBase then .scheduled r (v.times.get e)
      else .added r (v.times.get e)

def passages (vjSts : List StopTime) (v : Visit) : Events Passage where
  arrival := v.passage vjSts .arrival
  departure := v.passage vjSts .departure

theorem passages_get
    (vjSts : List StopTime) (v : Visit) (e : StopEvent) :
    (v.passages vjSts).get e = v.passage vjSts e := by
  cases e <;> rfl

end Visit

/-- The feed on a trip that lists the given stops. -/
def withStops (new : NewTripUpdate) (visits : List Visit) : NewTripUpdate :=
  { new with stopTimeUpdates := orderingList (visits.map Visit.stu) }

/--
The stops are those of the vehicle journey, left as they are, with added stops
that give their own datetimes in chronological order.
-/
structure Inserts (new : NewTripUpdate) (visits : List Visit) : Prop where
  stopTimes : new.navitiaVj.stopTimes = visits.filterMap Visit.stopTime
  distinct : (new.navitiaVj.stopTimes.map StopTime.stopId).Nodup
  base : ∀ v ∈ visits, ∀ s ∈ v.stopTime,
    s.stopId = some v.stu.stopId ∧
      ∀ e, s.utcTime e = some (Datetime.time (v.times.get e)) ∧
        v.stu.getStopEventStatus e = .none ∧
        (v.stu.getStopEventDelay e).getD 0 = 0
  added : ∀ v ∈ visits, v.stopTime = none → ∀ e,
    v.stu.isStopEventAdded e = true ∧
      (v.stu.getStopEventDelay e).getD 0 = 0 ∧
      v.stu.getStopEventTime e = some (v.times.get e)
  chronological : (Events.list (visits.map Visit.times)).IsChain (· ≤ ·)
  follows : BaseFollows new.vj.getCirculationDate none
    (Events.list ((visits.filter Visit.isBase).map Visit.times))

/--
Up to each event of the vehicle journey, the times of day read fall as many
times as midnights have passed since the start of the trip.
-/
def MidnightsKept
    (start : Date) (vjSts : List StopTime) (visits : List Visit) : Prop :=
  ∀ k r b,
    (Events.list (visits.map (Visit.passages vjSts)))[k]? =
        some (.scheduled r b) →
      start + countFalls none
        (((Events.list (visits.map (Visit.passages vjSts))).filterMap
          Passage.reading).take (k + 1)) = Datetime.date b

section Visits

variable {new : NewTripUpdate} {visits : List Visit}

/-- The base stops of a feed make a feed without added stops. -/
theorem Inserts.baseOnly
    (h : Inserts new visits) :
    Inserts new (visits.filter Visit.isBase) where
  stopTimes := by
    rw [h.stopTimes, List.filterMap_filter]
    refine List.filterMap_congr (fun v _ => ?_)
    unfold Visit.isBase
    cases v.stopTime <;> rfl
  distinct := h.distinct
  base := fun v hv => h.base v (List.mem_of_mem_filter hv)
  added := fun v hv => h.added v (List.mem_of_mem_filter hv)
  chronological := by
    have hchron := h.chronological
    rw [List.isChain_iff_pairwise] at hchron
    have hsub := (List.filter_sublist (p := Visit.isBase)
      (l := visits)).map Visit.times
    exact (hchron.sublist (Events.list_sublist hsub)).isChain
  follows := by
    rw [List.filter_filter]
    simpa using h.follows

/-- A stop of the vehicle journey is found there. -/
theorem Inserts.found_base
    (h : Inserts new visits) {v : Visit} (hv : v ∈ visits) {s : StopTime}
    (hs : v.stopTime = some s) :
    findStInVj v.stu.stopId new.navitiaVj.stopTimes = some s := by
  have hmem : s ∈ new.navitiaVj.stopTimes := by
    rw [h.stopTimes]
    exact List.mem_filterMap.2 ⟨v, hv, hs⟩
  obtain ⟨hid, -⟩ := h.base v hv s hs
  exact KeyedStore.find?_eq_some_of_key h.distinct (by simp [hid]) hmem

/-- A stop of the vehicle journey has both of its times. -/
theorem Inserts.utcTime_isSome
    (h : Inserts new visits) {s : StopTime}
    (hs : s ∈ new.navitiaVj.stopTimes) (e : StopEvent) :
    (s.utcTime e).isSome := by
  rw [h.stopTimes, List.mem_filterMap] at hs
  rcases hs with ⟨v, hv, hvs⟩
  simp [((h.base v hv s hvs).2 e).1]

/-- The events of a base stop are read at their own datetimes. -/
theorem Inserts.passage_base
    (h : Inserts new visits) {v : Visit} (hv : v ∈ visits)
    (hbase : v.isBase = true) (e : StopEvent) :
    v.passage new.navitiaVj.stopTimes e =
      .scheduled (Datetime.time (v.times.get e)) (v.times.get e) := by
  obtain ⟨s, hs⟩ := Option.isSome_iff_exists.1 hbase
  obtain ⟨-, hevents⟩ := h.base v hv s hs
  simp [Visit.passage, Visit.read, h.found_base hv hs, (hevents e).1, hbase]

/-- Those of an added stop are read at some time of day. -/
theorem Inserts.passage_added
    (h : Inserts new visits) {v : Visit} (hadded : v.isBase = false)
    (e : StopEvent) :
    ∃ r, ((v.read new.navitiaVj.stopTimes).utcTime e) = some r ∧
      v.passage new.navitiaVj.stopTimes e = .added r (v.times.get e) := by
  have hread : ((v.read new.navitiaVj.stopTimes).utcTime e).isSome := by
    unfold Visit.read
    cases hfind : findStInVj v.stu.stopId new.navitiaVj.stopTimes with
    | none =>
        cases e <;> rfl
    | some s =>
        exact h.utcTime_isSome (List.mem_of_find?_eq_some hfind) e
  obtain ⟨r, hr⟩ := Option.isSome_iff_exists.1 hread
  refine ⟨r, hr, ?_⟩
  simp [Visit.passage, hr, hadded]

/-- A stop of the feed, but for its order. -/
structure PlacedAs (st : StopTimeUpdate) (v : Visit) : Prop where
  stopId : st.stopId = v.stu.stopId
  status : ∀ e, st.getStopEventStatus e = v.stu.getStopEventStatus e
  delay : ∀ e, st.getStopEventDelay e = v.stu.getStopEventDelay e
  time : ∀ e, st.getStopEventTime e = v.stu.getStopEventTime e

theorem withStops_placedAs
    (new : NewTripUpdate) (visits : List Visit) :
    List.Forall₂ PlacedAs (withStops new visits).stopTimeUpdates visits := by
  rw [List.forall₂_iff_get]
  refine ⟨by simp [withStops, orderingList], fun i hi hi' => ?_⟩
  simp only [withStops, orderingList, List.get_eq_getElem, List.getElem_mapIdx,
    List.getElem_map]
  exact ⟨rfl, fun e => by cases e <;> rfl, fun e => by cases e <;> rfl,
    fun e => by cases e <;> rfl⟩

/-- An added stop that the vehicle journey lacks is kept, at its datetimes. -/
theorem Inserts.makeFake
    (h : Inserts new visits) {v : Visit} (hv : v ∈ visits)
    (hadded : v.stopTime = none) {st : StopTimeUpdate} (hst : PlacedAs st v)
    (j : Nat) :
    isKept none j st = true ∧
      makeFakeRealtimeStopTime j st.stopId st none = .ok v.fake := by
  obtain ⟨haa, hda, hta⟩ := h.added v hv hadded .arrival
  obtain ⟨-, hdd, htd⟩ := h.added v hv hadded .departure
  have hkept : st.isStopEventAdded .arrival = true := by
    rw [StopTimeUpdate.isStopEventAdded, hst.status]
    exact haa
  refine ⟨by simp [isKept, isNewStopEventValid, isStopEventServed, hkept], ?_⟩
  have htruthy :
      ∀ (t : Option Datetime) (d : Option Timedelta), d.getD 0 = 0 →
        addTruthyDelay t d = .ok t := by
    intro t d hd
    cases d with
    | none =>
        rfl
    | some d =>
        exact if_pos hd
  rw [← hst.delay] at hda hdd
  rw [← hst.time] at hta htd
  simp only [StopTimeUpdate.getStopEventDelay] at hda hdd
  simp only [StopTimeUpdate.getStopEventTime, Events.get] at hta htd
  simp only [makeFakeRealtimeStopTime, fakeDatetimes, Option.bind_none,
    htruthy _ _ hda, htruthy _ _ hdd, hta, htd, hst.stopId, bind, Except.bind,
    pure, Except.pure]
  rfl

/-- The loop over the stops of such a feed goes through all of them. -/
theorem Inserts.yieldNextStopFrom_eq
    (h : Inserts new visits) {vs : List Visit} (hvs : ∀ v ∈ vs, v ∈ visits)
    {stus : List StopTimeUpdate} (hstus : List.Forall₂ PlacedAs stus vs)
    (j : Nat) :
    yieldNextStopFrom none new.navitiaVj.stopTimes j stus =
      numbered j (vs.map (Visit.read new.navitiaVj.stopTimes)) := by
  induction hstus generalizing j with
  | nil =>
      rfl
  | @cons st v stus vs hst hrest ih =>
      rw [List.forall_mem_cons] at hvs
      rw [List.map_cons, numbered_cons, ← ih hvs.2 (j + 1)]
      cases hfind : findStInVj v.stu.stopId new.navitiaVj.stopTimes with
      | some s =>
          rw [← hst.stopId] at hfind
          rw [yieldNextStopFrom_found hfind, Visit.read, ← hst.stopId, hfind]
          rfl
      | none =>
          have hadded : v.stopTime = none := by
            cases hs : v.stopTime with
            | none =>
                rfl
            | some s =>
                rw [h.found_base hvs.1 hs] at hfind
                cases hfind
          obtain ⟨hkept, hfake⟩ := h.makeFake hvs.1 hadded hst j
          rw [Visit.read, hfind]
          rw [← hst.stopId] at hfind
          rw [yieldNextStopFrom_kept hfind hkept, hfake]
          rfl

/-- What the feed says about the events of a stop resolved for it. -/
theorem Inserts.says_passage
    (h : Inserts new visits) {v : Visit} (hv : v ∈ visits) {f : FeedStop}
    (hread : f.navitiaStop = v.read new.navitiaVj.stopTimes)
    (hst : PlacedAs f.newSt v) (e : StopEvent) :
    f.Says e (v.passage new.navitiaVj.stopTimes e) := by
  cases hbase : v.isBase with
  | true =>
      obtain ⟨s, hs⟩ := Option.isSome_iff_exists.1 hbase
      obtain ⟨hclock, hstatus, hdelay⟩ := (h.base v hv s hs).2 e
      rw [h.passage_base hv hbase e]
      refine ⟨by rw [hst.status, hstatus], by rw [hst.delay, hdelay], ?_⟩
      rw [hread, Visit.read, h.found_base hv hs, Option.getD_some, hclock]
  | false =>
      obtain ⟨r, hr, hpassage⟩ := h.passage_added hbase e
      have hadded : v.stopTime = none := Option.not_isSome_iff_eq_none.1
        (by simpa [Visit.isBase] using hbase)
      obtain ⟨hstatus, hdelay, htime⟩ := h.added v hv hadded e
      rw [hpassage]
      refine ⟨?_, by rw [hst.delay, hdelay], by rw [hread, hr],
        by rw [hst.time, htime]⟩
      rw [StopTimeUpdate.isStopEventAdded, hst.status]
      exact hstatus

/-- The run over the stops of such a feed, and what it says about each. -/
theorem Inserts.resolves
    (h : Inserts new visits) :
    ∃ fs,
      List.Forall₂ (FeedStop.Resolves (withStops new visits))
        (yieldNextStopFromTripUpdate (withStops new visits) none) fs ∧
      InFeed (withStops new visits) 0 fs ∧
      List.Forall₂ (fun f p => ∀ e, f.Says e (p.get e)) fs
        (visits.map (Visit.passages new.navitiaVj.stopTimes)) := by
  have hplaced := withStops_placedAs new visits
  have hids :
      List.Forall₂ (fun s st => s.stopId = some st.stopId)
        (visits.map (Visit.read new.navitiaVj.stopTimes))
        (withStops new visits).stopTimeUpdates := by
    rw [List.forall₂_map_left_iff]
    refine hplaced.flip.imp (fun v st hst => ?_)
    rw [hst.stopId, Visit.read]
    cases hfind : findStInVj v.stu.stopId new.navitiaVj.stopTimes with
    | none =>
        rfl
    | some s =>
        exact findStInVj_stopId hfind
  have hindexed : Indexed (withStops new visits).stopTimeUpdates :=
    orderingList_indexed _
  obtain ⟨fs, hfs, hin, hnav, hnew⟩ :=
    baseSchedule_resolves hindexed List.drop_zero hids
  refine ⟨fs, ?_, hin, ?_⟩
  · have hyield := h.yieldNextStopFrom_eq (fun v hv => hv) hplaced 0
    rw [← hyield] at hfs
    exact hfs
  · rw [RelatedLists.map_eq_map_iff] at hnav
    rw [← hnew, List.forall₂_map_left_iff] at hplaced
    rw [List.forall₂_map_right_iff]
    have hboth :
        List.Forall₂
          (fun v f => v ∈ visits ∧
            f.navitiaStop = v.read new.navitiaVj.stopTimes ∧
            PlacedAs f.newSt v) visits fs :=
      (List.forall₂_and_left _ _).2 ⟨fun v hv => hv,
        (hnav.mp (fun _ _ h h' => ⟨h, h'⟩) hplaced).flip⟩
    refine hboth.flip.imp (fun f v hv e => ?_)
    rw [Visit.passages_get]
    exact h.says_passage hv.1 hv.2.1 hv.2.2 e

/-- The wanted datetimes of a stop are its own. -/
theorem Inserts.passages_wanted
    (h : Inserts new visits) {v : Visit} (hv : v ∈ visits) :
    (v.passages new.navitiaVj.stopTimes).map Passage.wanted =
      v.times.map some := by
  have hwanted :
      ∀ e, (v.passage new.navitiaVj.stopTimes e).wanted =
        some (v.times.get e) := by
    intro e
    cases hbase : v.isBase with
    | true =>
        rw [h.passage_base hv hbase]
        rfl
    | false =>
        obtain ⟨r, -, hr⟩ := h.passage_added hbase e
        rw [hr]
        rfl
  exact congrArg₂ Events.mk (hwanted .arrival) (hwanted .departure)

theorem Inserts.map_passages_wanted
    (h : Inserts new visits) :
    (visits.map (Visit.passages new.navitiaVj.stopTimes)).map
        (Events.map Passage.wanted) =
      visits.map (fun v => v.times.map some) := by
  rw [List.map_map]
  exact List.map_congr_left (fun v hv => h.passages_wanted hv)

theorem Inserts.list_passages_wanted
    (h : Inserts new visits) :
    (Events.list (visits.map (Visit.passages new.navitiaVj.stopTimes))).map
        Passage.wanted =
      (Events.list (visits.map Visit.times)).map some := by
  rw [← Events.list_map, h.map_passages_wanted, ← Events.list_map,
    List.map_map]
  rfl

/-- Every event is read, those of the base stops with the right clock. -/
theorem Inserts.passages_read
    (h : Inserts new visits) :
    ∀ p ∈ Events.list (visits.map (Visit.passages new.navitiaVj.stopTimes)),
      p.reading.isSome ∧ p.ReadRight := by
  rw [Events.forall_mem_list, List.forall_mem_map]
  intro v hv e
  rw [Visit.passages_get]
  cases hbase : v.isBase with
  | true =>
      rw [h.passage_base hv hbase]
      exact ⟨rfl, rfl⟩
  | false =>
      obtain ⟨r, -, hr⟩ := h.passage_added hbase e
      rw [hr]
      exact ⟨rfl, trivial⟩

theorem Inserts.passages_base
    (h : Inserts new visits) {vs : List Visit} (hvs : ∀ v ∈ vs, v ∈ visits) :
    (Events.list (vs.map (Visit.passages new.navitiaVj.stopTimes))).filterMap
        Passage.base =
      Events.list ((vs.filter Visit.isBase).map Visit.times) := by
  induction vs with
  | nil =>
      rfl
  | cons v vs ih =>
      rw [List.forall_mem_cons] at hvs
      cases hbase : v.isBase with
      | true =>
          have hpassage := h.passage_base hvs.1 hbase
          simp [Events.list, Visit.passages, hpassage, Passage.base,
            ih hvs.2, Events.get, hbase]
      | false =>
          obtain ⟨ra, -, hra⟩ := h.passage_added hbase .arrival
          obtain ⟨rd, -, hrd⟩ := h.passage_added hbase .departure
          simp only [List.map_cons, Events.list, Visit.passages, hra, hrd]
          rw [List.filterMap_cons_none rfl, List.filterMap_cons_none rfl,
            ih hvs.2, List.filter_cons_of_neg (by simp [hbase])]

/-- The stops recorded for such a feed with nothing stored. -/
def insertedRun (new : NewTripUpdate) (visits : List Visit) :
    List StopTimeUpdate :=
  (merge new.navitiaVj none (withStops new visits) true).res.stopTimeUpdates

theorem Inserts.carriesDelays
    (h : Inserts new visits) :
    FeedCarriesDelays (withStops new visits) := by
  intro st hst e hupdate
  obtain ⟨v, hv, hplaced⟩ :=
    RelatedLists.exists_of_mem_left (withStops_placedAs new visits) hst
  rw [hplaced.status] at hupdate
  cases hs : v.stopTime with
  | some s =>
      rw [((h.base v hv s hs).2 e).2.1] at hupdate
      cases hupdate
  | none =>
      have hadded := (h.added v hv hs e).1
      rw [StopTimeUpdate.isStopEventAdded, hupdate] at hadded
      cases hadded

theorem Inserts.run
    (hstatus : new.status ≠ .delete) (h : Inserts new visits) :
    ∃ fs,
      List.Forall₂ (fun f p => ∀ e, f.Says e (p.get e)) fs
        (visits.map (Visit.passages new.navitiaVj.stopTimes)) ∧
      insertedRun new visits =
        (turns (startCalendar new.vj) none fs).map MergedStop.resSt := by
  obtain ⟨fs, hfs, hin, hsaid⟩ := h.resolves
  have hstatus' : (withStops new visits).status ≠ .delete := hstatus
  refine ⟨fs, hsaid,
    merge_fresh hstatus' h.carriesDelays hfs hin (fun hnil => ?_)⟩
  subst hnil
  have hvisits : visits = [] := by
    simpa using hsaid.length_eq.symm
  rw [hvisits]
  rfl

/-- The recorded datetimes are the wanted ones when the midnights are kept. -/
theorem Inserts.recorded_iff
    (hstatus : new.status ≠ .delete) (h : Inserts new visits) :
    List.Forall₂ RecordedAt (visits.map (fun v => v.times.map some))
        (insertedRun new visits) ↔
      MidnightsKept new.vj.getCirculationDate new.navitiaVj.stopTimes
        visits := by
  obtain ⟨fs, hsaid, hrun⟩ := h.run hstatus
  have hread := h.passages_read
  have hbase := h.passages_base (fun v hv => hv)
  have hwanted := h.map_passages_wanted
  have htimes := h.list_passages_wanted
  unfold MidnightsKept
  generalize visits.map (Visit.passages new.navitiaVj.stopTimes) = ps
    at hsaid hread hbase hwanted htimes ⊢
  have hstart : (startCalendar new.vj).Undelayed := rfl
  have hahead :
      (startCalendar new.vj).Ahead new.vj.getCirculationDate none :=
    le_refl new.vj.getCirculationDate
  have hfollows := h.follows
  rw [← hbase] at hfollows
  have horder : InOrder none ((Events.list ps).map Passage.wanted) := by
    rw [htimes, inOrder_map_some]
    exact h.chronological
  have haim :
      runningMax none (targets (startCalendar new.vj) (Events.list ps)) =
          (Events.list ps).map Passage.wanted ↔
        targets (startCalendar new.vj) (Events.list ps) =
          (Events.list ps).map Passage.wanted := by
    constructor
    · exact hahead.targets_of_runningMax hstart hread hfollows
    · intro htargets
      rw [htargets]
      exact horder.runningMax_eq
  rw [hrun, ← hwanted, recorded_wanted_iff hsaid, haim,
    hstart.targets_eq_iff hread]
  exact Iff.rfl

/-- Without added stops every stop is recorded at its base datetimes. -/
theorem Inserts.recorded_of_base
    (hstatus : new.status ≠ .delete) (h : Inserts new visits)
    (hall : ∀ v ∈ visits, v.isBase = true) :
    List.Forall₂ RecordedAt (visits.map (fun v => v.times.map some))
      (insertedRun new visits) := by
  obtain ⟨fs, hsaid, hrun⟩ := h.run hstatus
  have hkept :
      ∀ p ∈ Events.list (visits.map (Visit.passages new.navitiaVj.stopTimes)),
        p.KeptOrSkipped := by
    rw [Events.forall_mem_list, List.forall_mem_map]
    intro v hv e
    rw [Visit.passages_get, h.passage_base hv (hall v hv)]
    trivial
  have hread := h.passages_read
  have htimes := h.list_passages_wanted
  have horder := (inOrder_map_some _).2 h.chronological
  have hfollows := h.follows
  rw [List.filter_eq_self.2 hall] at hfollows
  rw [← htimes] at horder
  rw [hrun, ← h.map_passages_wanted, recorded_wanted_iff hsaid]
  have htargets : targets (startCalendar new.vj) _ = _ :=
    (targets_start_eq_iff hkept new.vj.getCirculationDate horder).2 ?_
  · rw [htargets]
    exact horder.runningMax_eq
  · rw [htimes]
    have hlist : ((Events.list (visits.map Visit.times)).map
        some).reduceOption = Events.list (visits.map Visit.times) := by
      simp [List.reduceOption]
    rw [hlist]
    exact ⟨fun p hp => (hread p hp).2, hfollows.starts rfl,
      hfollows.chain.imp (fun _ _ hgap => hgap.2)⟩

/-- The recorded datetimes of the two events of a stop. -/
def recordedTimes (st : StopTimeUpdate) : Option Datetime × Option Datetime :=
  (st.arrival, st.departure)

/--
The base stops of a feed have the datetimes they have without the added stops,
and the added stops have their own.
-/
structure KeepsBaseStops
    (visits : List Visit) (published baseOnly : List StopTimeUpdate) :
    Prop where
  length : published.length = visits.length
  base :
    ((visits.zip published).filter (fun p => p.1.isBase)).map
        (fun p => recordedTimes p.2) = baseOnly.map recordedTimes
  added : ∀ p ∈ visits.zip published, p.1.isBase = false →
    RecordedAt (p.1.times.map some) p.2

theorem recordedAt_iff
    (v : Visit) (st : StopTimeUpdate) :
    RecordedAt (v.times.map some) st ↔
      recordedTimes st = (some v.times.arrival, some v.times.departure) := by
  rw [recordedTimes, Prod.mk.injEq]
  simp only [RecordedAt, Events.get_map, Option.mem_def, Option.some.injEq,
    forall_eq']
  exact StopEvent.forall_iff

/-- The base stops among stops paired with their recorded ones. -/
theorem zip_filter_isBase
    {published : List StopTimeUpdate}
    (hlen : published.length = visits.length) :
    ((visits.zip published).filter (fun p => p.1.isBase)).map Prod.fst =
      visits.filter Visit.isBase := by
  have hfst : (visits.zip published).map Prod.fst = visits :=
    List.map_fst_zip (by omega)
  conv_rhs => rw [← hfst, List.filter_map]
  rfl

theorem keepsBaseStops_iff
    {published baseOnly : List StopTimeUpdate}
    (hbase : List.Forall₂ RecordedAt
      ((visits.filter Visit.isBase).map (fun v => v.times.map some)) baseOnly) :
    KeepsBaseStops visits published baseOnly ↔
      List.Forall₂ RecordedAt (visits.map (fun v => v.times.map some))
        published := by
  have hbaseOnly :
      baseOnly.map recordedTimes =
        (visits.filter Visit.isBase).map
          (fun v => (some v.times.arrival, some v.times.departure)) := by
    rw [List.forall₂_map_left_iff] at hbase
    rw [RelatedLists.map_eq_map_iff]
    exact hbase.flip.imp (fun st v hst => (recordedAt_iff v st).1 hst)
  rw [List.forall₂_map_left_iff, List.forall₂_iff_zip]
  constructor
  · intro h
    refine ⟨h.length.symm, fun {v st} hp => ?_⟩
    cases hv : v.isBase with
    | false =>
        exact h.added (v, st) hp hv
    | true =>
        have hmap := h.base
        rw [hbaseOnly, ← zip_filter_isBase h.length, List.map_map,
          List.map_inj_left] at hmap
        exact (recordedAt_iff v st).2
          (hmap (v, st) (List.mem_filter.2 ⟨hp, hv⟩))
  · rintro ⟨hlen, hall⟩
    refine ⟨hlen.symm, ?_, fun p hp _ => hall hp⟩
    rw [hbaseOnly, ← zip_filter_isBase hlen.symm, List.map_map,
      List.map_inj_left]
    intro p hp
    exact (recordedAt_iff p.1 p.2).1 (hall (List.mem_of_mem_filter hp))

/--
Adding stops to a complete feed leaves the base stops where they are, exactly
when the times of day read fall as many times as midnights pass.
-/
theorem insertedStops_keep_iff
    (hstatus : new.status ≠ .delete) (h : Inserts new visits) :
    KeepsBaseStops visits
        (merge new.navitiaVj none (withStops new visits)
          true).res.stopTimeUpdates
        (merge new.navitiaVj none
          (withStops new (visits.filter Visit.isBase))
          true).res.stopTimeUpdates ↔
      MidnightsKept new.vj.getCirculationDate new.navitiaVj.stopTimes
        visits := by
  have hbase :=
    h.baseOnly.recorded_of_base hstatus (fun v hv => (List.mem_filter.1 hv).2)
  rw [← h.recorded_iff hstatus]
  exact keepsBaseStops_iff hbase

end Visits

namespace Sample

/-- A base stop of a feed that leaves it as it is. -/
def baseVisit (id : String) (arrival departure : Datetime) : Visit where
  stu := unchanged id 0
  times := { arrival := arrival, departure := departure }
  stopTime := some (stopTime id arrival departure)

/-- A stop added at a given datetime. -/
def addedVisit (id : String) (time : Datetime) : Visit where
  stu :=
    { unchanged id 0 with
      arrival := some time
      departure := some time
      arrivalStatus := .add
      departureStatus := .add }
  times := { arrival := time, departure := time }
  stopTime := none

def threeVisits : List Visit :=
  [baseVisit "sp:a" (clock 8 0) (clock 8 0),
    baseVisit "sp:b" (clock 8 5) (clock 8 6),
    baseVisit "sp:c" (clock 8 20) (clock 8 20)]

/-- The feed on three stops, with one added between two of them. -/
def detour : List Visit :=
  threeVisits.insertIdx 1 (addedVisit "sp:x" (clock 8 2))

/-- The feed on three stops, with one added in the evening before. -/
def eveningBefore : List Visit :=
  addedVisit "sp:x" (clock (-2) 0) :: threeVisits

theorem detour_inserts :
    Inserts onTime detour := by
  constructor <;> decide

theorem eveningBefore_inserts :
    Inserts onTime eveningBefore := by
  constructor <;> decide

end Sample

theorem insertedStops_keep_iff_detour :
    KeepsBaseStops Sample.detour
        (merge Sample.onTime.navitiaVj none
          (withStops Sample.onTime Sample.detour) true).res.stopTimeUpdates
        (merge Sample.onTime.navitiaVj none
          (withStops Sample.onTime (Sample.detour.filter Visit.isBase))
          true).res.stopTimeUpdates ↔
      MidnightsKept Sample.onTime.vj.getCirculationDate
        Sample.onTime.navitiaVj.stopTimes Sample.detour :=
  insertedStops_keep_iff (by decide) Sample.detour_inserts

/-- A first stop added before midnight puts the base stops one day later. -/
theorem insertedStops_shift_eveningBefore :
    Inserts Sample.onTime Sample.eveningBefore ∧
      ¬ KeepsBaseStops Sample.eveningBefore
        (merge Sample.onTime.navitiaVj none
          (withStops Sample.onTime Sample.eveningBefore)
          true).res.stopTimeUpdates
        (merge Sample.onTime.navitiaVj none
          (withStops Sample.onTime
            (Sample.eveningBefore.filter Visit.isBase))
          true).res.stopTimeUpdates := by
  refine ⟨Sample.eveningBefore_inserts, fun h => ?_⟩
  exact absurd h.base (by decide)

end Core
end Kirin
