import Kirin.GtfsRt.FeedHistory

/-!
# Kirin: base schedules with null times

A stop of a GTFS-RT feed counts as served even when its base time is null.  Such
an event hides the previous one from the midnight detection, so that the next
event stays on the same date.

* `NullsWithinDay`: no midnight passes between the events around null ones.
* `runningMax_ofTime_iff`: without delays the recorded datetimes are the base ones
  exactly then.
* `gtfsRt_nullTimes_iff`: so it is for a feed without delays, whatever earlier
  feeds have left.
-/

namespace Kirin
namespace GtfsRt

open Kirin.Core
open FeedStop

/-- What a feed without delays says about an event, from its base datetime. -/
def ofTime : Option Datetime → Passage
  | none => .untimed
  | some t => .scheduled (Datetime.time t) t

@[simp] theorem wanted_ofTime
    (time : Option Datetime) :
    (ofTime time).wanted = time := by
  cases time <;> rfl

/--
The events on both sides of null ones are on the same date: an event followed by
a null one is on the date of the next event that has a datetime.
-/
def NullsWithinDay : List (Option Datetime) → Prop
  | [] => True
  | none :: times => NullsWithinDay times
  | some t :: times =>
      (times.head? = some none → ∀ t' ∈ times.reduceOption.head?,
        Datetime.date t' = Datetime.date t) ∧ NullsWithinDay times

/-- The events that have a datetime follow each other within a day. -/
abbrev WithinDay (times : List Datetime) : Prop :=
  times.IsChain (fun t t' => t ≤ t' ∧ t' - t < day)

section Calendar

variable {c : Calendar} {t : Datetime} {times : List (Option Datetime)}

/-- A null time hides the last event. -/
theorem after_untimed
    (c : Calendar) :
    c.after .untimed = Calendar.atStart c.circulationDate :=
  rfl

/-- What is recorded, after an event or once it is hidden by a null time. -/
theorem runningMax_ofTime_iff
    (hchain : WithinDay (t :: times.reduceOption)) :
    (∀ c : Calendar, c.At t 0 →
      (runningMax (some t) (targets c (times.map ofTime)) = times ↔
        NullsWithinDay (some t :: times))) ∧
    (runningMax (some t)
        (targets (Calendar.atStart (Datetime.date t)) (times.map ofTime)) =
          times ↔
      (∀ t' ∈ times.reduceOption.head?,
          Datetime.date t' = Datetime.date t) ∧
        NullsWithinDay times) := by
  induction times generalizing t with
  | nil =>
      simp [targets, runningMax, NullsWithinDay]
  | cons time times ih =>
      cases time with
      | none =>
          obtain ⟨-, hblind⟩ := ih hchain
          have hnone :
              ∀ c : Calendar, c.circulationDate = Datetime.date t →
                targets c ((none :: times).map ofTime) =
                  none :: targets (Calendar.atStart (Datetime.date t))
                    (times.map ofTime) := by
            intro c hc
            rw [List.map_cons, targets, ofTime, after_untimed, hc]
            rfl
          constructor
          · intro c hc
            rw [hnone c hc.date, runningMax_none, List.cons.injEq, hblind]
            simp [NullsWithinDay]
          · rw [hnone _ rfl, runningMax_none, List.cons.injEq, hblind]
            simp [NullsWithinDay]
      | some b =>
          rw [List.reduceOption_cons_of_some, WithinDay,
            List.isChain_cons_cons] at hchain
          rcases hchain with ⟨⟨hle, hgap⟩, hchain⟩
          obtain ⟨hafter, -⟩ := ih hchain
          have hmax : max t b = b := max_eq_right hle
          constructor
          · intro c hc
            have hnext : nextAt t (Datetime.time b) = b :=
              (nextAt_eq_iff hle _).2 ⟨rfl, hgap⟩
            have hat := hc.after (Datetime.time b) b
            rw [hnext] at hat
            rw [List.map_cons, ofTime, targets, hc.target, hnext,
              runningMax_some, atLeast_some, hmax, List.cons.injEq,
              hafter _ hat]
            simp [NullsWithinDay]
          · have hhead :
                max t (combine (Datetime.date t) (Datetime.time b)) = b ↔
                  Datetime.date b = Datetime.date t := by
              constructor
              · intro h
                rcases max_choice t
                  (combine (Datetime.date t) (Datetime.time b)) with ht | hb
                · rw [← h, ht]
                · rw [hb, combine_eq_iff] at h
                  exact h.1.symm
              · intro h
                rw [← h, combine_date_time, hmax]
            have htarget :
                (Calendar.atStart (Datetime.date t)).target
                    (.scheduled (Datetime.time b) b) =
                  some (combine (Datetime.date t) (Datetime.time b)) := rfl
            rw [List.map_cons, ofTime, targets, htarget, runningMax_some,
              atLeast_some, List.cons.injEq, Option.some.injEq, hhead,
              List.reduceOption_cons_of_some, List.head?_cons]
            simp only [Option.mem_def, Option.some.injEq, forall_eq']
            refine and_congr_right (fun hdate => ?_)
            have hat :=
              Calendar.atStart_after (Datetime.date b) (Datetime.time b) b
            rw [combine_date_time, hdate] at hat
            rw [hhead.2 hdate]
            exact hafter _ hat

/-- From the start of a trip, on the date of its first event. -/
theorem runningMax_ofTime_start_iff
    {start : Date} (hchain : WithinDay times.reduceOption)
    (hstart : ∀ t ∈ times.reduceOption.head?, Datetime.date t = start) :
    runningMax none (targets (Calendar.atStart start) (times.map ofTime)) =
        times ↔
      NullsWithinDay times := by
  induction times with
  | nil =>
      simp [targets, runningMax, NullsWithinDay]
  | cons time times ih =>
      cases time with
      | none =>
          rw [List.map_cons, targets, ofTime, after_untimed]
          rw [show (Calendar.atStart start).target .untimed = none from rfl,
            runningMax_none, List.cons.injEq, ih hchain hstart]
          simp [NullsWithinDay]
      | some b =>
          have hdate : Datetime.date b = start := hstart b rfl
          subst hdate
          have htarget :
              (Calendar.atStart (Datetime.date b)).target
                  (.scheduled (Datetime.time b) b) = some b := by
            rw [Calendar.target, Calendar.atStart_stopEvent]
          have hat :=
            Calendar.atStart_after (Datetime.date b) (Datetime.time b) b
          rw [combine_date_time] at hat
          rw [List.map_cons, ofTime, targets, htarget, runningMax_some,
            atLeast_none, List.cons.injEq,
            (runningMax_ofTime_iff hchain).1 _ hat]
          simp

end Calendar

section Feed

variable {b : Builder} {contributorId : String} {vj : VehicleJourney}
variable {navitiaVj : NavitiaVj} {feed : List InputStopTime}
variable {old : Option TripUpdate} {new : NewTripUpdate}
variable {base : List (Events (Option Datetime))}

/-- Without delays the feed gives none to any stop. -/
theorem givenDelays_of_zero
    (hzero : ∀ s ∈ feed, s.arrivalDelay = 0 ∧ s.departureDelay = 0)
    (stops : Nat) :
    ∀ d ∈ givenDelays stops feed, d = noDelays := by
  intro d hd
  rcases List.mem_append.1 hd with hd | hd
  · exact List.eq_of_mem_replicate hd
  · obtain ⟨s, hs, rfl⟩ := List.mem_map.1 hd
    obtain ⟨ha, hdep⟩ := hzero s hs
    simp [inputDelays, noDelays, ha, hdep]

/-- What a feed without delays says about the stops of the run. -/
theorem says_ofTime
    {fs : List FeedStop} {delays : List (Events Timedelta)}
    (hzero : ∀ d ∈ delays, d = noDelays)
    (hnav : fs.map FeedStop.navitiaStop = navitiaVj.stopTimes)
    (hnew : fs.map FeedStop.newSt = new.stopTimeUpdates)
    (hclocks : List.Forall₂
      (fun s x => ∀ e, s.utcTime e = (x.get e).map Datetime.time)
      navitiaVj.stopTimes base)
    (hbuilds : Builds navitiaVj.stopTimes delays new.stopTimeUpdates) :
    List.Forall₂ (fun f p => ∀ e, f.Says e (p.get e)) fs
      (base.map (Events.map ofTime)) := by
  have hbuilt := hbuilds.builtWith
  rw [← hnav, List.forall₂_map_left_iff] at hclocks
  rw [← hnew, List.forall₂_map_right_iff] at hbuilt
  rw [List.forall₂_map_right_iff]
  have hnone : ∀ f ∈ fs, ∀ e, f.newSt.getStopEventStatus e = .none ∧
      (f.newSt.getStopEventDelay e).getD 0 = 0 := by
    intro f hf e
    obtain ⟨d, hd, hst⟩ := RelatedLists.exists_of_mem_right hbuilt hf
    refine hst.status_of_zero ?_
    rw [hzero d hd]
    cases e <;> rfl
  refine ((List.forall₂_and_left _ _).2 ⟨hnone, hclocks⟩).imp
    (fun f x hx e => ?_)
  obtain ⟨hstatus, hdelay⟩ := hx.1 e
  have hclock := hx.2 e
  rw [Events.get_map]
  cases htime : x.get e with
  | none =>
      rw [htime] at hclock
      exact ⟨hstatus, hdelay, hclock⟩
  | some t =>
      rw [htime] at hclock
      exact ⟨hstatus, hdelay, hclock⟩

/-- A run whose first stop has a base time is accepted. -/
theorem accepted_ofTime
    {fs : List FeedStop}
    (hsaid : List.Forall₂ (fun f p => ∀ e, f.Says e (p.get e)) fs
      (base.map (Events.map ofTime)))
    (horigin : ∃ x, base.head? = some x ∧ ∃ e, (x.get e).isSome)
    (c : Calendar)
    (hindexed : Indexed ((turns c none fs).map MergedStop.resSt)) :
    fs.isEmpty = false ∧
      (manageConsistency
        ((turns c none fs).map MergedStop.resSt)).1 = true := by
  rcases horigin with ⟨x, hx, e, he⟩
  cases base with
  | nil =>
      cases hx
  | cons x' base =>
      cases hx
      cases hsaid with
      | @cons f p fs ps hf hrest =>
          refine ⟨rfl, ?_⟩
          rw [manageConsistency_accepts_iff (turns_chained _ _ _) hindexed]
          rintro st ⟨⟩
          refine (FeedStop.recorded_arrival_isSome_iff hf c).2 ⟨e, ?_⟩
          simpa using he

/--
A GTFS-RT feed without delays stores every event that has a base datetime there,
whatever earlier feeds have left, exactly when null times stay within a day.
-/
theorem gtfsRt_nullTimes_iff
    (hb : b.connector = .gtfsRt) (hold : LeftByFeeds b navitiaVj old)
    (hnew : makeTripUpdate contributorId vj navitiaVj feed = some new)
    (hzero : ∀ s ∈ feed, s.arrivalDelay = 0 ∧ s.departureDelay = 0)
    (hclocks : List.Forall₂
      (fun s x => ∀ e, s.utcTime e = (x.get e).map Datetime.time)
      navitiaVj.stopTimes base)
    (hchain : WithinDay (Events.list base).reduceOption)
    (hstart : ∀ t ∈ (Events.list base).reduceOption.head?,
      Datetime.date t = vj.getCirculationDate)
    (horigin : ∃ x, base.head? = some x ∧ ∃ e, (x.get e).isSome) :
    (∃ row, storedAfter b old new = some row ∧
        List.Forall₂ RecordedAt base row.stopTimeUpdates) ↔
      NullsWithinDay (Events.list base) := by
  obtain ⟨hvj, hnavitia, hstatus, hbuilds⟩ := makeTripUpdate_builds hnew
  obtain ⟨fs, changed, hleft⟩ :=
    hbuilds.left hb (by simp [hstatus]) hnavitia (hold.sameStops hb)
  have hsaid :=
    says_ofTime (givenDelays_of_zero hzero _) hleft.navitiaStops hleft.newSts
      hclocks hbuilds
  obtain ⟨hne, haccepted⟩ :=
    accepted_ofTime hsaid horigin (startCalendar new.vj) hleft.indexed
  have hstored :
      storedAfter b old new =
        some (processTripUpdate b old new).tripUpdate := by
    cases old with
    | some row =>
        exact storedAfter_some b row new
    | none =>
        refine storedAfter_linked ?_
        rw [hleft.linked, recordedStops, haccepted, hleft.fresh rfl, hne]
        rfl
  have hwanted :
      (base.map (Events.map ofTime)).map (Events.map Passage.wanted) =
        base := by
    have hid : Events.map Passage.wanted ∘ Events.map ofTime = id := by
      funext x
      simp [Events.map]
    rw [List.map_map, hid, List.map_id]
  have htimes :
      ((Events.list base).map ofTime).map Passage.wanted =
        Events.list base := by
    rw [← Events.list_map, ← Events.list_map, hwanted]
  have hrecorded :=
    recorded_wanted_iff hsaid (startCalendar new.vj) none
  rw [hwanted, Events.list_map, htimes] at hrecorded
  rw [← runningMax_ofTime_start_iff hchain hstart, ← hvj]
  refine Iff.trans ?_ hrecorded
  rw [hstored, ← recordedStops, ← hleft.stops]
  simp

end Feed

namespace Sample

/-- A trip that passes midnight after a stop where it only arrives. -/
def nullVj : NavitiaVj where
  stopTimes :=
    [Core.Sample.stopTime "sp:a" (Core.Sample.clock 23 50)
        (Core.Sample.clock 23 50),
      { Core.Sample.stopTime "sp:b" (Core.Sample.clock 23 55)
          (Core.Sample.clock 23 55) with utcDepartureTime := none },
      Core.Sample.stopTime "sp:c" (Core.Sample.clock 24 20)
        (Core.Sample.clock 24 20)]

def nullBase : List (Events (Option Datetime)) :=
  [⟨some (Core.Sample.clock 23 50), some (Core.Sample.clock 23 50)⟩,
    ⟨some (Core.Sample.clock 23 55), none⟩,
    ⟨some (Core.Sample.clock 24 20), some (Core.Sample.clock 24 20)⟩]

/-- A feed on the last stop, without delay. -/
def onTimeFeed : List InputStopTime :=
  [⟨"sp:c", 0, 0⟩]

/-- What the builder makes of the feed. -/
def nullUpdate : NewTripUpdate :=
  (makeTripUpdate "realtime.gtfs" nightTrip nullVj onTimeFeed).getD
    Core.Sample.onTime

theorem nullUpdate_made :
    makeTripUpdate "realtime.gtfs" nightTrip nullVj onTimeFeed =
      some nullUpdate := by
  decide

end Sample

theorem gtfsRt_nullTimes_iff_night :
    (∃ row,
        storedAfter Sample.gtfsRt none Sample.nullUpdate = some row ∧
          List.Forall₂ RecordedAt Sample.nullBase row.stopTimeUpdates) ↔
      NullsWithinDay (Events.list Sample.nullBase) :=
  gtfsRt_nullTimes_iff rfl LeftByFeeds.nothing Sample.nullUpdate_made
    (by decide) (by decide) (by decide) (by decide)
    ⟨_, rfl, .arrival, rfl⟩

/-- The last stop is stored one day too early after a null departure. -/
theorem gtfsRt_nullTimes_misdate_night :
    makeTripUpdate "realtime.gtfs" Sample.nightTrip Sample.nullVj
        Sample.onTimeFeed = some Sample.nullUpdate ∧
      List.Forall₂
        (fun s x => ∀ e, s.utcTime e = (x.get e).map Datetime.time)
        Sample.nullVj.stopTimes Sample.nullBase ∧
      WithinDay (Events.list Sample.nullBase).reduceOption ∧
      (∀ t ∈ (Events.list Sample.nullBase).reduceOption.head?,
        Datetime.date t = Sample.nightTrip.getCirculationDate) ∧
      ¬ ∃ row,
        storedAfter Sample.gtfsRt none Sample.nullUpdate = some row ∧
          List.Forall₂ RecordedAt Sample.nullBase row.stopTimeUpdates := by
  refine ⟨Sample.nullUpdate_made, by decide, by decide, by decide, ?_⟩
  rintro ⟨row, hrow, hrecorded⟩
  have hwrong :
      ∀ row ∈ storedAfter Sample.gtfsRt none Sample.nullUpdate,
        ¬ List.Forall₂ RecordedAt Sample.nullBase row.stopTimeUpdates := by
    decide
  exact hwrong row hrow hrecorded

end GtfsRt
end Kirin
