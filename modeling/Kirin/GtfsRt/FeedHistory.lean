import Kirin.Core.CompleteReplacement
import Kirin.Core.Resending
import Kirin.GtfsRt.BuilderRules

/-!
# Kirin: GTFS-RT feeds one after the other

Each feed lists all the stops of the vehicle journey, so that what is left for
the trip does not depend on the earlier feeds: either the stops recorded for the
feed replace the stored ones, or they are the stored ones.

* `Leaves`: what is left by a feed, whatever was left before.
* `LeftByFeeds`: what earlier feeds on a vehicle journey can leave stored.
* `makeTripUpdate_resendable`: sending a feed twice is harmless.
-/

namespace Kirin
namespace GtfsRt

open Kirin.Core
open FeedStop

/-- A stored trip that has the stops of the vehicle journey in their order. -/
def SameStops (navitiaVj : NavitiaVj) (old : Option TripUpdate) : Prop :=
  ∀ row ∈ old, Indexed row.stopTimeUpdates ∧
    row.stopTimeUpdates.length = navitiaVj.stopTimes.length

section Feed

variable {navitiaVj : NavitiaVj} {new : NewTripUpdate}
variable {delays : List (Events Timedelta)}

/-- The run over the stops made by the builder, whatever is stored. -/
theorem Builds.resolves
    (h : Builds navitiaVj.stopTimes delays new.stopTimeUpdates) :
    ∃ fs,
      (∀ db, List.Forall₂ (Resolves new)
        (stopsToGoThrough navitiaVj db new false) fs) ∧
      InFeed new 0 fs ∧ fs.map FeedStop.navitiaStop = navitiaVj.stopTimes ∧
      fs.map FeedStop.newSt = new.stopTimeUpdates := by
  obtain ⟨fs, hfs, hin, hnav, hnew⟩ :=
    baseSchedule_resolves h.indexed List.drop_zero h.stops
  refine ⟨fs, fun db => ?_, hin, hnav, hnew⟩
  simpa [stopsToGoThrough, yieldNextStopFromBaseScheduleVj, numbered] using hfs

/-- Stops that are all found in a list of the same length are this list. -/
theorem eq_of_found
    {stored recorded : List StopTimeUpdate}
    (hstored : Indexed stored) (hrecorded : Indexed recorded)
    (hlen : stored.length = recorded.length)
    (hfound : ∀ st ∈ recorded,
      findStopIn stored (some st.stopId) st.order = some st) :
    stored = recorded := by
  by_contra hne
  obtain ⟨extra, hextra, rfl⟩ :=
    (removesOnly_iff_of_indexed hstored hrecorded).1 ⟨hfound, hne⟩
  rw [List.length_append] at hlen
  exact hextra (List.eq_nil_of_length_eq_zero (by omega))

/-- A feed leaves the stops recorded for its run, whatever was stored. -/
structure Leaves
    (b : Builder) (navitiaVj : NavitiaVj) (old : Option TripUpdate)
    (new : NewTripUpdate) (fs : List FeedStop) (changed : Bool) : Prop where
  navitiaStops : fs.map FeedStop.navitiaStop = navitiaVj.stopTimes
  newSts : fs.map FeedStop.newSt = new.stopTimeUpdates
  indexed : Indexed (recordedStops new fs)
  stops : (processTripUpdate b old new).tripUpdate.stopTimeUpdates =
    recordedStops new fs
  returned : (merge navitiaVj old new false).returned = .ok changed
  linked : (processTripUpdate b old new).linked =
    .ok (changed && (manageConsistency (recordedStops new fs)).1)
  fresh : old = none → changed = !fs.isEmpty

theorem Leaves.length
    {b : Builder} {old : Option TripUpdate} {fs : List FeedStop}
    {changed : Bool} (h : Leaves b navitiaVj old new fs changed) :
    (recordedStops new fs).length = navitiaVj.stopTimes.length := by
  rw [recordedStops, List.length_map, turns_length, ← h.navitiaStops,
    List.length_map]

/-- The stops left by a run that finds no change are those recorded for it. -/
theorem unchanged_stops
    {old : Option TripUpdate} {fs : List FeedStop}
    (hold : SameStops navitiaVj old)
    (hfs : List.Forall₂ (Resolves new)
      (stopsToGoThrough navitiaVj old new false) fs)
    (hnav : fs.map FeedStop.navitiaStop = navitiaVj.stopTimes)
    (hnew : fs.map FeedStop.newSt = new.stopTimeUpdates)
    (hindexed : Indexed (recordedStops new fs))
    (hany : (turns (startCalendar new.vj) none fs).any (changes old) = false) :
    (old.getD new.toTripUpdate).stopTimeUpdates = recordedStops new fs := by
  cases old with
  | none =>
      cases fs with
      | nil =>
          exact hnew.symm
      | cons f fs =>
          cases hany
  | some row =>
      rcases hold row rfl with ⟨hrow, hlen⟩
      have hlength :
          row.stopTimeUpdates.length = (recordedStops new fs).length := by
        rw [hlen, recordedStops, List.length_map, turns_length, ← hnav,
          List.length_map]
      exact eq_of_found hrow hindexed hlength
        ((changes_turns_iff hfs _ _).1 hany)

/-- A feed made by the builder leaves the stops recorded for its run. -/
theorem Builds.left
    {b : Builder} (hb : b.connector = .gtfsRt) (hstatus : new.status ≠ .delete)
    (hvj : new.navitiaVj = navitiaVj)
    (h : Builds navitiaVj.stopTimes delays new.stopTimeUpdates)
    {old : Option TripUpdate} (hold : SameStops navitiaVj old) :
    ∃ fs changed, Leaves b navitiaVj old new fs changed := by
  obtain ⟨fs, hfs, hin, hnav, hnew⟩ := h.resolves
  have hindexed : Indexed (recordedStops new fs) :=
    hin.turns_indexed h.indexed hnew (startCalendar new.vj) none
  have hcomplete : b.isNewComplete = false := by
    simp [Builder.isNewComplete, hb]
  have hrun := mergeStops_eq (hfs old)
  rw [tryTurns_of_delays _ _
    (fun f hf => h.carriesDelays f.newSt (hin.newSt_mem hf))] at hrun
  simp only [Except.map] at hrun
  have hprocess := hrun
  rw [← hcomplete, ← hvj] at hprocess
  refine ⟨fs, (turns (startCalendar new.vj) none fs).any (changes old), hnav,
    hnew, hindexed, ?_, ?_, processTripUpdate_linked hstatus hprocess, ?_⟩
  · cases hany :
        (turns (startCalendar new.vj) none fs).any (changes old) with
    | true =>
        rw [hany] at hprocess
        rw [processTripUpdate_changed hstatus hprocess,
          reloadStops_manageConsistency
            (fun f hf => h.carriesDelays f.newSt (hin.newSt_mem hf)) hin]
        rfl
    | false =>
        rw [hany] at hprocess
        rw [processTripUpdate_unchanged hstatus hprocess]
        exact unchanged_stops hold (hfs old) hnav hnew hindexed hany
  · exact congrArg MergeOutcome.returned (merge_of_stops hstatus hrun)
  · rintro rfl
    cases fs <;> rfl

/-- A trip update made by the builder changes nothing the second time. -/
theorem makeTripUpdate_resendable
    {b : Builder} (hb : b.connector = .gtfsRt) {contributorId : String}
    {vj : VehicleJourney} {stops : List InputStopTime}
    (h : makeTripUpdate contributorId vj navitiaVj stops = some new)
    (old : Option TripUpdate) :
    Resendable b old new := by
  obtain ⟨-, rfl, hstatus, hbuilds⟩ := makeTripUpdate_builds h
  have hcomplete : b.isNewComplete = false := by
    simp [Builder.isNewComplete, hb]
  refine ⟨by simp [hstatus], ⟨?_, Or.inr (fun r _ hc => ?_)⟩, fun _ => ?_⟩
  · rw [FitsBuilder, hcomplete]
    exact hbuilds.fits
  · rw [hcomplete] at hc
    cases hc
  · intro st hst
    exact hbuilds.carriesDelays st
      ((stopsKept_sublist b old new).subset hst)

end Feed

/-- What the earlier feeds on a vehicle journey can leave stored. -/
inductive LeftByFeeds (b : Builder) (navitiaVj : NavitiaVj) :
    Option TripUpdate → Prop
  | nothing : LeftByFeeds b navitiaVj none
  | feed {old : Option TripUpdate} {contributorId : String}
      {vj : VehicleJourney} {stops : List InputStopTime} {new : NewTripUpdate}
      (earlier : LeftByFeeds b navitiaVj old)
      (made : makeTripUpdate contributorId vj navitiaVj stops = some new) :
      LeftByFeeds b navitiaVj (storedAfter b old new)

/-- The earlier feeds leave the stops of the vehicle journey. -/
theorem LeftByFeeds.sameStops
    {b : Builder} (hb : b.connector = .gtfsRt) {navitiaVj : NavitiaVj}
    {old : Option TripUpdate} (h : LeftByFeeds b navitiaVj old) :
    SameStops navitiaVj old := by
  induction h with
  | nothing =>
      rintro row ⟨⟩
  | @feed old contributorId vj stops new earlier made ih =>
      obtain ⟨-, hvj, hstatus, hbuilds⟩ := makeTripUpdate_builds made
      obtain ⟨fs, changed, hleft⟩ :=
        hbuilds.left hb (by simp [hstatus]) hvj ih
      intro row hrow
      unfold storedAfter at hrow
      split at hrow
      · cases hrow
        rw [hleft.stops]
        exact ⟨hleft.indexed, hleft.length⟩
      · cases hrow

namespace Sample

/-- The GTFS-RT builder of the examples. -/
def gtfsRt : Builder where
  contributorId := "realtime.gtfs"
  connector := .gtfsRt

/-- A trip that starts in the evening. -/
def nightTrip : VehicleJourney :=
  Core.Sample.trip (Core.Sample.clock 23 50)

end Sample

end GtfsRt
end Kirin
