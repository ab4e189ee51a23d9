import Kirin.Core.AcceptedChronology

/-!
# Kirin: replacement of the stored stops by a complete feed

A complete feed replaces the stored stops as soon as one of its own stops is
new or different.  The stops are looked up one by one, so that a feed which
merely drops stops goes unnoticed.

* `completeSchedule`: the stops recorded for a feed, from the feed and the
  schedule of the vehicle journey alone.
* `RemovesOnly`: every stop of the feed is already stored as it is, and the
  stored list is not the list of these stops.
* `removesOnly_iff_of_indexed`: on an indexed list, this means that the feed
  drops the last stops.
* `completeFeed_replaces_iff`: the stored stops are replaced exactly when the
  feed does not merely drop stops.
-/

namespace Kirin
namespace Core

open FeedStop

/-- The stops of a complete feed that belong to the vehicle journey. -/
def scheduledStops (vjSts : List StopTime) :
    Nat → List StopTimeUpdate → List FeedStop
  | _, [] => []
  | order, newStu :: rest =>
      let next := scheduledStops vjSts (order + 1) rest
      match findStInVj newStu.stopId vjSts with
      | none => next
      | some vjSt =>
          match vjSt.stopPoint with
          | none => next
          | some stopPoint =>
              { order := order
                navitiaStop := vjSt
                stopPoint := stopPoint
                newSt := newStu } :: next

/-- The stops recorded for a complete feed on the vehicle journey alone. -/
def completeSchedule (new : NewTripUpdate) : List StopTimeUpdate :=
  (turns (startCalendar new.vj) none
    (scheduledStops new.navitiaVj.stopTimes 0 new.stopTimeUpdates)).map
      MergedStop.resSt

/-- The feed is already stored, next to stops it does not have. -/
def RemovesOnly (stored schedule : List StopTimeUpdate) : Prop :=
  (∀ st ∈ schedule, findStopIn stored (some st.stopId) st.order = some st) ∧
    stored ≠ schedule

instance (stored schedule : List StopTimeUpdate) :
    Decidable (RemovesOnly stored schedule) :=
  inferInstanceAs (Decidable (_ ∧ _))

section Scheduled

variable {new : NewTripUpdate}

/-- A feed on the vehicle journey is resolved without the stored stops. -/
theorem scheduledStops_resolves
    (db : Option TripUpdate) (vjSts : List StopTime)
    (hindexed : Indexed new.stopTimeUpdates)
    {j : Nat} {stus : List StopTimeUpdate}
    (hdrop : new.stopTimeUpdates.drop j = stus)
    (hfound : ∀ st ∈ stus, (findStInVj st.stopId vjSts).isSome) :
    List.Forall₂ (Resolves new) (yieldNextStopFrom db vjSts j stus)
        (scheduledStops vjSts j stus) ∧
      InFeed new j (scheduledStops vjSts j stus) := by
  induction stus generalizing j with
  | nil =>
      exact ⟨List.Forall₂.nil, InFeed.nil j⟩
  | cons newStu rest ih =>
      rw [List.forall_mem_cons] at hfound
      obtain ⟨vjSt, hvj⟩ := Option.isSome_iff_exists.1 hfound.1
      obtain ⟨hget, hrest⟩ := drop_eq_cons hdrop
      obtain ⟨hfs, hin⟩ := ih hrest hfound.2
      obtain ⟨f, hf, horder, hnewSt, hspid⟩ :=
        resolves_of_stopId hindexed hget (findStInVj_stopId hvj)
      have hsp : vjSt.stopPoint = some f.stopPoint := by
        have hnext := hf.next_eq
        have hstop := hf.stopPoint_eq
        cases hnext
        exact hstop
      have hf' :
          f = { order := j, navitiaStop := vjSt, stopPoint := f.stopPoint,
                newSt := newStu } := by
        have hnext := hf.next_eq
        cases f
        simp only [Except.ok.injEq, Prod.mk.injEq] at hnext hnewSt
        simp [hnext.1, hnext.2, hnewSt]
      simp only [yieldNextStopFrom, scheduledStops, hvj, hsp]
      rw [← hf']
      refine ⟨List.Forall₂.cons hf hfs, hin.cons horder ?_ ?_⟩
      · rw [hget, hnewSt]
      · rw [hspid, hnewSt]

end Scheduled

section Replacement

variable {navitiaVj : NavitiaVj} {old : TripUpdate} {new : NewTripUpdate}

/-- A feed on the vehicle journey that gives no stop has none. -/
theorem scheduledStops_eq_nil
    {vjSts : List StopTime} {order : Nat} {stus : List StopTimeUpdate}
    (hfound : ∀ st ∈ stus, (findStInVj st.stopId vjSts).isSome)
    (h : scheduledStops vjSts order stus = []) :
    stus = [] := by
  cases stus with
  | nil =>
      rfl
  | cons newStu rest =>
      rw [List.forall_mem_cons] at hfound
      obtain ⟨vjSt, hvj⟩ := Option.isSome_iff_exists.1 hfound.1
      obtain ⟨sp, hsp, -⟩ :=
        Option.map_eq_some_iff.1 (findStInVj_stopId hvj)
      simp [scheduledStops, hvj, hsp] at h

section Fresh

variable (hindexed : Indexed new.stopTimeUpdates)
variable (hstatus : new.status ≠ .delete)
variable (hfound : ∀ st ∈ new.stopTimeUpdates,
  (findStInVj st.stopId new.navitiaVj.stopTimes).isSome)
variable {changed : Bool}
variable (hfresh : (merge navitiaVj none new true).returned = .ok changed)

include hindexed hstatus hfound hfresh

/-- A feed that can be merged on the vehicle journey alone gives its schedule. -/
theorem completeFeed_tryTurns :
    tryTurns (startCalendar new.vj) none
        (scheduledStops new.navitiaVj.stopTimes 0 new.stopTimeUpdates) =
      .ok (turns (startCalendar new.vj) none
        (scheduledStops new.navitiaVj.stopTimes 0 new.stopTimeUpdates)) := by
  obtain ⟨hfs, -⟩ :=
    scheduledStops_resolves none new.navitiaVj.stopTimes hindexed
      List.drop_zero hfound
  obtain ⟨stops, hstops⟩ := mergeStops_of_returned hstatus hfresh
  have hrun : mergeStops navitiaVj none new true = _ := mergeStops_eq hfs
  rw [hstops] at hrun
  cases htry : tryTurns (startCalendar new.vj) none
      (scheduledStops new.navitiaVj.stopTimes 0 new.stopTimeUpdates) with
  | error e =>
      rw [htry] at hrun
      cases hrun
  | ok stops' =>
      rw [tryTurns_ok htry]

/-- The loop over such a feed, whatever is stored. -/
theorem completeFeed_mergeStops
    (db : Option TripUpdate) :
    mergeStops navitiaVj db new true =
      .ok (turns (startCalendar new.vj) none
          (scheduledStops new.navitiaVj.stopTimes 0 new.stopTimeUpdates),
        (turns (startCalendar new.vj) none
          (scheduledStops new.navitiaVj.stopTimes 0
            new.stopTimeUpdates)).any (changes db)) := by
  obtain ⟨hfs, -⟩ :=
    scheduledStops_resolves db new.navitiaVj.stopTimes hindexed
      List.drop_zero hfound
  have hrun : mergeStops navitiaVj db new true = _ := mergeStops_eq hfs
  rw [hrun, completeFeed_tryTurns hindexed hstatus hfound hfresh]
  rfl

/-- With nothing stored, the feed leaves its schedule. -/
theorem completeFeed_fresh :
    (merge navitiaVj none new true).res.stopTimeUpdates =
      completeSchedule new := by
  rw [merge_of_stops hstatus (completeFeed_mergeStops hindexed hstatus hfound
    hfresh none), completeSchedule]
  cases hfs :
      scheduledStops new.navitiaVj.stopTimes 0 new.stopTimeUpdates with
  | nil =>
      have hnil := scheduledStops_eq_nil hfound hfs
      simp [turns, hnil]
  | cons f fs =>
      simp [turns, changes]

/--
A complete feed on the vehicle journey replaces the stored stops, and goes
unnoticed only when they are its own, exactly when it does not merely drop
stops.
-/
theorem completeFeed_replaces_iff :
    ((merge navitiaVj (some old) new true).res.stopTimeUpdates =
          (merge navitiaVj none new true).res.stopTimeUpdates ∧
        ((merge navitiaVj (some old) new true).returned = .ok false →
          old.stopTimeUpdates =
            (merge navitiaVj none new true).res.stopTimeUpdates)) ↔
      ¬ RemovesOnly old.stopTimeUpdates (completeSchedule new) := by
  rw [completeFeed_fresh hindexed hstatus hfound hfresh,
    merge_of_stops hstatus (completeFeed_mergeStops hindexed hstatus hfound
      hfresh (some old))]
  obtain ⟨hfs, -⟩ :=
    scheduledStops_resolves (some old) new.navitiaVj.stopTimes hindexed
      List.drop_zero hfound
  have hunchanged :
      ((turns (startCalendar new.vj) none
          (scheduledStops new.navitiaVj.stopTimes 0
            new.stopTimeUpdates)).any (changes (some old)) = false) ↔
        ∀ st ∈ completeSchedule new,
          findStopIn old.stopTimeUpdates (some st.stopId) st.order = some st :=
    changes_turns_iff hfs (startCalendar new.vj) none
  cases hany :
      (turns (startCalendar new.vj) none
        (scheduledStops new.navitiaVj.stopTimes 0
          new.stopTimeUpdates)).any (changes (some old)) with
  | false =>
      have hremoves :
          RemovesOnly old.stopTimeUpdates (completeSchedule new) ↔
            old.stopTimeUpdates ≠ completeSchedule new :=
        and_iff_right (hunchanged.1 hany)
      rw [hremoves, not_not]
      simp
  | true =>
      have hchanged :
          ¬ RemovesOnly old.stopTimeUpdates (completeSchedule new) := by
        intro hremoves
        rw [hunchanged.2 hremoves.1] at hany
        cases hany
      exact iff_of_true ⟨rfl, by simp⟩ hchanged

end Fresh

end Replacement

namespace Sample

/-- What is stored once the feed on three stops is merged. -/
def onTimeStored : TripUpdate :=
  (merge onTime.navitiaVj none onTime true).res

/-- The same feed without the last stop. -/
def droppedTerminus : NewTripUpdate :=
  { onTime with stopTimeUpdates := [unchanged "sp:a" 0, unchanged "sp:b" 1] }

end Sample

theorem completeFeed_replaces_iff_onTime :
    ((merge Sample.onTime.navitiaVj (some Sample.onTimeStored) Sample.onTime
            true).res.stopTimeUpdates =
          (merge Sample.onTime.navitiaVj none Sample.onTime
            true).res.stopTimeUpdates ∧
        ((merge Sample.onTime.navitiaVj (some Sample.onTimeStored)
            Sample.onTime true).returned = .ok false →
          Sample.onTimeStored.stopTimeUpdates =
            (merge Sample.onTime.navitiaVj none Sample.onTime
              true).res.stopTimeUpdates)) ↔
      ¬ RemovesOnly Sample.onTimeStored.stopTimeUpdates
        (completeSchedule Sample.onTime) :=
  completeFeed_replaces_iff (by decide) (by decide) (by decide)
    (show (merge Sample.onTime.navitiaVj none Sample.onTime true).returned =
      .ok true by decide)

/-- A feed without the last stop returns nothing and leaves this stop stored. -/
theorem completeFeed_keeps_droppedTerminus :
    Indexed Sample.droppedTerminus.stopTimeUpdates ∧
      Sample.droppedTerminus.status ≠ .delete ∧
      (∀ st ∈ Sample.droppedTerminus.stopTimeUpdates,
        (findStInVj st.stopId
          Sample.droppedTerminus.navitiaVj.stopTimes).isSome) ∧
      (merge Sample.droppedTerminus.navitiaVj none Sample.droppedTerminus
        true).returned = .ok true ∧
      (merge Sample.droppedTerminus.navitiaVj (some Sample.onTimeStored)
        Sample.droppedTerminus true).returned = .ok false ∧
      (merge Sample.droppedTerminus.navitiaVj (some Sample.onTimeStored)
          Sample.droppedTerminus true).res.stopTimeUpdates.length = 3 ∧
      (merge Sample.droppedTerminus.navitiaVj none
          Sample.droppedTerminus true).res.stopTimeUpdates.length = 2 := by
  decide

/-- On indexed lists, a feed that only drops stops drops the last ones. -/
theorem removesOnly_iff_of_indexed
    {stored schedule : List StopTimeUpdate}
    (hstored : Indexed stored) (hschedule : Indexed schedule) :
    RemovesOnly stored schedule ↔
      ∃ extra, extra ≠ [] ∧ stored = schedule ++ extra := by
  constructor
  · rintro ⟨hfound, hne⟩
    have hpre : schedule <+: stored := by
      rw [List.prefix_iff_getElem?]
      intro i hi
      have hmem := findStopIn_mem (hfound schedule[i] (List.getElem_mem hi))
      obtain ⟨j, hj, hget⟩ := List.mem_iff_getElem.1 hmem
      have horder : j = i := by
        rw [← hstored.getElem_order j hj, hget, hschedule.getElem_order i hi]
      subst horder
      rw [List.getElem?_eq_getElem hj, hget]
    rcases hpre with ⟨extra, hextra⟩
    refine ⟨extra, ?_, hextra.symm⟩
    rintro rfl
    exact hne (by rw [← hextra, List.append_nil])
  · rintro ⟨extra, hextra, rfl⟩
    refine ⟨fun st hst => findStopIn_of_increasing hstored.increasing
      (List.mem_append_left extra hst), ?_⟩
    simpa using hextra

end Core
end Kirin
