import Kirin.Core.ConsistencyRules

/-!
# Kirin: what a whole feed leaves behind

The connectors give two kinds of feed: complete ones, whose stops are appended
to an ordering list, and GTFS-RT ones, which list the stops of the vehicle
journey.  For both, the loop of the merge is a run over the stops of the feed.

* `fitsVj_turns`: the run made by a feed of either kind.
* `changes_of_stored`: a run whose stops are the stored ones finds no change.
* `processTripUpdate_changed`: what is left when such a feed is processed.
* `processTripUpdate_run`: what is left of it when it is accepted.
* `processTripUpdate_fresh`: what is left of it when nothing is stored.
-/

namespace Kirin
namespace Core

open FeedStop

/-- The stops the loop of the merge goes through. -/
def stopsToGoThrough
    (navitiaVj : NavitiaVj) (db : Option TripUpdate) (new : NewTripUpdate)
    (isNewComplete : Bool) : List (Except PyException (Nat × StopTime)) :=
  if isNewComplete then yieldNextStopFromTripUpdate new db
  else yieldNextStopFromBaseScheduleVj navitiaVj

/--
A trip update as the connectors build them: its orders are its indexes, and it
lists the stops of the vehicle journey when it is not complete.
-/
structure FitsVj
    (isNewComplete : Bool) (navitiaVj : NavitiaVj) (new : NewTripUpdate) :
    Prop where
  indexed : Indexed new.stopTimeUpdates
  stops : isNewComplete = false →
    List.Forall₂ (fun s st => s.stopId = some st.stopId)
      navitiaVj.stopTimes new.stopTimeUpdates

/-- The place of a stop in an indexed list is its order. -/
theorem Indexed.getElem?_order
    {stus : List StopTimeUpdate} (h : Indexed stus)
    {i : Nat} {st : StopTimeUpdate} (hst : stus[i]? = some st) :
    st.order = i := by
  obtain ⟨hi, rfl⟩ := List.getElem?_eq_some_iff.1 hst
  exact h.getElem_order i hi

/-- A stop appended with the next order leaves the list indexed. -/
theorem Indexed.concat
    {stus : List StopTimeUpdate} {stu : StopTimeUpdate}
    (h : Indexed stus) (horder : stu.order = stus.length) :
    Indexed (stus ++ [stu]) := by
  rw [Indexed, List.map_append, h, List.length_append, List.length_singleton,
    List.range_succ, List.map_singleton, horder]

section Merge

variable {navitiaVj : NavitiaVj} {db : Option TripUpdate}
variable {new : NewTripUpdate} {isNewComplete : Bool}

@[simp] theorem mergeHeader_status :
    (mergeHeader db new isNewComplete).status = new.status :=
  rfl

@[simp] theorem mergeHeader_stopTimeUpdates :
    (mergeHeader db new isNewComplete).stopTimeUpdates =
      (db.getD new.toTripUpdate).stopTimeUpdates :=
  rfl

@[simp] theorem mergeHeader_vj :
    (mergeHeader db new isNewComplete).vj = (db.getD new.toTripUpdate).vj :=
  rfl

/-- A cancelled trip is returned without any stop. -/
theorem merge_cancelled
    (hstatus : new.status = .delete) :
    merge navitiaVj db new isNewComplete =
      { res :=
          { mergeHeader db new isNewComplete with stopTimeUpdates := [] }
        returned := .ok true } := by
  simp [merge, hstatus]

/-- A trip that is not cancelled gets the stops of the loop if they changed. -/
theorem merge_of_stops
    (hstatus : new.status ≠ .delete)
    {stops : List MergedStop} {hasChanges : Bool}
    (h : mergeStops navitiaVj db new isNewComplete = .ok (stops, hasChanges)) :
    merge navitiaVj db new isNewComplete =
      { res :=
          if hasChanges then
            { mergeHeader db new isNewComplete with
              stopTimeUpdates := stops.map MergedStop.resSt }
          else mergeHeader db new isNewComplete
        returned := .ok hasChanges } := by
  cases hasChanges <;> simp [merge, hstatus, h]

/-- A trip whose loop raises only gets the header of the feed. -/
theorem merge_of_error
    (hstatus : new.status ≠ .delete) {e : PyException}
    (h : mergeStops navitiaVj db new isNewComplete = .error e) :
    merge navitiaVj db new isNewComplete =
      { res := mergeHeader db new isNewComplete, returned := .error e } := by
  simp [merge, hstatus, h]

/-- A merge that does not raise has gone through its loop. -/
theorem mergeStops_of_returned
    (hstatus : new.status ≠ .delete) {hasChanges : Bool}
    (h : (merge navitiaVj db new isNewComplete).returned = .ok hasChanges) :
    ∃ stops,
      mergeStops navitiaVj db new isNewComplete = .ok (stops, hasChanges) := by
  cases hstops : mergeStops navitiaVj db new isNewComplete with
  | error e =>
      rw [merge_of_error hstatus hstops] at h
      cases h
  | ok r =>
      rcases r with ⟨stops, hasChanges'⟩
      rw [merge_of_stops hstatus hstops] at h
      cases h
      exact ⟨stops, rfl⟩

end Merge

section Increasing

variable {stus : List StopTimeUpdate}

/-- When orders increase, a stop of the list is found by its id and order. -/
theorem findStopIn_of_increasing
    (h : stus.Pairwise (fun a b => a.order < b.order))
    {st : StopTimeUpdate} (hst : st ∈ stus) :
    findStopIn stus (some st.stopId) st.order = some st := by
  have hexact : findExact stus (some st.stopId) st.order = some st := by
    induction stus with
    | nil =>
        cases hst
    | cons st' rest ih =>
        rw [List.pairwise_cons] at h
        rcases List.mem_cons.1 hst with rfl | hrest
        · simp [findExact]
        · have hne : st'.order ≠ st.order := by
            have := h.1 st hrest
            omega
          have := ih h.2 hrest
          simp only [findExact] at this ⊢
          rw [List.find?_cons_of_neg (by simp [hne]), this]
  simp [findStopIn, hexact]

/-- A stop that is found belongs to the list. -/
theorem findStopIn_mem
    {stus : List StopTimeUpdate} {id : Option String} {order : Nat}
    {st : StopTimeUpdate} (h : findStopIn stus id order = some st) :
    st ∈ stus := by
  unfold findStopIn at h
  split at h
  · rename_i first hfirst
    cases h
    exact List.mem_of_find?_eq_some hfirst
  · exact List.mem_of_find?_eq_some h

end Increasing

section Run

variable {navitiaVj : NavitiaVj} {db : Option TripUpdate}
variable {new : NewTripUpdate} {isNewComplete : Bool}

/-- A list of stop times, numbered from an index on. -/
def numbered (j : Nat) (stopTimes : List StopTime) :
    List (Except PyException (Nat × StopTime)) :=
  stopTimes.mapIdx (fun i s => .ok (j + i, s))

theorem numbered_cons
    (j : Nat) (s : StopTime) (stopTimes : List StopTime) :
    numbered j (s :: stopTimes) = .ok (j, s) :: numbered (j + 1) stopTimes := by
  have hshift :
      (fun i s => (Except.ok (j + (i + 1), s) :
        Except PyException (Nat × StopTime))) =
      (fun i s => Except.ok (j + 1 + i, s)) := by
    funext i s
    rw [Nat.add_assoc, Nat.add_comm 1 i]
  rw [numbered, numbered, List.mapIdx_cons, hshift]
  rfl

/-- The stops of the schedule are resolved one by one. -/
theorem baseSchedule_resolves
    (hindexed : Indexed new.stopTimeUpdates)
    {j : Nat} {stopTimes : List StopTime} {stus : List StopTimeUpdate}
    (hdrop : new.stopTimeUpdates.drop j = stus)
    (hstops : List.Forall₂ (fun s st => s.stopId = some st.stopId)
      stopTimes stus) :
    ∃ fs,
      List.Forall₂ (Resolves new) (numbered j stopTimes) fs ∧
      InFeed new j fs ∧ fs.map FeedStop.navitiaStop = stopTimes ∧
      fs.map FeedStop.newSt = stus := by
  induction hstops generalizing j with
  | nil =>
      exact ⟨[], List.Forall₂.nil, InFeed.nil j, rfl, rfl⟩
  | @cons s st stopTimes stus hid hrest ih =>
      obtain ⟨hget, htail⟩ := drop_eq_cons hdrop
      obtain ⟨f, hf, horder, hnewSt, hspid⟩ :=
        resolves_of_stopId hindexed hget hid
      obtain ⟨fs, hfs, hin, hnav, hnew⟩ := ih htail
      have hnavf : f.navitiaStop = s := by
        have := hf.next_eq
        cases this
        rfl
      refine ⟨f :: fs, ?_, hin.cons horder ?_ ?_, ?_, ?_⟩
      · rw [numbered_cons]
        exact List.Forall₂.cons hf hfs
      · rw [hget, hnewSt]
      · rw [hspid, hnewSt]
      · rw [List.map_cons, hnavf, hnav]
      · rw [List.map_cons, hnewSt, hnew]

theorem fitsVj_resolves
    (hfits : FitsVj isNewComplete navitiaVj new)
    {r : List MergedStop × Bool}
    (h : mergeStops navitiaVj db new isNewComplete = .ok r) :
    ∃ fs,
      List.Forall₂ (Resolves new)
        (stopsToGoThrough navitiaVj db new isNewComplete) fs ∧
      InFeed new 0 fs := by
  cases isNewComplete with
  | true =>
      exact completeFeed_resolves hfits.indexed h
  | false =>
      obtain ⟨fs, hfs, hin, -, -⟩ :=
        baseSchedule_resolves hfits.indexed List.drop_zero (hfits.stops rfl)
      refine ⟨fs, ?_, hin⟩
      simpa [stopsToGoThrough, yieldNextStopFromBaseScheduleVj, numbered]
        using hfs

/-- The loop over the stops resolved in a feed. -/
theorem mergeStops_eq
    {fs : List FeedStop}
    (hfs : List.Forall₂ (Resolves new)
      (stopsToGoThrough navitiaVj db new isNewComplete) fs) :
    mergeStops navitiaVj db new isNewComplete =
      (tryTurns (startCalendar new.vj) none fs).map
        (fun stops => (stops, stops.any (changes db))) := by
  have hrun := mergeLoop_eq db (initialMergeState new.vj) hfs
  have hflag : (initialMergeState new.vj).hasChanges = false := rfl
  simp only [hflag, Bool.false_or] at hrun
  exact hrun

/-- The run over those stops does not raise when the loop does not. -/
theorem tryTurns_of_mergeStops
    {fs : List FeedStop}
    (hfs : List.Forall₂ (Resolves new)
      (stopsToGoThrough navitiaVj db new isNewComplete) fs)
    {r : List MergedStop × Bool}
    (h : mergeStops navitiaVj db new isNewComplete = .ok r) :
    tryTurns (startCalendar new.vj) none fs =
      .ok (turns (startCalendar new.vj) none fs) := by
  rw [mergeStops_eq hfs] at h
  obtain ⟨stops, hrun, -⟩ := Checked.map_eq_ok.1 h
  rw [hrun, tryTurns_ok hrun]

/-- The run made by a feed, complete or not. -/
theorem fitsVj_turns
    (hfits : FitsVj isNewComplete navitiaVj new)
    {stops : List MergedStop} {hasChanges : Bool}
    (h : mergeStops navitiaVj db new isNewComplete = .ok (stops, hasChanges)) :
    ∃ fs,
      List.Forall₂ (Resolves new)
        (stopsToGoThrough navitiaVj db new isNewComplete) fs ∧
      InFeed new 0 fs ∧
      stops = turns (startCalendar new.vj) none fs ∧
      hasChanges = stops.any (changes db) := by
  obtain ⟨fs, hfs, hin⟩ := fitsVj_resolves hfits h
  have hrun := mergeStops_eq hfs
  rw [h] at hrun
  cases htry : tryTurns (startCalendar new.vj) none fs with
  | error e =>
      rw [htry] at hrun
      cases hrun
  | ok stops' =>
      rw [htry] at hrun
      cases hrun
      exact ⟨fs, hfs, hin, tryTurns_ok htry, rfl⟩

/-- Every stop resolved in a feed belongs to it. -/
theorem InFeed.newSt_mem
    {j : Nat} {fs : List FeedStop} (hin : InFeed new j fs)
    {f : FeedStop} (hf : f ∈ fs) :
    f.newSt ∈ new.stopTimeUpdates :=
  List.mem_of_getElem? (hin.newSt_eq f hf)

/-- The recorded stops have increasing orders. -/
theorem InFeed.turns_increasing
    {j : Nat} {fs : List FeedStop} (hin : InFeed new j fs)
    (c : Calendar) (last : Option Datetime) :
    ((turns c last fs).map MergedStop.resSt).Pairwise
      (fun a b => a.order < b.order) := by
  have hpair : (fs.map FeedStop.order).Pairwise (fun i j => i < j) :=
    List.pairwise_map.2 hin.increasing
  rw [← turns_orders c last fs] at hpair
  exact List.pairwise_map.1 hpair

/-- When no stop of the feed is left out, the recorded stops have its orders. -/
theorem InFeed.turns_indexed
    {fs : List FeedStop} (hin : InFeed new 0 fs)
    (hindexed : Indexed new.stopTimeUpdates)
    (hall : fs.map FeedStop.newSt = new.stopTimeUpdates)
    (c : Calendar) (last : Option Datetime) :
    Indexed ((turns c last fs).map MergedStop.resSt) := by
  have horders :
      fs.map FeedStop.order =
        (fs.map FeedStop.newSt).map StopTimeUpdate.order := by
    rw [List.map_map]
    exact List.map_congr_left
      (fun f hf => (hindexed.getElem?_order (hin.newSt_eq f hf)).symm)
  have hlength : fs.length = new.stopTimeUpdates.length := by
    rw [← hall, List.length_map]
  rw [Indexed, turns_orders, horders, hall, hindexed, List.length_map,
    turns_length, hlength]

/-- A merged stop is looked up in the stored list as the stop recorded for it. -/
theorem changes_turns_iff
    {old : TripUpdate} {fs : List FeedStop}
    {items : List (Except PyException (Nat × StopTime))}
    (hfs : List.Forall₂ (Resolves new) items fs)
    (c : Calendar) (last : Option Datetime) :
    (turns c last fs).any (changes (some old)) = false ↔
      ∀ st ∈ (turns c last fs).map MergedStop.resSt,
        old.findStop (some st.stopId) st.order = some st := by
  induction hfs generalizing c last with
  | nil =>
      simp [turns]
  | @cons next f items fs hf hrest ih =>
      have hid : f.navitiaStop.stopId = some f.stopPoint.id := by
        simp [StopTime.stopId, hf.stopPoint_eq]
      have hhead :
          changes (some old) (f.turn c last) = false ↔
            old.findStop (some (f.recorded c last).stopId)
              (f.recorded c last).order = some (f.recorded c last) := by
        have hnav : (f.turn c last).navitiaStop.stopId =
            some (f.recorded c last).stopId := hid
        have horder : (f.turn c last).navOrder =
            (f.recorded c last).order := rfl
        have hres : (f.turn c last).resSt = f.recorded c last := rfl
        simp only [changes, hnav, horder, hres, bne_eq_false_iff_eq]
      rw [turns, List.any_cons, Bool.or_eq_false_iff, List.map_cons,
        List.forall_mem_cons, hhead, ih]
      exact Iff.rfl

/-- A run whose recorded stops are the stored ones finds no change. -/
theorem changes_of_stored
    {old : TripUpdate} {fs : List FeedStop}
    {items : List (Except PyException (Nat × StopTime))}
    (hfs : List.Forall₂ (Resolves new) items fs) {j : Nat}
    (hin : InFeed new j fs) (c : Calendar) (last : Option Datetime)
    (hstored : old.stopTimeUpdates =
      (turns c last fs).map MergedStop.resSt) :
    (turns c last fs).any (changes (some old)) = false := by
  rw [changes_turns_iff hfs]
  intro st hst
  rw [TripUpdate.findStop, hstored]
  exact findStopIn_of_increasing (hin.turns_increasing c last) hst

/-- The delays of the recorded stops are present when updates carry theirs. -/
theorem turns_hasDelays_iff
    (c : Calendar) (last : Option Datetime) {fs : List FeedStop} :
    (∀ st ∈ (turns c last fs).map MergedStop.resSt, HasDelays st) ↔
      ∀ f ∈ fs, CarriesDelays f.newSt := by
  induction fs generalizing c last with
  | nil =>
      simp [turns]
  | cons f fs ih =>
      rw [turns, List.map_cons, List.forall_mem_cons, List.forall_mem_cons, ih]
      exact and_congr_left (fun _ => builtStop_delays_iff _ _ _ _ _ _)

end Run

theorem effectInDatabase_of_eq
    {tu : TripUpdate} {e : TripEffect}
    (h : tu.effect = some e) (he : e.inDatabase = true) :
    EffectInDatabase tu := by
  intro e' he'
  rw [h] at he'
  cases he'
  exact he

theorem getEffectByStopTimeStatus_inDatabase
    (status : ModificationType) :
    (getEffectByStopTimeStatus status).inDatabase = true := by
  cases status <;> rfl

section Process

variable {b : Builder} {old : Option TripUpdate} {new : NewTripUpdate}

/-- The builder merges with its own kind of feed. -/
abbrev FitsBuilder (b : Builder) (new : NewTripUpdate) : Prop :=
  FitsVj b.isNewComplete new.navitiaVj new

/-- Every stop of the feed carries the delays of its updates. -/
abbrev FeedCarriesDelays (new : NewTripUpdate) : Prop :=
  ∀ st ∈ new.stopTimeUpdates, CarriesDelays st

/-- A cancelled trip is accepted without any stop. -/
theorem processTripUpdate_cancelled
    (hstatus : new.status = .delete) :
    processTripUpdate b old new =
      { tripUpdate :=
          { mergeHeader old new b.isNewComplete with stopTimeUpdates := [] }
        linked := .ok true } := by
  simp [processTripUpdate, Builder.mergeTripUpdates, merge_cancelled hstatus,
    manageConsistency, consistencyLoop, reloadStops, dropRepeatedStops]

/-- A trip whose loop raises is left with the header of the feed. -/
theorem processTripUpdate_error
    (hstatus : new.status ≠ .delete) {e : PyException}
    (h : mergeStops new.navitiaVj old new b.isNewComplete = .error e) :
    processTripUpdate b old new =
      { tripUpdate := mergeHeader old new b.isNewComplete
        linked := .error e } := by
  simp [processTripUpdate, Builder.mergeTripUpdates,
    merge_of_error hstatus h]

/-- So is a trip whose stops have not changed. -/
theorem processTripUpdate_unchanged
    (hstatus : new.status ≠ .delete) {stops : List MergedStop}
    (h : mergeStops new.navitiaVj old new b.isNewComplete =
      .ok (stops, false)) :
    processTripUpdate b old new =
      { tripUpdate := mergeHeader old new b.isNewComplete
        linked := .ok false } := by
  simp [processTripUpdate, Builder.mergeTripUpdates,
    merge_of_stops hstatus h]

/-- When the merge returns nothing the stored stops are left as they are. -/
theorem processTripUpdate_of_returned_none
    (hstatus : new.status ≠ .delete)
    (h : (merge new.navitiaVj old new b.isNewComplete).returned = .ok false) :
    (processTripUpdate b old new).tripUpdate.stopTimeUpdates =
      (old.getD new.toTripUpdate).stopTimeUpdates := by
  obtain ⟨stops, hstops⟩ := mergeStops_of_returned hstatus h
  rw [processTripUpdate_unchanged hstatus hstops]
  rfl

/-- A trip whose stops have changed gets them, accepted or not. -/
theorem processTripUpdate_changed
    (hstatus : new.status ≠ .delete) {stops : List MergedStop}
    (h : mergeStops new.navitiaVj old new b.isNewComplete =
      .ok (stops, true)) :
    processTripUpdate b old new =
      { tripUpdate :=
          { mergeHeader old new b.isNewComplete with
            stopTimeUpdates :=
              reloadStops
                (manageConsistency (stops.map MergedStop.resSt)).2 }
        linked := .ok (manageConsistency (stops.map MergedStop.resSt)).1 } := by
  simp [processTripUpdate, Builder.mergeTripUpdates,
    merge_of_stops hstatus h]

/-- A trip is linked when its stops have changed and are consistent. -/
theorem processTripUpdate_linked
    (hstatus : new.status ≠ .delete) {stops : List MergedStop}
    {changed : Bool}
    (h : mergeStops new.navitiaVj old new b.isNewComplete =
      .ok (stops, changed)) :
    (processTripUpdate b old new).linked =
      .ok (changed && (manageConsistency (stops.map MergedStop.resSt)).1) := by
  cases changed with
  | false =>
      rw [processTripUpdate_unchanged hstatus h]
      rfl
  | true =>
      rw [processTripUpdate_changed hstatus h]
      rfl

/-- What an accepted trip is left with, told by the run of its feed. -/
theorem processTripUpdate_run
    (hfits : FitsBuilder b new) (hstatus : new.status ≠ .delete)
    (hlinked : (processTripUpdate b old new).linked = .ok true) :
    ∃ fs,
      List.Forall₂ (Resolves new)
        (stopsToGoThrough new.navitiaVj old new b.isNewComplete) fs ∧
      mergeStops new.navitiaVj old new b.isNewComplete =
        .ok (turns (startCalendar new.vj) none fs, true) ∧
      manageConsistency
          ((turns (startCalendar new.vj) none fs).map MergedStop.resSt) =
        (true, (processTripUpdate b old new).tripUpdate.stopTimeUpdates) ∧
      (processTripUpdate b old new).tripUpdate.stopTimeUpdates =
        ((turns (startCalendar new.vj) none fs).map
          MergedStop.resSt).map fillDelays := by
  cases hstops : mergeStops new.navitiaVj old new b.isNewComplete with
  | error e =>
      rw [processTripUpdate_error hstatus hstops] at hlinked
      cases hlinked
  | ok r =>
      obtain ⟨stops, changed⟩ := r
      rw [processTripUpdate_linked hstatus hstops, Except.ok.injEq,
        Bool.and_eq_true] at hlinked
      obtain ⟨rfl, hmanaged⟩ := hlinked
      obtain ⟨fs, hfs, -, rfl, -⟩ := fitsVj_turns hfits hstops
      obtain ⟨-, hindexed, hresult⟩ := manageConsistency_accepted
        (turns_chained _ none fs) (Prod.ext hmanaged rfl)
      -- the orders are the indexes, so that nothing is lost when read back
      have hreload := reloadStops_of_increasing
        (List.pairwise_map (f := fillDelays).2 hindexed.increasing)
      rw [← hresult] at hreload
      rw [processTripUpdate_changed hstatus hstops]
      exact ⟨fs, hfs, rfl, Prod.ext hmanaged hreload.symm,
        hreload.trans hresult⟩

/-- When updates carry their delays, the recorded stops are left as they are. -/
theorem reloadStops_manageConsistency
    {j : Nat} {fs : List FeedStop} (hdelays : ∀ f ∈ fs, CarriesDelays f.newSt)
    (hin : InFeed new j fs) (c : Calendar) :
    reloadStops
        (manageConsistency
          ((turns c none fs).map MergedStop.resSt)).2 =
      (turns c none fs).map MergedStop.resSt := by
  have hhas : ∀ st ∈ (turns c none fs).map MergedStop.resSt, HasDelays st :=
    (turns_hasDelays_iff c none).2 hdelays
  rw [manageConsistency_delays (turns_chained c none fs) hhas]
  exact reloadStops_of_increasing (hin.turns_increasing c none)

/-- With nothing stored, a run whose updates carry their delays is recorded. -/
theorem mergeStops_fresh
    {navitiaVj : NavitiaVj} {isNewComplete : Bool}
    (hdelays : FeedCarriesDelays new) {fs : List FeedStop}
    (hfs : List.Forall₂ (Resolves new)
      (stopsToGoThrough navitiaVj none new isNewComplete) fs)
    (hin : InFeed new 0 fs) :
    mergeStops navitiaVj none new isNewComplete =
      .ok (turns (startCalendar new.vj) none fs, !fs.isEmpty) := by
  rw [mergeStops_eq hfs,
    tryTurns_of_delays _ _ (fun f hf => hdelays f.newSt (hin.newSt_mem hf))]
  cases fs <;> rfl

/-- The stops of the result are those of the run, a feed being stopless else. -/
theorem merge_fresh
    {navitiaVj : NavitiaVj} {isNewComplete : Bool}
    (hstatus : new.status ≠ .delete) (hdelays : FeedCarriesDelays new)
    {fs : List FeedStop}
    (hfs : List.Forall₂ (Resolves new)
      (stopsToGoThrough navitiaVj none new isNewComplete) fs)
    (hin : InFeed new 0 fs) (hnil : fs = [] → new.stopTimeUpdates = []) :
    (merge navitiaVj none new isNewComplete).res.stopTimeUpdates =
      (turns (startCalendar new.vj) none fs).map MergedStop.resSt := by
  rw [merge_of_stops hstatus (mergeStops_fresh hdelays hfs hin)]
  cases fs with
  | nil =>
      exact hnil rfl
  | cons f fs =>
      rfl

/-- A run over stops with nothing stored records them all. -/
theorem processTripUpdate_fresh
    (hstatus : new.status ≠ .delete) (hdelays : FeedCarriesDelays new)
    {fs : List FeedStop}
    (hfs : List.Forall₂ (Resolves new)
      (stopsToGoThrough new.navitiaVj none new b.isNewComplete) fs)
    (hin : InFeed new 0 fs) (hne : fs ≠ []) :
    processTripUpdate b none new =
      { tripUpdate :=
          { mergeHeader none new b.isNewComplete with
            stopTimeUpdates :=
              (turns (startCalendar new.vj) none fs).map MergedStop.resSt }
        linked := .ok (manageConsistency
          ((turns (startCalendar new.vj) none fs).map MergedStop.resSt)).1 } := by
  have hrun := mergeStops_fresh hdelays hfs hin
  have hchanges : (!fs.isEmpty) = true := by
    simpa using hne
  rw [hchanges] at hrun
  rw [processTripUpdate_changed hstatus hrun,
    reloadStops_manageConsistency
      (fun f hf => hdelays f.newSt (hin.newSt_mem hf)) hin]

end Process

end Core
end Kirin
