import Kirin.Core.FeedRun

/-!
# Kirin: chronology of an accepted complete feed

A complete feed that is merged and then accepted is published in chronological
order.  Each of its events is published at its target, or at the previous event
when the target comes before, and the published delay tells how far the event
is from the datetime it refers to.

* `eventTarget`, `eventReference`: what the feed asks for one event, and the
  datetime its published delay refers to.
* `turns_follow`: each recorded event follows its target.
* `acceptedFeed_chronology`: the same for the published trip.
-/

namespace Kirin
namespace Core

open FeedStop

/-- All events of a list of stops, arrival then departure. -/
def eventTimes (stus : List StopTimeUpdate) : List (Option Datetime) :=
  stus.flatMap (fun st => [st.arrival, st.departure])

/-- Every event has a time, and none comes before the previous one. -/
def Chronological (stus : List StopTimeUpdate) : Prop :=
  ∃ times : List Datetime,
    eventTimes stus = times.map some ∧ times.IsChain (fun s t => s ≤ t)

theorem TimedChain.eventTimes
    {last : Option Datetime} {stus : List StopTimeUpdate}
    (h : TimedChain last stus) :
    ∃ times : List Datetime,
      Core.eventTimes stus = times.map some ∧
        (last.toList ++ times).IsChain (fun s t => s ≤ t) := by
  induction stus generalizing last with
  | nil =>
      refine ⟨[], rfl, ?_⟩
      cases last <;> simp
  | cons st rest ih =>
      rcases h with ⟨⟨a, d, ha, hd, hla, had⟩, hrest⟩
      obtain ⟨times, htimes, hchain⟩ := ih hrest
      refine ⟨a :: d :: times, ?_, ?_⟩
      · change st.arrival :: st.departure :: Core.eventTimes rest = _
        rw [htimes, ha, hd]
        rfl
      · rw [hd] at hchain
        have htail : (a :: d :: times).IsChain (fun s t => s ≤ t) :=
          List.isChain_cons_cons.2 ⟨had, hchain⟩
        cases last with
        | none =>
            exact htail
        | some l =>
            exact List.isChain_cons_cons.2 ⟨hla l rfl, htail⟩

theorem TimedChain.chronological
    {stus : List StopTimeUpdate} (h : TimedChain none stus) :
    Chronological stus :=
  h.eventTimes

/--
Target of an event: its base datetime when the feed leaves it as it is, this
datetime and the delay of the feed when it is updated, the datetime and the
delay of the feed when it is added.
-/
def eventTarget
    (newSt : StopTimeUpdate) (base : Option Datetime) (e : StopEvent) :
    Option Datetime :=
  match newSt.getStopEventStatus e with
  | .none => base
  | .update =>
      match base, newSt.getStopEventDelay e with
      | some t, some d => some (t + d)
      | _, _ => none
  | .add | .addedForDetour =>
      (newSt.getStopEventTime e).map
        (fun t => t + (newSt.getStopEventDelay e).getD 0)
  | .delete | .deletedForDetour => none

/-- Datetime the published delay of an event refers to. -/
def eventReference
    (newSt : StopTimeUpdate) (base : Option Datetime) (e : StopEvent) :
    Option Datetime :=
  match newSt.getStopEventStatus e with
  | .none | .update => base
  | .add | .addedForDetour => eventTarget newSt base e
  | .delete | .deletedForDetour => none

/--
An event is at its target, or at the previous event when the target comes
before, and its delay is counted from its reference.
-/
def FollowsTarget
    (newSt : StopTimeUpdate) (base previous : Option Datetime)
    (published : StopTimeUpdate) (e : StopEvent) : Prop :=
  ∀ t, eventTarget newSt base e = some t →
    published.getStopEventTime e = some (atLeast previous t) ∧
      ∃ d, published.getStopEventDelay e = some d ∧
        eventReference newSt base e = some (atLeast previous t - d)

/-- An event that has a target is recorded from it. -/
theorem eventInfo_of_target
    {newSt : StopTimeUpdate} {base : Option Datetime} {e : StopEvent}
    {t : Datetime} (h : eventTarget newSt base e = some t) :
    (eventInfo newSt base e).time = some t ∧
      ∃ d, (eventInfo newSt base e).delay = some d ∧
        eventReference newSt base e = some (t - d) := by
  have hinfo :
      eventInfo newSt base e =
        getUpdateInfoOfStopEvent base (newSt.getStopEventTime e)
          (newSt.getStopEventStatus e) (newSt.getStopEventDelay e) := by
    cases e <;> rfl
  rw [hinfo]
  unfold eventReference
  unfold eventTarget at h ⊢
  unfold getUpdateInfoOfStopEvent
  cases hstatus : newSt.getStopEventStatus e <;> rw [hstatus] at h
  case none =>
      exact ⟨h, 0, rfl, by simpa using h⟩
  case update =>
      cases hbase : base with
      | none =>
          simp [hbase] at h
      | some b =>
          cases hdelay : newSt.getStopEventDelay e with
          | none =>
              simp [hbase, hdelay] at h
          | some d =>
              simp only [hbase, hdelay, Option.some.injEq] at h
              subst h
              exact ⟨rfl, d, rfl, by simp⟩
  case add =>
      exact ⟨h, 0, rfl, by simpa using h⟩
  case addedForDetour =>
      exact ⟨h, 0, rfl, by simpa using h⟩
  case delete =>
      cases h
  case deletedForDetour =>
      cases h

/-- A push moves time and delay together, so the reference stays the same. -/
theorem sub_delay_of_push
    (t pushed d : Int) :
    t - d = pushed - (d + (pushed - t)) := by
  omega

section RecordedStop

variable (f : FeedStop) (c : Calendar) (last : Option Datetime)

theorem recorded_arrival_follows :
    FollowsTarget f.newSt (f.baseArrival c) last (f.recorded c last)
      .arrival := by
  intro t ht
  obtain ⟨htime, d, hdelay, href⟩ := eventInfo_of_target ht
  obtain ⟨harr, hd⟩ :=
    builtStop_arrival_of_target (f.baseArrival c) (f.baseDeparture c) last
      f.newSt f.stopPoint f.order htime
  refine ⟨harr, d + (atLeast last t - t), ?_, ?_⟩
  · change (f.recorded c last).arrivalDelay = _
    rw [recorded, hd, hdelay]
    rfl
  · rw [href, sub_delay_of_push]

theorem recorded_departure_follows :
    FollowsTarget f.newSt (f.baseDeparture c) (f.recorded c last).arrival
      (f.recorded c last) .departure := by
  intro t ht
  obtain ⟨htime, d, hdelay, href⟩ := eventInfo_of_target ht
  obtain ⟨a, ha, hdep, hd⟩ :=
    builtStop_departure_of_target (f.baseArrival c) (f.baseDeparture c) last
      f.newSt f.stopPoint f.order htime
  have harr : (f.recorded c last).arrival = some a := ha
  rw [harr, atLeast_some]
  refine ⟨hdep, d + (max a t - t), ?_, ?_⟩
  · change (f.recorded c last).departureDelay = _
    rw [recorded, hd, hdelay]
    rfl
  · rw [href, sub_delay_of_push]

end RecordedStop

/-- Filling the missing delays of a stop does not change where events are. -/
theorem FollowsTarget.fillDelays
    {newSt st : StopTimeUpdate} {base previous : Option Datetime}
    {e : StopEvent}
    (h : FollowsTarget newSt base previous st e) :
    FollowsTarget newSt base previous (fillDelays st) e := by
  intro t ht
  obtain ⟨htime, d, hd, href⟩ := h t ht
  cases e with
  | arrival =>
      have hdelay : st.arrivalDelay = some d := hd
      refine ⟨htime, d, ?_, href⟩
      change some (st.arrivalDelay.getD 0) = some d
      rw [hdelay]
      rfl
  | departure =>
      have hdelay : st.departureDelay = some d := hd
      refine ⟨htime, d, ?_, href⟩
      change some (st.departureDelay.getD 0) = some d
      rw [hdelay]
      rfl

/-- The stops the merge has gone through, none for a cancelled trip. -/
def mergedStops
    (navitiaVj : NavitiaVj) (db : Option TripUpdate) (new : NewTripUpdate)
    (isNewComplete : Bool) : List MergedStop :=
  if new.status = .delete then []
  else
    match mergeStops navitiaVj db new isNewComplete with
    | .ok (stops, _) => stops
    | .error _ => []

/-- Both events of a published stop follow the targets of the merge. -/
structure StopFollows
    (m : MergedStop) (newSt : StopTimeUpdate)
    (previous : Option Datetime) (published : StopTimeUpdate) : Prop where
  newSt_eq : m.newSt = some newSt
  arrival : FollowsTarget newSt m.baseArrival previous published .arrival
  departure :
    FollowsTarget newSt m.baseDeparture published.arrival published .departure

section Accepted

variable {navitiaVj : NavitiaVj} {db : Option TripUpdate} {new : NewTripUpdate}

theorem eventTimes_fillDelays
    (stus : List StopTimeUpdate) :
    eventTimes (stus.map fillDelays) = eventTimes stus := by
  simp [eventTimes, List.flatMap_map]

theorem departureBefore_fillDelays
    (last : Option Datetime) (stus : List StopTimeUpdate) (i : Nat) :
    departureBefore last (stus.map fillDelays) i =
      departureBefore last stus i := by
  cases i with
  | zero =>
      rfl
  | succ i =>
      simp only [departureBefore, List.getElem?_map]
      cases stus[i]? <;> rfl

/-- Each stop of a run whose orders are its indexes follows the feed. -/
theorem turns_follow
    {c : Calendar} {fs : List FeedStop} {stus : List StopTimeUpdate}
    (hin : InFeed new 0 fs)
    (hstus : (turns c none fs).map MergedStop.resSt = stus)
    (hindexed : Indexed stus)
    {i : Nat} {st : StopTimeUpdate}
    (hst : (stus.map fillDelays)[i]? = some st) :
    ∃ m newSt,
      (turns c none fs)[i]? = some m ∧
      new.stopTimeUpdates[i]? = some newSt ∧
      StopFollows m newSt
        (departureBefore none (stus.map fillDelays) i) st := by
  rw [List.getElem?_map, Option.map_eq_some_iff] at hst
  rcases hst with ⟨st', hst', rfl⟩
  have hlt : i < fs.length := by
    obtain ⟨hi, -⟩ := List.getElem?_eq_some_iff.1 hst'
    rw [← hstus] at hi
    simpa using hi
  obtain ⟨c', hturn⟩ :=
    turns_getElem? c none (List.getElem?_eq_getElem hlt)
  rw [hstus] at hturn
  have hrecorded :
      st' = fs[i].recorded c' (departureBefore none stus i) := by
    rw [← hstus, List.getElem?_map, hturn] at hst'
    cases hst'
    rfl
  subst hrecorded
  have horder : fs[i].order = i := hindexed.getElem?_order hst'
  have hnew := hin.newSt_eq fs[i] (List.getElem_mem hlt)
  rw [horder] at hnew
  refine ⟨_, fs[i].newSt, hturn, hnew, rfl, ?_, ?_⟩
  · rw [departureBefore_fillDelays]
    exact (recorded_arrival_follows _ _ _).fillDelays
  · exact (recorded_departure_follows _ _ _).fillDelays

/--
An accepted complete feed is published in chronological order, at the times the
merge has recorded.  Each of its events is published at its target or at the
previous event, and its delay is counted from its base datetime, or from its
target when it is added.
-/
theorem acceptedFeed_chronology
    {published : List StopTimeUpdate}
    (hindexed : Indexed new.stopTimeUpdates)
    (hmerge : (merge navitiaVj db new true).returned = .ok true)
    (hmanage : manageConsistency
      (merge navitiaVj db new true).res.stopTimeUpdates = (true, published)) :
    Chronological published ∧
      eventTimes published =
        eventTimes (merge navitiaVj db new true).res.stopTimeUpdates ∧
      published.length = (mergedStops navitiaVj db new true).length ∧
      ∀ (i : Nat) (st : StopTimeUpdate), published[i]? = some st →
        ∃ m newSt,
          (mergedStops navitiaVj db new true)[i]? = some m ∧
          new.stopTimeUpdates[i]? = some newSt ∧
          StopFollows m newSt (departureBefore none published i) st := by
  by_cases hstatus : new.status = .delete
  · rw [merge_cancelled hstatus] at hmanage ⊢
    cases hmanage
    refine ⟨⟨[], rfl, by simp⟩, rfl, ?_, ?_⟩
    · simp [mergedStops, hstatus]
    · simp
  · obtain ⟨stops, hstops⟩ := mergeStops_of_returned hstatus hmerge
    have hmerged : mergedStops navitiaVj db new true = stops := by
      simp [mergedStops, hstatus, hstops]
    have hres :
        (merge navitiaVj db new true).res.stopTimeUpdates =
          stops.map MergedStop.resSt := by
      rw [merge_of_stops hstatus hstops]
      rfl
    have hfits : FitsVj true navitiaVj new := ⟨hindexed, by simp⟩
    obtain ⟨fs, -, hin, hturns, -⟩ := fitsVj_turns hfits hstops
    rw [hres, hturns] at hmanage
    obtain ⟨htimed, hidx, hpub⟩ :=
      manageConsistency_accepted (turns_chained _ _ _) hmanage
    rw [hres, hmerged, hturns, hpub]
    refine ⟨?_, eventTimes_fillDelays _, by simp, ?_⟩
    · obtain ⟨times, htimes, hchain⟩ := htimed.chronological
      exact ⟨times, by rw [eventTimes_fillDelays, htimes], hchain⟩
    · intro i st hst
      exact turns_follow hin rfl hidx hst

end Accepted

namespace Sample

/-- A trip whose departure from its origin is ten minutes late. -/
def lateOrigin : NewTripUpdate :=
  feed (clock 8 0)
    [stopTime "sp:a" (clock 8 0) (clock 8 0),
      stopTime "sp:b" (clock 8 5) (clock 8 6)]
    .update
    [{ unchanged "sp:a" 0 with
        departureDelay := some (600 * second), departureStatus := .update },
      unchanged "sp:b" 1]

/-- The stops published for it when nothing is stored. -/
def lateOriginPublished : List StopTimeUpdate :=
  (manageConsistency
    (merge lateOrigin.navitiaVj none lateOrigin true).res.stopTimeUpdates).2

end Sample

theorem acceptedFeed_chronology_lateOrigin :
    Chronological Sample.lateOriginPublished ∧
      eventTimes Sample.lateOriginPublished =
        eventTimes (merge Sample.lateOrigin.navitiaVj none Sample.lateOrigin
          true).res.stopTimeUpdates ∧
      Sample.lateOriginPublished.length =
        (mergedStops Sample.lateOrigin.navitiaVj none Sample.lateOrigin
          true).length ∧
      ∀ (i : Nat) (st : StopTimeUpdate),
        Sample.lateOriginPublished[i]? = some st →
        ∃ m newSt,
          (mergedStops Sample.lateOrigin.navitiaVj none Sample.lateOrigin
            true)[i]? = some m ∧
          Sample.lateOrigin.stopTimeUpdates[i]? = some newSt ∧
          StopFollows m newSt
            (departureBefore none Sample.lateOriginPublished i) st :=
  acceptedFeed_chronology (by decide) (by decide) (by decide)

end Core
end Kirin
