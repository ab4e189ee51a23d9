import Kirin.Core.AddedTimes
import Kirin.Piv.BuilderRules

/-!
# Kirin: the real times of the stops that a PIV feed adds

The real time of a stop event includes its delay.  The builder gives both to the
merge, which adds the delay of an added event to its time once more.

* `RealTimesFit`: the real times of a train include the delays, in order.
* `makeTripUpdate_madeOf`: what the builder gives for the stops of a train.
* `AddedAtRealTime`: the added events are merged at their real times.
* `addedAtRealTime_iff`: these are the feeds whose added events keep their times.
-/

namespace Kirin
namespace Piv

open Kirin.Core

/-- The disruption of an event, when it is given and not null. -/
def StopEventInfo.disruption (event : StopEventInfo) : Option StopDisruption :=
  event.evenement.join

/-- Whether the status of an event is `CREATION` or `CREATION_DETOURNEMENT`. -/
def StopEventInfo.isAdded (event : StopEventInfo) : Bool :=
  (statusOf (eventStatus event event.disruption)).isAdded

def StopEventInfo.baseTime (event : StopEventInfo) : Option Datetime :=
  (asTruthyDt event.dateHeure).toOption.join

def StopEventInfo.realTime (event : StopEventInfo) : Option Datetime :=
  (asTruthyDt event.dateHeureReelle).toOption.join

/-- The delay of the disruption of an event, zero when it has none. -/
def StopEventInfo.retard (event : StopEventInfo) : Timedelta :=
  (delayOf event.disruption).toOption.join.getD 0

/-- The events of some stops, in order. -/
def eventsOf (ads : List Arret) : List StopEventInfo :=
  ads.flatMap (fun arret => arret.arrivee.toList ++ arret.depart.toList)

/-- The real times of the events include their delays and follow each other. -/
structure RealTimesFit (ads : List Arret) : Prop where
  delayed : ∀ event ∈ eventsOf ads,
    event.realTime = event.baseTime.map (fun t => t + event.retard)
  chronological :
    ((eventsOf ads).filterMap StopEventInfo.realTime).Pairwise (fun s t => s ≤ t)

instance (ads : List Arret) : Decidable (RealTimesFit ads) :=
  decidable_of_iff
    ((∀ event ∈ eventsOf ads,
        event.realTime = event.baseTime.map (fun t => t + event.retard)) ∧
      ((eventsOf ads).filterMap StopEventInfo.realTime).Pairwise
        (fun s t => s ≤ t))
    ⟨fun h => ⟨h.1, h.2⟩, fun h => ⟨h.delayed, h.chronological⟩⟩

/-- A stop of the feed, with its stop point when navitia has one. -/
def knownArret (services : Services) (navVj : NavVj) (arret : Arret) :
    Option (NavStopPoint × Arret) :=
  (getNavitiaStopPoint services arret navVj).toOption.join.map
    (fun navStop => (navStop, arret))

/-- The stops of a train that navitia has, none for a train without service. -/
def servedArrets (services : Services) (train : CleanTrain) (found : FoundVj) :
    List (NavStopPoint × Arret) :=
  if tripPivStatusToEffect train.disruption.type = some .noService then []
  else train.ads.filterMap (knownArret services found.navVj)

section Stops

variable {services : Services} {navVj : NavVj} {st st' : ArretState}
variable {ads : List Arret} {arret : Arret}

/-- What the builder gives for an event that is in the feed. -/
theorem makeEventUpdate_of_event
    {e : StopEvent} {event : StopEventInfo} {update : EventUpdate}
    (hevent : arret.event e = some event)
    (h : makeEventUpdate arret e = .ok update) :
    update.time = event.realTime ∧ update.delay.getD 0 = event.retard ∧
      update.status.isAdded = event.isAdded := by
  simp only [makeEventUpdate, hevent, Checked.bind_eq_ok] at h
  obtain ⟨disruption, hdisruption, h⟩ := h
  have hjoin : disruption = event.disruption := by
    unfold getEvenement at hdisruption
    rw [StopEventInfo.disruption]
    split at hdisruption
    · rename_i hnone
      cases hdisruption
      rw [hnone]
      rfl
    · cases hdisruption
    · rename_i d hsome
      cases hdisruption
      rw [hsome]
      rfl
  subst hjoin
  split at h
  · simp only [Checked.bind_eq_ok, Checked.pure_eq_ok] at h
    obtain ⟨time, htime, delay, hdelay, rfl⟩ := h
    rw [StopEventInfo.realTime, StopEventInfo.retard, StopEventInfo.isAdded,
      htime, hdelay]
    exact ⟨rfl, rfl, rfl⟩
  · cases h

/-- A stop of the feed is skipped, or else a stop is made of it. -/
theorem makeArret_madeOf
    (h : makeArret services navVj st arret = .ok st') :
    (knownArret services navVj arret = none ∧ st' = st) ∨
      ∃ p stu, knownArret services navVj arret = some p ∧ MadeOf p stu ∧
        st'.stopTimeUpdates = st.stopTimeUpdates ++ [stu] := by
  rcases makeArret_ok h with ⟨hnone, rfl⟩ |
    ⟨navStop, -, -, -, stu, hfound, -, -, -, hmade, -, -, hstus⟩
  · exact Or.inl ⟨by rw [knownArret, hnone]; rfl, rfl⟩
  · exact Or.inr ⟨(navStop, arret), stu, by rw [knownArret, hfound]; rfl, hmade,
      hstus⟩

/-- The loop appends the stops that are made of the ones that navitia has. -/
theorem foldlM_makeArret_madeOf
    (h : ads.foldlM (makeArret services navVj) st = .ok st') :
    ∃ stus, st'.stopTimeUpdates = st.stopTimeUpdates ++ stus ∧
      List.Forall₂ MadeOf (ads.filterMap (knownArret services navVj)) stus := by
  induction ads generalizing st with
  | nil =>
      cases h
      exact ⟨[], (List.append_nil _).symm, List.Forall₂.nil⟩
  | cons arret rest ih =>
      rw [List.foldlM_cons, Checked.bind_eq_ok] at h
      obtain ⟨st1, hturn, hrest⟩ := h
      obtain ⟨stus, hstus, hmade⟩ := ih hrest
      rcases makeArret_madeOf hturn with ⟨hnone, rfl⟩ |
        ⟨p, stu, hsome, hstu, hst1⟩
      · rw [List.filterMap_cons_none hnone]
        exact ⟨stus, hstus, hmade⟩
      · rw [List.filterMap_cons_some hsome]
        refine ⟨stu :: stus, ?_, List.Forall₂.cons hstu hmade⟩
        rw [hstus, hst1, List.append_assoc, List.singleton_append]

end Stops

section Train

variable {services : Services} {contributorId : String} {train : CleanTrain}
variable {found : FoundVj} {new : NewTripUpdate}

/-- The stops of a trip update are made of the ones that navitia has. -/
theorem makeTripUpdate_madeOf
    (h : makeTripUpdate services contributorId train found = .ok new) :
    List.Forall₂ MadeOf (servedArrets services train found)
        new.stopTimeUpdates ∧
      (servedArrets services train found ≠ [] → new.status ≠ .delete) := by
  rw [servedArrets]
  split
  · rename_i hcancelled
    obtain ⟨-, -, -, -, -, hstus⟩ := makeTripUpdate_noService h hcancelled
    rw [hstus]
    exact ⟨List.Forall₂.nil, fun hne => absurd rfl hne⟩
  · rename_i hserved
    obtain ⟨effect, st, -, hst, -, -, -, hstatus, hstus, -⟩ :=
      makeTripUpdate_served h hserved
    obtain ⟨stus, happended, hmade⟩ := foldlM_makeArret_madeOf hst
    rw [List.nil_append] at happended
    rw [hstus, happended, hstatus]
    exact ⟨hmade, fun _ => by decide⟩

/-- An event that is added at a stop outside the base vehicle journey. -/
structure AddsEvent (services : Services) (train : CleanTrain) (found : FoundVj)
    (order : Nat) (e : StopEvent) (event : StopEventInfo) : Prop where
  outside : ∃ navStop arret,
    (servedArrets services train found)[order]? = some (navStop, arret) ∧
      findStInVj navStop.id found.navVj.toNavitiaVj.stopTimes = none ∧
      arret.event e = some event
  added : event.isAdded = true

/-- The added events are at their real times in a list of stops. -/
def AddedAtRealTime (services : Services) (train : CleanTrain) (found : FoundVj)
    (stus : List StopTimeUpdate) : Prop :=
  ∀ order e event t, AddsEvent services train found order e event →
    event.realTime = some t → HasEventAt stus order e t

/--
The delay of an added event does not come on top of its real time, and no event
that the feed plans earlier comes after it.
-/
def AddedKeepRealTime (services : Services) (train : CleanTrain)
    (found : FoundVj) (new : NewTripUpdate) : Prop :=
  ∀ i f e event t, (feedStops new)[i]? = some f →
    AddsEvent services train found f.order e event →
    event.realTime = some t →
    KeepsTime (earlierEvents (feedPlan new) i e) t event.retard

/-- What the builder gives to the merge for an added event. -/
theorem AddsEvent.given
    {order : Nat} {e : StopEvent} {event : StopEventInfo}
    (h : AddsEvent services train found order e event)
    (hbuilt : makeTripUpdate services contributorId train found = .ok new) :
    ∃ stu, new.stopTimeUpdates[order]? = some stu ∧
      findStInVj stu.stopId new.navitiaVj.stopTimes = none ∧
      stu.isStopEventAdded e = true ∧
      stu.getStopEventTime e = event.realTime ∧
      (stu.getStopEventDelay e).getD 0 = event.retard := by
  obtain ⟨navStop, arret, hget, hvj, hevent⟩ := h.outside
  obtain ⟨stu, hstu, hmade⟩ :=
    RelatedLists.exists_getElem? (makeTripUpdate_madeOf hbuilt).1 hget
  obtain ⟨update, hupdate, htime, hdelay, hstatus⟩ := hmade.event e
  obtain ⟨hreal, hretard, hadded⟩ := makeEventUpdate_of_event hevent hupdate
  refine ⟨stu, hstu, ?_, ?_, htime.trans hreal, ?_⟩
  · rw [hmade.stopId, (makeTripUpdate_ok hbuilt).navitiaVj]
    exact hvj
  · rw [StopTimeUpdate.isStopEventAdded, hstatus, hadded, h.added]
  · rw [hdelay, hretard]

/--
The added events of a PIV feed are merged at their real times exactly when their
delays, which these times include, and the earlier events let them keep them.
-/
theorem addedAtRealTime_iff
    {navitiaVj : NavitiaVj}
    (hbuilt : makeTripUpdate services contributorId train found = .ok new)
    (hmerged : (merge navitiaVj none new true).returned = .ok true) :
    AddedAtRealTime services train found
        (merge navitiaVj none new true).res.stopTimeUpdates ↔
      AddedKeepRealTime services train found new := by
  by_cases hserved : servedArrets services train found = []
  · have hnone : ∀ order e event,
        ¬AddsEvent services train found order e event := by
      intro order e event h
      obtain ⟨navStop, arret, hget, -⟩ := h.outside
      rw [hserved] at hget
      cases hget
    exact iff_of_true (fun order e event t h => absurd h (hnone order e event))
      (fun i f e event t _ h => absurd h (hnone f.order e event))
  · have hindexed := (makeTripUpdate_ok hbuilt).indexed
    have hstatus := (makeTripUpdate_madeOf hbuilt).2 hserved
    obtain ⟨stops, hstops⟩ := mergeStops_of_returned hstatus hmerged
    have hres : (merge navitiaVj none new true).res.stopTimeUpdates =
        stops.map MergedStop.resSt := by
      rw [merge_of_stops hstatus hstops]
      rfl
    rw [hres]
    constructor
    · intro h i f e event t hf hadds ht
      obtain ⟨stu, hget, -, hadded, htime, hretard⟩ := hadds.given hbuilt
      have hnewSt := (feedStops_turns hindexed hstops).1.newSt_eq f
        (List.mem_of_getElem? hf)
      rw [hget] at hnewSt
      cases hnewSt
      rw [← hretard]
      exact (hasEventAt_iff hindexed hstops hf hadded (htime.trans ht)).1
        (h f.order e event t hadds ht)
    · intro h order e event t hadds ht
      obtain ⟨stu, hget, hvj, hadded, htime, hretard⟩ := hadds.given hbuilt
      obtain ⟨i, f, hf, rfl, rfl⟩ :=
        exists_feedStop_of_added hindexed hstops hget hvj hadded
      refine (hasEventAt_iff hindexed hstops hf hadded (htime.trans ht)).2 ?_
      rw [hretard]
      exact h i f e event t hf hadds ht

end Train

namespace Sample

/-- An event that the feed adds, some minutes after its base time. -/
def addedEvent (t : Datetime) (minutes : Int) : StopEventInfo where
  isEmpty := false
  dateHeure := some { text := "base", parsed := .ok t }
  dateHeureReelle :=
    some { text := "real", parsed := .ok (t + minutes * 60 * second) }
  planTransportSource := none
  motifModification := none
  statutModification := some (some .creation)
  evenement :=
    some (some
      { isEmpty := false, type := some .creation, texte := none
        retard := some (some { duree := some (some minutes) })
        empty := nofun })
  empty := nofun

/-- A train with a stop added between its two stops, some minutes late. -/
def addedStopTrain (minutes : Int) : CleanTrain where
  numero := "1"
  codeOperateur := "1187"
  typeMode := "F"
  disruption := { type := .modificationDesserteAjoutee, texte := none }
  ads :=
    [arret 0 "a" (Core.Sample.clock 8 0),
      { arret 1 "x" (Core.Sample.clock 8 20) with
        arrivee := some (addedEvent (Core.Sample.clock 8 20) minutes)
        depart := some (addedEvent (Core.Sample.clock 8 20) minutes) },
      arret 2 "b" (Core.Sample.clock 9 0)]

/-- Navitia has a stop point for the added stop. -/
def addedStopServices : Services :=
  { services with
    stopPoint := fun code =>
      .ok (some { id := code, codes := [], stopAreaCodes := [] }) }

def twoStopsFound : FoundVj where
  navVj :=
    { id := "vj:1", tripId := "trip:1"
      stopTimes :=
        [navStop "a" (Core.Sample.clock 8 0),
          navStop "b" (Core.Sample.clock 9 0)] }
  vj := Core.Sample.trip (Core.Sample.clock 8 0)

/-- The trip update of this train. -/
def addedStopTrip (minutes : Int) : NewTripUpdate :=
  match makeTripUpdate addedStopServices "realtime.piv" (addedStopTrain minutes)
      twoStopsFound with
  | .ok new => new
  | .error _ => Core.Sample.onTime

end Sample

theorem addedAtRealTime_iff_onTime :
    AddedAtRealTime Sample.addedStopServices (Sample.addedStopTrain 0)
        Sample.twoStopsFound
        (merge (Sample.addedStopTrip 0).navitiaVj none (Sample.addedStopTrip 0)
          true).res.stopTimeUpdates ↔
      AddedKeepRealTime Sample.addedStopServices (Sample.addedStopTrain 0)
        Sample.twoStopsFound (Sample.addedStopTrip 0) :=
  addedAtRealTime_iff
    (show makeTripUpdate Sample.addedStopServices "realtime.piv"
      (Sample.addedStopTrain 0) Sample.twoStopsFound =
        .ok (Sample.addedStopTrip 0) from rfl) (by decide)

/-- A stop that is added five minutes late is published ten minutes late. -/
theorem not_addedAtRealTime_late :
    RealTimesFit (Sample.addedStopTrain 5).ads ∧
      makeTripUpdate Sample.addedStopServices "realtime.piv"
        (Sample.addedStopTrain 5) Sample.twoStopsFound =
          .ok (Sample.addedStopTrip 5) ∧
      (merge (Sample.addedStopTrip 5).navitiaVj none (Sample.addedStopTrip 5)
        true).returned = .ok true ∧
      ¬AddedAtRealTime Sample.addedStopServices (Sample.addedStopTrain 5)
        Sample.twoStopsFound
        (merge (Sample.addedStopTrip 5).navitiaVj none (Sample.addedStopTrip 5)
          true).res.stopTimeUpdates := by
  refine ⟨by decide, rfl, by decide, fun h => ?_⟩
  have hadds : AddsEvent Sample.addedStopServices (Sample.addedStopTrain 5)
      Sample.twoStopsFound 1 .arrival
      (Sample.addedEvent (Core.Sample.clock 8 20) 5) :=
    ⟨⟨_, _, rfl, rfl, rfl⟩, rfl⟩
  obtain ⟨st, hst, horder, htime⟩ :=
    h 1 .arrival _ (Core.Sample.clock 8 25) hadds (by decide)
  revert st
  decide

end Piv
end Kirin
