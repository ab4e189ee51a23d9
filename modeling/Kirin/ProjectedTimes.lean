import Kirin.Cots.PublishedEffect
import Kirin.Library.LocalOrder
import Kirin.Piv.BuilderRules

/-!
# Kirin: the projected times of an accepted COTS or PIV feed

Both builders check the times of each stop against the departure of the stop
before, which is forgotten as soon as a stop has no projected departure.  The
times of an accepted feed are then only known to be in order from one such stop
to the next one.

* `Cots.checkedTimes`, `Piv.checkedTimes`: the times that the check goes through.
* `acceptedTimes_chronological_iff`: when they are in order.
* `acceptedTimes_not_chronological`: a feed of each kind whose times are not.
-/

namespace Kirin

open Kirin.Core LocalOrder

namespace Cots

/-- The projected times of a point, when navitia has a stop point for it. -/
def projectedTimes (services : Services) (navVj : NavVj) (pdp : Pdp) :
    Option (Passage Datetime) :=
  match getNavitiaStopPoint services pdp navVj, makeEventUpdate pdp .arrival,
      makeEventUpdate pdp .departure with
  | .ok (some _), .ok arrival, .ok departure =>
      some (arrival.projected, departure.projected)
  | _, _, _ => none

/-- The times that the check goes through, none for a suppressed train. -/
def checkedTimes
    (services : Services) (jsonTrain : DictVersion) (found : FoundVj) :
    List (Passage Datetime) :=
  if jsonTrain.statutOperationnel = some .supprimee then []
  else
    (retrieveInterestingPdp
      (jsonTrain.listePointDeParcours.getD [])).filterMap
      (projectedTimes services found.navVj)

theorem checkStopTimeConsistency_ok
    {last arrival departure : Option Datetime} {pdpCode : String} {u : Unit}
    (h : checkStopTimeConsistency last arrival departure pdpCode = .ok u) :
    Accepts 0 last (arrival, departure) := by
  simp only [checkStopTimeConsistency] at h
  split at h
  · rename_i hle
    exact ⟨hle.2, hle.1⟩
  · cases h

/-- The loop over the points skips some of them and checks the other ones. -/
theorem foldlM_makePdp_run
    {services : Services} {navVj : NavVj} {st st' : PdpState}
    {pdps : List Pdp}
    (h : pdps.foldlM (makePdp services navVj) st = .ok st') :
    Run 0 st.lastStopTimeDepart
      (pdps.filterMap (projectedTimes services navVj)) := by
  refine run_of_foldlM (fun st pdp st1 h1 => ?_) h
  rcases makePdp_ok h1 with ⟨hfound, rfl⟩ |
    ⟨navStop, arrival, departure, pdpCode, stUpdate, hfound, harrival,
      hdeparture, hcheck, -, -, -, rfl⟩
  · exact Or.inl ⟨by simp [projectedTimes, hfound], rfl⟩
  · exact Or.inr ⟨(arrival.projected, departure.projected),
      by simp [projectedTimes, hfound, harrival, hdeparture],
      checkStopTimeConsistency_ok hcheck, rfl⟩

/-- The check has accepted the times of a feed that is not rejected. -/
theorem checkedTimes_run
    {services : Services} {contributorId : String} {jsonTrain : DictVersion}
    {found : FoundVj} {actionOnTrip : ActionOnTrip} {t : NewTripUpdate}
    (h : makeTripUpdate services contributorId jsonTrain found actionOnTrip =
      .ok t) :
    Run 0 none (checkedTimes services jsonTrain found) := by
  rw [checkedTimes]
  split
  · trivial
  · rename_i hrunning
    obtain ⟨st, hst, -⟩ := makeTripUpdate_running h hrunning
    exact foldlM_makePdp_run hst

end Cots

namespace Piv

/-- The projected times of a stop, when navitia has a stop point for it. -/
def projectedTimes (services : Services) (navVj : NavVj) (arret : Arret) :
    Option (Passage Datetime) :=
  match getNavitiaStopPoint services arret navVj,
      makeEventUpdate arret .arrival, makeEventUpdate arret .departure with
  | .ok (some _), .ok arrival, .ok departure =>
      some (arrival.time, departure.time)
  | _, _, _ => none

/-- The times that the check goes through, none for a train without service. -/
def checkedTimes
    (services : Services) (train : CleanTrain) (found : FoundVj) :
    List (Passage Datetime) :=
  if tripPivStatusToEffect train.disruption.type = some .noService then []
  else train.ads.filterMap (projectedTimes services found.navVj)

theorem checkStopTimeConsistency_ok
    {previous arrival departure : Option Datetime} {uic8 : String} {u : Unit}
    (h : checkStopTimeConsistency previous arrival departure uic8 = .ok u) :
    Accepts 0 previous (arrival, departure) := by
  simp only [checkStopTimeConsistency] at h
  split at h
  · rename_i hle
    exact hle
  · cases h

/-- The loop over the stops skips some of them and checks the other ones. -/
theorem foldlM_makeArret_run
    {services : Services} {navVj : NavVj} {st st' : ArretState}
    {ads : List Arret}
    (h : ads.foldlM (makeArret services navVj) st = .ok st') :
    Run 0 st.previousRtStopTimeDep
      (ads.filterMap (projectedTimes services navVj)) := by
  refine run_of_foldlM (fun st arret st1 h1 => ?_) h
  rcases makeArret_ok h1 with ⟨hfound, rfl⟩ |
    ⟨navStop, arrival, departure, uic8, stUpdate, hfound, harrival,
      hdeparture, hcheck, -, -, hlast, -⟩
  · exact Or.inl ⟨by simp [projectedTimes, hfound], rfl⟩
  · exact Or.inr ⟨(arrival.time, departure.time),
      by simp [projectedTimes, hfound, harrival, hdeparture],
      checkStopTimeConsistency_ok hcheck, hlast⟩

/-- The check has accepted the times of a feed that is not rejected. -/
theorem checkedTimes_run
    {services : Services} {contributorId : String} {train : CleanTrain}
    {found : FoundVj} {t : NewTripUpdate}
    (h : makeTripUpdate services contributorId train found = .ok t) :
    Run 0 none (checkedTimes services train found) := by
  rw [checkedTimes]
  split
  · trivial
  · rename_i hserved
    obtain ⟨effect, st, -, hst, -⟩ := makeTripUpdate_served h hserved
    exact foldlM_makeArret_run hst

end Piv

/-- The times that the check has gone through in an accepted feed. -/
inductive AcceptedTimes : List (Passage Datetime) → Prop
  | cots
      (services : Cots.Services) (contributorId : String)
      (jsonTrain : Cots.DictVersion) (found : Cots.FoundVj)
      (actionOnTrip : Cots.ActionOnTrip) (t : NewTripUpdate)
      (h : Cots.makeTripUpdate services contributorId jsonTrain found
        actionOnTrip = .ok t) :
      AcceptedTimes (Cots.checkedTimes services jsonTrain found)
  | piv
      (services : Piv.Services) (contributorId : String)
      (train : Piv.CleanTrain) (found : Piv.FoundVj) (t : NewTripUpdate)
      (h : Piv.makeTripUpdate services contributorId train found = .ok t) :
      AcceptedTimes (Piv.checkedTimes services train found)

/--
The times of an accepted feed are in order exactly when those of each stop that
follows a stop without projected departure are not before the earlier ones.
-/
theorem acceptedTimes_chronological_iff
    {ps : List (Passage Datetime)} (h : AcceptedTimes ps) :
    Chronological ps ↔ ResumesInOrder ps := by
  cases h with
  | cots services contributorId jsonTrain found actionOnTrip t h =>
      exact chronological_iff (Cots.checkedTimes_run h)
  | piv services contributorId train found t h =>
      exact chronological_iff (Piv.checkedTimes_run h)

namespace Sample

/-- A point of a COTS feed that is suppressed. -/
def suppressedPdp (rang : Int) (ch : String) (t : Datetime) : Cots.Pdp :=
  { Cots.Sample.pdp rang ch t t with
    horaireVoyageurArrivee := some (Cots.Sample.traveler (some .suppression) t)
    horaireVoyageurDepart := some (Cots.Sample.traveler (some .suppression) t) }

/-- A COTS train on three points, the second of which is suppressed. -/
def cotsTrain (third : Datetime) : Cots.DictVersion :=
  Cots.Sample.version "8000" .perturbee
    [Cots.Sample.usual 0 "a" (Core.Sample.clock 9 0),
      suppressedPdp 1 "b" (Core.Sample.clock 9 30),
      Cots.Sample.usual 2 "c" third]

def cotsFound : Cots.FoundVj where
  navVj := Cots.Sample.twoStopsVj
  vj := Core.Sample.trip (Core.Sample.clock 9 0)

/-- A stop of a PIV feed where the train does not leave any more. -/
def deletedDeparture (rang : Int) (code : String) (t : Datetime) : Piv.Arret :=
  { Piv.Sample.arret rang code t with
    depart := some
      { Piv.Sample.event t with
        dateHeureReelle := none
        statutModification := some (some .suppressionPartielle)
        empty := nofun } }

/-- A PIV train on three stops, with a deleted departure at the second one. -/
def pivTrain (third : Datetime) : Piv.CleanTrain where
  numero := "1"
  codeOperateur := "1187"
  typeMode := "F"
  disruption := { type := .modificationDesserteSupprimee, texte := none }
  ads :=
    [Piv.Sample.arret 0 "a" (Core.Sample.clock 9 0),
      deletedDeparture 1 "b" (Core.Sample.clock 9 30),
      Piv.Sample.arret 2 "c" third]

/-- Navitia has a stop point for any code. -/
def pivServices : Piv.Services :=
  { Piv.Sample.services with
    stopPoint := fun code =>
      .ok (some { id := code, codes := [], stopAreaCodes := [] }) }

def pivFound : Piv.FoundVj where
  navVj := { id := "vj:1", tripId := "trip:1", stopTimes := [] }
  vj := Core.Sample.trip (Core.Sample.clock 9 0)

/-- The times of the COTS train. -/
def cotsTimes (third : Datetime) : List (Passage Datetime) :=
  Cots.checkedTimes Cots.Sample.services (cotsTrain third) cotsFound

/-- The times of the PIV train. -/
def pivTimes (third : Datetime) : List (Passage Datetime) :=
  Piv.checkedTimes pivServices (pivTrain third) pivFound

/-- The COTS train is accepted, whether or not it goes back in time. -/
theorem cotsTimes_accepted :
    AcceptedTimes (cotsTimes (Core.Sample.clock 10 0)) ∧
      AcceptedTimes (cotsTimes (Core.Sample.clock 8 30)) :=
  ⟨.cots _ "realtime.cots" _ _ .notAdded _ rfl,
    .cots _ "realtime.cots" _ _ .notAdded _ rfl⟩

/-- So is the PIV train. -/
theorem pivTimes_accepted :
    AcceptedTimes (pivTimes (Core.Sample.clock 10 0)) ∧
      AcceptedTimes (pivTimes (Core.Sample.clock 8 30)) :=
  ⟨.piv _ "realtime.piv" _ _ _ rfl, .piv _ "realtime.piv" _ _ _ rfl⟩

end Sample

/-- When the third stop is the latest one, the times of the trains are in order. -/
theorem acceptedTimes_inOrder :
    Chronological (Sample.cotsTimes (Core.Sample.clock 10 0)) ∧
      Chronological (Sample.pivTimes (Core.Sample.clock 10 0)) :=
  ⟨(acceptedTimes_chronological_iff Sample.cotsTimes_accepted.1).2 (by decide),
    (acceptedTimes_chronological_iff Sample.pivTimes_accepted.1).2 (by decide)⟩

/-- The trains are accepted when they arrive there before they have left. -/
theorem acceptedTimes_not_chronological :
    (AcceptedTimes (Sample.cotsTimes (Core.Sample.clock 8 30)) ∧
      ¬ Chronological (Sample.cotsTimes (Core.Sample.clock 8 30))) ∧
      AcceptedTimes (Sample.pivTimes (Core.Sample.clock 8 30)) ∧
      ¬ Chronological (Sample.pivTimes (Core.Sample.clock 8 30)) :=
  ⟨⟨Sample.cotsTimes_accepted.2, by decide⟩, Sample.pivTimes_accepted.2,
    by decide⟩

end Kirin
