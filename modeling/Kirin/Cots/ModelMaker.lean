import Kirin.Core.BuildWrapper
import Kirin.Core.Circulation
import Mathlib.Data.List.Sort

/-!
# Kirin: the COTS builder

This module follows `kirin/cots/model_maker.py`.  A COTS feed is about one
train, given by its number and its list of points.

* `retrieveInterestingPdp` selects the points where travelers hop on or off.
* `getActionOnTrip` tells whether the train is one that earlier feeds have added.
* `getNavitiaVjs` looks for the vehicle journeys of the train in navitia, or
  makes those of an added train.
* `makeTripUpdate` reads the points into a trip update.
* `buildTripUpdates` puts them together.

The answers of navitia and of the service of messages are parameters.  Every
point has a rank.  The naive datetimes of the server are in UTC.  The vehicle
journeys of a feed come in the order in which navitia gives them first.
-/

namespace Kirin
namespace Cots

open Kirin.Core

/-- The value of `statutOperationnel`. -/
inductive TripStatus
  | ajoutee
  | supprimee
  | perturbee
  | other (text : String)
deriving DecidableEq, Repr

/-- The value of `statutCirculationOPE`. -/
inductive StatutCirculation
  | reactivation
  | suppression
  | suppressionDetournement
  | creation
  | detournement
  | other (text : String)
deriving DecidableEq, Repr

inductive ActionOnTrip
  | notAdded
  | firstTimeAdded
  | previouslyAdded
deriving DecidableEq, Repr

/-- An object `horaireVoyageur`; an empty one carries nothing. -/
structure TravelerTime where
  isEmpty : Bool
  dateHeure : Option DateText
  statutCirculationOPE : Option StatutCirculation
  empty : isEmpty = true → dateHeure = none ∧ statutCirculationOPE = none
deriving DecidableEq, Repr

/-- An element of a list `listeHoraireProjete`. -/
structure ProjectedTime where
  source : Option String
  pronosticIV : Option Int
deriving DecidableEq, Repr

/-- A "Point de Parcours". -/
structure Pdp where
  rang : Int
  cr : Option String
  ci : Option String
  ch : Option String
  typeArret : Option String
  horaireVoyageurArrivee : Option TravelerTime
  horaireVoyageurDepart : Option TravelerTime
  sourceHoraireProjeteArriveeReference : Option String
  sourceHoraireProjeteDepartReference : Option String
  listeHoraireProjeteArrivee : Option (List ProjectedTime)
  listeHoraireProjeteDepart : Option (List ProjectedTime)
  idMotifInterneArriveeReference : Option String
  idMotifInterneDepartReference : Option String
deriving DecidableEq, Repr

namespace Pdp

def horaireVoyageur (pdp : Pdp) : StopEvent → Option TravelerTime
  | .arrival => pdp.horaireVoyageurArrivee
  | .departure => pdp.horaireVoyageurDepart

def sourceHoraireProjeteReference (pdp : Pdp) : StopEvent → Option String
  | .arrival => pdp.sourceHoraireProjeteArriveeReference
  | .departure => pdp.sourceHoraireProjeteDepartReference

def listeHoraireProjete (pdp : Pdp) : StopEvent → Option (List ProjectedTime)
  | .arrival => pdp.listeHoraireProjeteArrivee
  | .departure => pdp.listeHoraireProjeteDepart

/-- Whether an object `horaireVoyageur` is given and not empty. -/
def hasHoraire (pdp : Pdp) (e : StopEvent) : Bool :=
  (pdp.horaireVoyageur e).any (fun h => !h.isEmpty)

end Pdp

/-- The name of a stop event in the feed. -/
def toggle : StopEvent → String
  | .arrival => "Arrivee"
  | .departure => "Depart"

/-- The object `nouvelleVersion`. -/
structure DictVersion where
  numeroCourse : Option String
  statutOperationnel : Option TripStatus
  listePointDeParcours : Option (List Pdp)
  idMotifInterneReference : Option String
  codeCompagnieTransporteur : Option String
  indicateurFer : Option String
deriving DecidableEq, Repr

/-- The text of a feed: not JSON, or an object with or without its version. -/
inductive RawData
  | notJson (message : String)
  | json (nouvelleVersion : Option (Option DictVersion))
deriving DecidableEq, Repr

/-- The answers of navitia and of the service of messages. -/
structure Services where
  vehicleJourneys :
    String → Datetime → Datetime → Except PyException (List NavVj)
  stopPoint : String → Except PyException (Option NavStopPoint)
  company : String → Except PyException (Option String)
  physicalMode : String → Except PyException (Option String)
  message : String → Option String

def defaultCompanyId : String :=
  "1187"

def trainIdFormat (trainNumber : String) : String :=
  "OCE:SN:" ++ trainNumber

/-- One hour. -/
def sncfSearchMargin : Timedelta :=
  3600 * second

def makeNavitiaEmptyVj (headsign : String) : NavVj where
  id := trainIdFormat headsign
  tripId := trainIdFormat headsign
  stopTimes := []

/-- `s[:-n]`: without the last characters, and empty when there are none to cut. -/
def cutLast (s : List Char) (n : Nat) : List Char :=
  if n = 0 then [] else s.take (s.length - n)

/--
The numbers of a train: without leading zeros, and when a parity follows a `/`,
the number as it is and the number that ends with the parity.
-/
def headsigns (strHeadsign : String) : List String :=
  let h := strHeadsign.toList.dropWhile (fun c => c == '0')
  if '/' ∈ h then
    let sign := h.takeWhile (fun c => c != '/')
    let parity := (h.dropWhile (fun c => c != '/')).drop 1
    [String.ofList sign, String.ofList (cutLast sign parity.length ++ parity)]
  else [String.ofList h]

/-- The types of a point that is a station. -/
def stationTypes : List String :=
  ["", "CD", "CH", "FD", "FH"]

def isStation (pdp : Pdp) : Bool :=
  pdp.typeArret.all (fun t => stationTypes.contains t)

/-- The loop of `retrieveInterestingPdp`, over the points in order. -/
def interestingPdp : Bool → List Pdp → List Pdp
  | _, [] => []
  | pickedOne, pdp :: rest =>
      -- nothing is kept before a departure
      if !pickedOne && !pdp.hasHoraire .departure then
        interestingPdp pickedOne rest
      else if !isStation pdp then interestingPdp pickedOne rest
      else if !pdp.hasHoraire .departure && !pdp.hasHoraire .arrival then
        interestingPdp pickedOne rest
      -- nothing is kept once no arrival follows
      else if !pdp.hasHoraire .arrival &&
          !(pdp :: rest).any (fun p => p.hasHoraire .arrival && isStation p) then
        []
      else pdp :: interestingPdp true rest

def retrieveInterestingPdp (listPdp : List Pdp) : List Pdp :=
  interestingPdp false (listPdp.insertionSort (fun p q => p.rang ≤ q.rang))

def retrieveStopEventDatetime (cotsTravelerTime : TravelerTime) :
    Except PyException (Option Datetime) :=
  asTruthyDt cotsTravelerTime.dateHeure

/-- The projected time that a source refers to, or the only one there is. -/
def retrieveProjectedTime
    (sourceRef : Option String) (listProjTime : Option (List ProjectedTime)) :
    Except PyException (Option ProjectedTime) :=
  match sourceRef with
  | some s =>
      match (listProjTime.getD []).find? (fun p => p.source == some s) with
      | some p => .ok (some p)
      | none =>
          .error (.invalidArguments
            ("invalid json, impossible to find source \"" ++ s ++
              "\" in any json dict of list"))
  | none =>
      match listProjTime.getD [] with
      | [] => .ok none
      | [p] => .ok (some p)
      | _ =>
          .error (.invalidArguments
            "invalid json, impossible no source but multiple json dicts in list")

def retrieveStopEventDelay (pdp : Pdp) (e : StopEvent) :
    Except PyException (Option Timedelta) := do
  let planned ←
    retrieveProjectedTime (pdp.sourceHoraireProjeteReference e)
      (pdp.listeHoraireProjete e)
  match planned with
  | some p => asDuration p.pronosticIV
  | none => return none

/-- Whether the traveler times of a point are given and all created. -/
def isFullyAddedPdp (pdp : Pdp) : Bool :=
  let statuses :=
    [StopEvent.arrival, .departure].filterMap (fun e =>
      (pdp.horaireVoyageur e).bind (fun h =>
        if h.isEmpty then none else some h.statutCirculationOPE))
  !statuses.isEmpty && statuses.all (fun s => s == some .creation)

/-- The datetime of one event at the first point of a list, when it has one. -/
def getFirstStopDatetime
    (listPdps : List Pdp) (e : StopEvent) (skipFullyAddedStops : Bool) :
    Except PyException (Option Datetime) :=
  match listPdps.find? (fun p => !(skipFullyAddedStops && isFullyAddedPdp p)) with
  | none => .ok none
  | some p => do
      let horaire ←
        getValue ("horaireVoyageur" ++ toggle e) (p.horaireVoyageur e)
      let strTime ← getValue "dateHeure" horaire.dateHeure
      asTruthyDt (some strTime)

/-- Arithmetic on a datetime that has to be there. -/
def requireDatetime (t : Option Datetime) : Except PyException Datetime :=
  match t with
  | some t => .ok t
  | none => .error .typeError

/-- What a feed does to the stored trip of its train, if there is one. -/
def actionOnStored
    (trainNumbers : String) (cotsTripStatus : Option TripStatus)
    (tripAddedInDb : Option TripUpdate) : Except PyException ActionOnTrip :=
  match tripAddedInDb with
  | some stored =>
      if cotsTripStatus = some .ajoutee ∧ stored.status = .add then
        .error (.invalidArguments
          ("Invalid action, trip " ++ trainNumbers ++
            " can not be added multiple times"))
      else if cotsTripStatus ≠ some .ajoutee ∧ stored.status = .delete then
        .error (.invalidArguments
          ("Invalid action, trip " ++ trainNumbers ++
            " already deleted in database"))
      else if cotsTripStatus = some .ajoutee ∧ stored.status = .delete then
        .ok .firstTimeAdded
      else if stored.status = .add then .ok .previouslyAdded
      else .ok .notAdded
  | none =>
      if cotsTripStatus = some .ajoutee then .ok .firstTimeAdded
      else .ok .notAdded

/-- The stored trip of a train, around the period of a feed. -/
def findTripAddedInDb
    (rows : List TripUpdate) (trainNumbers : String)
    (vjStart vjEnd : Datetime) : Option TripUpdate :=
  TripUpdate.findVjByPeriod rows (trainIdFormat trainNumbers)
    (vjStart - sncfSearchMargin) (vjEnd + sncfSearchMargin)

def getActionOnTrip
    (rows : List TripUpdate) (trainNumbers : String)
    (dictVersion : DictVersion) (pdps : List Pdp) :
    Except PyException ActionOnTrip := do
  let vjStart ← getFirstStopDatetime pdps .departure false
  let vjEnd ← getFirstStopDatetime pdps.reverse .arrival false
  let vjStart ← requireDatetime vjStart
  let vjEnd ← requireDatetime vjEnd
  actionOnStored trainNumbers dictVersion.statutOperationnel
    (findTripAddedInDb rows trainNumbers vjStart vjEnd)

/-- A vehicle journey on its day, with the one of navitia it comes from. -/
structure FoundVj where
  navVj : NavVj
  vj : VehicleJourney
deriving DecidableEq, Repr

/-- Keep one vehicle journey for each navitia identifier, the last one. -/
def putVj (vjs : List FoundVj) (found : FoundVj) : List FoundVj :=
  if vjs.any (fun f => f.navVj.id == found.navVj.id) then
    vjs.map (fun f => if f.navVj.id = found.navVj.id then found else f)
  else vjs ++ [found]

/-- The vehicle journeys to consider for one number of the train. -/
def candidateVjs
    (services : Services) (trainNumber : String)
    (sinceDt untilDt : Datetime) (actionOnTrip : ActionOnTrip) :
    Except PyException (List NavVj) := do
  let navitiaVjs ← services.vehicleJourneys trainNumber sinceDt untilDt
  if actionOnTrip = .notAdded then return navitiaVjs
  else if actionOnTrip = .firstTimeAdded && !navitiaVjs.isEmpty then
    throw (.invalidArguments
      ("Invalid action, trip " ++ trainNumber ++
        " already present in navitia"))
  else return [makeNavitiaEmptyVj trainNumber]

/--
The vehicle journeys of a train in navitia, those whose day cannot be told being
left out.  The constructed ones get new identifiers.
-/
def getNavitiaVjs
    (services : Services) (newId : String → String) (headsignStr : String)
    (sinceDt untilDt : Option Datetime) (actionOnTrip : ActionOnTrip) :
    Except PyException (List FoundVj) :=
  match sinceDt, untilDt with
  | some sinceDt, some untilDt => do
      let extendedSinceDt := sinceDt - sncfSearchMargin
      let extendedUntilDt := untilDt + sncfSearchMargin
      let vjs ← (headsigns headsignStr).foldlM (fun vjs trainNumber => do
        let navitiaVjs ←
          candidateVjs services trainNumber extendedSinceDt extendedUntilDt
            actionOnTrip
        return navitiaVjs.foldl (fun vjs navVj =>
          match VehicleJourney.init (newId navVj.id) navVj extendedSinceDt
              extendedUntilDt (some sinceDt) with
          | .ok vj => putVj vjs { navVj := navVj, vj := vj }
          | .error _ => vjs) vjs) ([] : List FoundVj)
      if vjs.isEmpty then
        throw (.objectNotFound
          ("no train found for headsign(s) " ++ headsignStr))
      else return vjs
  | _, _ => .ok []

def getVjs
    (services : Services) (newId : String → String) (trainNumbers : String)
    (pdps : List Pdp) (actionOnTrip : ActionOnTrip) :
    Except PyException (List FoundVj) := do
  let skip := decide (actionOnTrip = .notAdded)
  let vjStart ← getFirstStopDatetime pdps .departure skip
  let vjEnd ← getFirstStopDatetime pdps.reverse .arrival skip
  getNavitiaVjs services newId trainNumbers vjStart vjEnd actionOnTrip

/-- The stop of a vehicle journey whose stop area has a given code. -/
def getNavitiaStopTimeSncf (externalCode : String) (navVj : NavVj) :
    Option NavStopTime :=
  navVj.stopTimes.find? (fun s =>
    s.stopPoint.any (fun p =>
      p.stopAreaCodes.any (fun c =>
        c.value == externalCode && c.type == "CR-CI-CH")))

/-- The stop point of a point, looked up in the vehicle journey, then alone. -/
def getNavitiaStopPoint
    (services : Services) (pdp : Pdp) (navVj : NavVj) :
    Except PyException (Option NavStopPoint) := do
  let cr ← getValue "cr" pdp.cr
  let ci ← getValue "ci" pdp.ci
  let ch ← getValue "ch" pdp.ch
  let externalCode := cr ++ "-" ++ ci ++ "-" ++ ch
  match getNavitiaStopTimeSncf externalCode navVj with
  | some navSt => return navSt.stopPoint
  | none => services.stopPoint externalCode

/-- What a point gives for one of its two events. -/
structure EventUpdate where
  projected : Option Datetime
  time : Option Datetime
  delay : Option Timedelta
  status : ModificationType
deriving DecidableEq, Repr

/-- Nothing is said of the event. -/
def EventUpdate.unchanged : EventUpdate where
  projected := none
  time := none
  delay := none
  status := .none

/-- The projected time, which a delay moves. -/
def projectTime (base : Option Datetime) (delay : Option Timedelta) :
    Except PyException (Option Datetime) :=
  match delay with
  | none => .ok base
  | some d => do
      let time ← requireDatetime base
      return some (← addDelay time d)

def makeEventUpdate (pdp : Pdp) (e : StopEvent) :
    Except PyException EventUpdate :=
  match pdp.horaireVoyageur e with
  | none => .ok .unchanged
  | some cotsTravelerTime =>
      let moved : Except PyException (Option Datetime × Option Timedelta) := do
        let base ← retrieveStopEventDatetime cotsTravelerTime
        let delay ← retrieveStopEventDelay pdp e
        return (← projectTime base delay, delay)
      let added (status : ModificationType) : Except PyException EventUpdate := do
        let (projected, _) ← moved
        return {
          projected := projected, time := projected, delay := none
          status := status }
      match cotsTravelerTime.statutCirculationOPE with
      | none | some .reactivation => do
          let (projected, delay) ← moved
          return {
            projected := projected, time := none, delay := delay
            status := if delay.isSome then .update else .none }
      | some .suppression => .ok { EventUpdate.unchanged with status := .delete }
      | some .suppressionDetournement =>
          .ok { EventUpdate.unchanged with status := .deletedForDetour }
      | some .creation => added .add
      | some .detournement => added .addedForDetour
      | some (.other text) =>
          .error (.invalidArguments
            ("invalid value " ++ text ++ " for field horaireVoyageur" ++
              toggle e ++ "/statutCirculationOPE"))

/-- The projected times of a stop follow each other and the last departure. -/
def checkStopTimeConsistency
    (lastStopTimeDepart projectedArrival projectedDeparture : Option Datetime)
    (pdpCode : String) : Except PyException Unit :=
  let last := lastStopTimeDepart.getD 0
  let arrival := projectedArrival.getD last
  let departure := projectedDeparture.getD arrival
  if arrival ≤ departure ∧ last ≤ arrival then .ok ()
  else
    .error (.invalidArguments
      ("invalid cots: stop_point's(" ++ pdpCode ++ ") time is not consistent"))

/-- The variables of the loop over the points. -/
structure PdpState where
  lastStopTimeDepart : Option Datetime
  highestStStatus : ModificationType
  stopTimeUpdates : List StopTimeUpdate
deriving DecidableEq, Repr

/-- A reference to a message that is neither missing nor empty. -/
def messageOf (services : Services) (index : Option String) : Option String :=
  (truthyText index).bind services.message

/-- One turn of the loop over the points. -/
def makePdp
    (services : Services) (navVj : NavVj) (st : PdpState) (pdp : Pdp) :
    Except PyException PdpState := do
  match ← getNavitiaStopPoint services pdp navVj with
  | none => return st
  | some navStop =>
      let arrival ← makeEventUpdate pdp .arrival
      let departure ← makeEventUpdate pdp .departure
      let pdpCode :=
        pdp.cr.getD "" ++ "-" ++ pdp.ci.getD "" ++ "-" ++ pdp.ch.getD ""
      checkStopTimeConsistency st.lastStopTimeDepart arrival.projected
        departure.projected pdpCode
      let stUpdate : StopTimeUpdate := {
        stopId := navStop.id
        order := st.stopTimeUpdates.length
        message :=
          messageOf services
            (truthyText pdp.idMotifInterneDepartReference <|>
              pdp.idMotifInterneArriveeReference)
        departure := departure.time
        departureDelay := departure.delay
        departureStatus := departure.status
        arrival := arrival.time
        arrivalDelay := arrival.delay
        arrivalStatus := arrival.status }
      return {
        lastStopTimeDepart := departure.projected
        highestStStatus :=
          getHigherStatus (getHigherStatus st.highestStStatus arrival.status)
            departure.status
        stopTimeUpdates := st.stopTimeUpdates ++ [stUpdate] }

def getNavitiaCompany (services : Services) (code : String) :
    Except PyException (Option String) := do
  match truthyText (← services.company code) with
  | some company => return some company
  | none => services.company defaultCompanyId

def getModeFilter (indicator : Option String) : String :=
  if indicator = some "ROUTIER" then "physical_mode.id=physical_mode:Coach"
  else "physical_mode.id=physical_mode:LongDistanceTrain"

def getNavitiaPhysicalMode (services : Services) (indicator : Option String) :
    Except PyException (Option String) := do
  match truthyText (← services.physicalMode (getModeFilter indicator)) with
  | some mode => return some mode
  | none => services.physicalMode (getModeFilter none)

/-- The trip update of one vehicle journey. -/
def makeTripUpdate
    (services : Services) (contributorId : String) (jsonTrain : DictVersion)
    (found : FoundVj) (actionOnTrip : ActionOnTrip) :
    Except PyException NewTripUpdate := do
  let message := messageOf services jsonTrain.idMotifInterneReference
  let companyId ←
    getNavitiaCompany services
      ((truthyText jsonTrain.codeCompagnieTransporteur).getD defaultCompanyId)
  let tripStatus ← getValue "statutOperationnel" jsonTrain.statutOperationnel
  let base : NewTripUpdate := {
    vj := found.vj
    status := .delete
    message := message
    companyId := companyId
    effect := some .noService
    physicalModeId := none
    headsign := none
    contributorId := contributorId
    stopTimeUpdates := []
    navitiaVj := found.navVj.toNavitiaVj }
  if tripStatus = .supprimee then return base
  else
    let base ←
      if actionOnTrip ≠ .notAdded then do
        let physicalModeId ←
          getNavitiaPhysicalMode services jsonTrain.indicateurFer
        pure { base with
          status := .add
          effect := some .additionalService
          physicalModeId := physicalModeId
          headsign := jsonTrain.numeroCourse }
      else
        pure { base with status := .update, effect := some .modifiedService }
    let listPdp ← getValue "listePointDeParcours" jsonTrain.listePointDeParcours
    let st ←
      (retrieveInterestingPdp listPdp).foldlM (makePdp services found.navVj)
        { lastStopTimeDepart := none
          highestStStatus := .none
          stopTimeUpdates := [] }
    return { base with
      effect :=
        if base.effect = some .modifiedService then
          some (getEffectByStopTimeStatus st.highestStStatus)
        else base.effect
      stopTimeUpdates := st.stopTimeUpdates }

/-- The version object of a feed. -/
def readVersion (raw : RawData) : Except PyException DictVersion :=
  match raw with
  | .notJson message =>
      .error (.invalidArguments ("invalid json: " ++ message))
  | .json none =>
      .error (.invalidArguments
        "No object \"nouvelleVersion\" available in feed provided")
  | .json (some version) => getValue "nouvelleVersion" version

/-- The trip updates of a feed, given the rows that are stored. -/
def buildTripUpdates
    (services : Services) (contributorId : String) (newId : String → String)
    (rows : List TripUpdate) (raw : RawData) :
    Except PyException (List NewTripUpdate) := do
  let dictVersion ← readVersion raw
  let trainNumbers ← getValue "numeroCourse" dictVersion.numeroCourse
  let listPdp ← getValue "listePointDeParcours" dictVersion.listePointDeParcours
  let pdps := retrieveInterestingPdp listPdp
  if pdps.length < 2 then
    throw (.invalidArguments
      ("invalid json, \"listePointDeParcours\" has less than 2 valid " ++
        "stop_times in json elt"))
  else
    let actionOnTrip ← getActionOnTrip rows trainNumbers dictVersion pdps
    let vjs ← getVjs services newId trainNumbers pdps actionOnTrip
    vjs.mapM (fun found =>
      makeTripUpdate services contributorId dictVersion found actionOnTrip)

namespace Sample

/-- A created event at the given time. -/
def created (t : Datetime) : TravelerTime where
  isEmpty := false
  dateHeure := some { text := "base", parsed := .ok t }
  statutCirculationOPE := some .creation
  empty := nofun

/-- A created point, where the train arrives and departs at the given times. -/
def pdp (rang : Int) (ch : String) (arrival departure : Datetime) : Pdp where
  rang := rang
  cr := some "0087"
  ci := some "1"
  ch := some ch
  typeArret := none
  horaireVoyageurArrivee := some (created arrival)
  horaireVoyageurDepart := some (created departure)
  sourceHoraireProjeteArriveeReference := none
  sourceHoraireProjeteDepartReference := none
  listeHoraireProjeteArrivee := none
  listeHoraireProjeteDepart := none
  idMotifInterneArriveeReference := none
  idMotifInterneDepartReference := none

/-- The version of a feed on a train with the given status and points. -/
def version (number : String) (status : TripStatus) (pdps : List Pdp) :
    DictVersion where
  numeroCourse := some number
  statutOperationnel := some status
  listePointDeParcours := some pdps
  idMotifInterneReference := none
  codeCompagnieTransporteur := none
  indicateurFer := none

/-- Two created points, the train arriving at ten. -/
def points (departure : Datetime) : List Pdp :=
  [pdp 0 "a" departure departure,
    pdp 1 "b" (Core.Sample.clock 10 0) (Core.Sample.clock 10 0)]

/-- Navitia knows the stop points, and no vehicle journey. -/
def services : Services where
  vehicleJourneys := fun _ _ _ => .ok []
  stopPoint := fun code =>
    .ok (some { id := code, codes := [], stopAreaCodes := [] })
  company := fun code => .ok (some code)
  physicalMode := fun mode => .ok (some mode)
  message := fun _ => none

end Sample

end Cots
end Kirin
