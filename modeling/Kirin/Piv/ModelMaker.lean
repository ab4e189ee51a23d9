import Kirin.Core.BuildWrapper
import Kirin.Core.Circulation
import Mathlib.Data.List.Sort

/-!
# Kirin: the PIV builder

This module follows `kirin/piv/model_maker.py`.  A PIV feed is about one train,
given by the elements of its key, its disruptions and its list of stops.

* `higherDisruption` picks the disruption that gives its effect to the trip.
* `retrieveInterestingStops` selects the stops where travelers hop on or off.
* `getNavitiaVj` looks for the only vehicle journey of the key, or makes the one
  of a train that navitia does not have.
* `makeTripUpdate` reads the stops into a trip update.
* `buildTripUpdates` puts them together.

The answers of navitia are parameters.  Every stop has a rank.  A key read with
`get` and a default value may be missing, which is not the same as null: such a
value is given in two layers of `Option`.
-/

namespace Kirin
namespace Piv

open Kirin.Core

/-- The type of a disruption of the train. -/
inductive DisruptionType
  | suppression
  | creation
  | modificationDetournement
  | modificationDesserteSupprimee
  | modificationLimitation
  | modificationDesserteAjoutee
  | modificationProlongation
  | retard
  | normal
  | undefined
  | other (text : String)
deriving DecidableEq, Repr

/-- The status of a stop event, or the type of its disruption. -/
inductive StopStatus
  | retardObserve
  | retardProjete
  | suppressionPartielle
  | suppressionDetournement
  | creation
  | creationDetournement
  | normal
  | other (text : String)
deriving DecidableEq, Repr

def StopStatus.text : StopStatus → String
  | .retardObserve => "RETARD_OBSERVE"
  | .retardProjete => "RETARD_PROJETE"
  | .suppressionPartielle => "SUPPRESSION_PARTIELLE"
  | .suppressionDetournement => "SUPPRESSION_DETOURNEMENT"
  | .creation => "CREATION"
  | .creationDetournement => "CREATION_DETOURNEMENT"
  | .normal => "NORMAL"
  | .other text => text

inductive PlanTransportSource
  | ptp
  | ope
  | other (text : String)
deriving DecidableEq, Repr

/-- A disruption of the train. -/
structure Disruption where
  type : Option DisruptionType
  texte : Option String
deriving DecidableEq, Repr

/-- The delay of a disruption, in minutes. -/
structure Retard where
  duree : Option (Option Int)
deriving DecidableEq, Repr

/-- The disruption of a stop event; an empty one carries nothing. -/
structure StopDisruption where
  isEmpty : Bool
  type : Option StopStatus
  texte : Option String
  retard : Option (Option Retard)
  empty : isEmpty = true → type = none ∧ texte = none ∧ retard = none
deriving DecidableEq, Repr

/-- An object `arrivee` or `depart`; an empty one carries nothing. -/
structure StopEventInfo where
  isEmpty : Bool
  dateHeure : Option DateText
  dateHeureReelle : Option DateText
  planTransportSource : Option PlanTransportSource
  motifModification : Option String
  statutModification : Option (Option StopStatus)
  evenement : Option (Option StopDisruption)
  empty : isEmpty = true →
    dateHeure = none ∧ dateHeureReelle = none ∧ planTransportSource = none ∧
      motifModification = none ∧ statutModification = none ∧ evenement = none
deriving DecidableEq, Repr

/-- An element of the list of stops. -/
structure Arret where
  rang : Int
  emplacement : Option (Option String)
  arrivee : Option StopEventInfo
  depart : Option StopEventInfo
  indicateurMonteeInterdite : Option Bool
  indicateurDescenteInterdite : Option Bool
deriving DecidableEq, Repr

def Arret.event (arret : Arret) : StopEvent → Option StopEventInfo
  | .arrival => arret.arrivee
  | .departure => arret.depart

/-- The name of a stop event in the feed. -/
def toggle : StopEvent → String
  | .arrival => "arrivee"
  | .departure => "depart"

/-- The object `modeTransport`. -/
structure ModeTransport where
  codeMode : Option String
  codeSousMode : Option String
  typeMode : Option String
deriving DecidableEq, Repr

/-- The object of a train. -/
structure Train where
  evenement : Option (List Disruption)
  planTransportSource : Option PlanTransportSource
  dateCirculation : Option String
  numero : Option String
  operateur : Option (Option String)
  modeTransport : Option ModeTransport
  listeArretsDesserte : Option (Option (List Arret))
deriving DecidableEq, Repr

/-- The text of a feed: not JSON, or an object with its list of trains. -/
inductive RawData
  | notJson (message : String)
  | json (objects : Option (List (Option Train)))
deriving DecidableEq, Repr

/-- The answers of navitia. -/
structure Services where
  vehicleJourneys : String → Except PyException (List NavVj)
  stopPoint : String → Except PyException (Option NavStopPoint)
  company : String → Except PyException (Option String)
  physicalMode : String → Except PyException (Option String)

def defaultCompanyCode : String :=
  "1187"

def tripPivStatusToEffect : DisruptionType → Option TripEffect
  | .suppression => some .noService
  | .creation => some .additionalService
  | .modificationDetournement => some .detour
  | .modificationDesserteSupprimee => some .reducedService
  | .modificationLimitation => some .reducedService
  | .modificationDesserteAjoutee => some .modifiedService
  | .modificationProlongation => some .modifiedService
  | .retard => some .significantDelays
  | .normal => some .unknownEffect
  | .undefined => some .undefined
  | .other _ => none

/-- Rank of an effect, none standing for the greatest integer. -/
def tripEffectOrder : TripEffect → Option Nat
  | .additionalService => some 0
  | .noService => some 1
  | .detour => some 2
  | .reducedService => some 3
  | .modifiedService => some 4
  | .significantDelays => some 5
  | .unknownEffect => some 6
  | _ => none

def getTripEffectOrderFromPivStatus (status : DisruptionType) : Option Nat :=
  tripEffectOrder ((tripPivStatusToEffect status).getD .undefined)

/-- The types of the disruptions of a train that are taken into account. -/
def managedEvents : List DisruptionType :=
  [.retard, .suppression, .modificationDesserteSupprimee,
    .modificationLimitation, .modificationDesserteAjoutee,
    .modificationProlongation, .modificationDetournement, .normal]

/-- The statuses of a stop event that are taken into account. -/
def managedStopEvents : List StopStatus :=
  [.retardObserve, .retardProjete, .suppressionPartielle,
    .suppressionDetournement, .creation, .creationDetournement, .normal]

/-- Comparison of two ranks. -/
def orderLt : Option Nat → Option Nat → Bool
  | some a, some b => decide (a < b)
  | some _, none => true
  | none, _ => false

/-- A disruption with its type: the one chosen so far. -/
structure ChosenDisruption where
  type : DisruptionType
  texte : Option String
deriving DecidableEq, Repr

def higherDisruption (pivDisruptions : List Disruption) : ChosenDisruption :=
  pivDisruptions.foldl (fun higher d =>
    match d.type with
    | none => higher
    | some type =>
        if managedEvents.contains type &&
            orderLt (getTripEffectOrderFromPivStatus type)
              (getTripEffectOrderFromPivStatus higher.type) then
          { type := type, texte := d.texte }
        else higher)
    { type := .undefined, texte := some "" }

/-- The disruption of a train, when the train can be taken into account. -/
def chooseDisruption (train : Train) : Except PyException ChosenDisruption :=
  match train.evenement.getD [], train.planTransportSource with
  | [], none =>
      .error (.invalidArguments
        ("No object \"evenement\" or \"planTransportSource\" available in " ++
          "feed provided"))
  | [], some (.other text) =>
      if text = "" then
        .error (.invalidArguments
          ("No object \"evenement\" or \"planTransportSource\" available in " ++
            "feed provided"))
      else
        .error (.unsupportedValue
          ("planTransportSource " ++ text ++ " is not supported"))
  | [], some _ => .ok (higherDisruption [])
  | d :: rest, _ =>
      let higher := higherDisruption (d :: rest)
      if tripPivStatusToEffect higher.type = some .undefined then
        .error (.unsupportedValue
          "None of the disruption-types are supported")
      else .ok higher

/-- An event that is given and not empty. -/
def isTruthy (event : Option StopEventInfo) : Bool :=
  event.any (fun e => !e.isEmpty)

def hasDeparture (stop : Arret) : Bool :=
  isTruthy stop.depart && !stop.indicateurMonteeInterdite.getD false

def hasArrival (stop : Arret) : Bool :=
  isTruthy stop.arrivee && !stop.indicateurDescenteInterdite.getD false

/-- The loop of `retrieveInterestingStops`, over the stops in order. -/
def interestingStops : Bool → List Arret → List Arret
  | _, [] => []
  | pickedOne, stop :: rest =>
      -- nothing is kept before a departure
      if !pickedOne && !hasDeparture stop then interestingStops pickedOne rest
      else if !hasDeparture stop && !hasArrival stop then
        interestingStops pickedOne rest
      -- nothing is kept once no arrival follows
      else if !hasArrival stop && !(stop :: rest).any hasArrival then []
      else stop :: interestingStops true rest

def retrieveInterestingStops (listAd : List Arret) : List Arret :=
  interestingStops false (listAd.insertionSort (fun p q => p.rang ≤ q.rang))

/-- Whether no event of a stop was present in the base schedule. -/
def isFullyAddedStop (ad : Arret) : Bool :=
  [StopEvent.arrival, .departure].all (fun e =>
    match ad.event e with
    | none => true
    | some event =>
        event.isEmpty || event.planTransportSource == some .ope
          || event.planTransportSource == some .ptp)

def getFirstStopBaseDatetime (listAds : List Arret) (e : StopEvent) :
    Except PyException (Option Datetime) :=
  match listAds.find? (fun s => !isFullyAddedStop s) with
  | none => .ok none
  | some s => do
      let event ← getValue (toggle e) (s.event e)
      let strTime ← getValue "dateHeure" event.dateHeure
      asTruthyDt (some strTime)

/-- The identifier of the trip of a train that navitia does not have. -/
def tripPivIdFormat (pivKey : String) : String :=
  "PIV:REALTIME:" ++ pivKey

def makeNavitiaEmptyVj (pivKey : String) : NavVj where
  id := "vehicle_journey:" ++ tripPivIdFormat pivKey
  tripId := tripPivIdFormat pivKey
  stopTimes := []

/-- The stop of a vehicle journey whose stop area has a given code. -/
def extractNavitiaStopTime (uic8 : String) (navVj : NavVj) :
    Option NavStopTime :=
  navVj.stopTimes.find? (fun s =>
    s.stopPoint.any (fun p =>
      p.stopAreaCodes.any (fun c => c.value == uic8 && c.type == "source")))

/-- The projected times of a stop follow each other and the last departure. -/
def checkStopTimeConsistency
    (previousRtStopTimeDep rtArrival rtDeparture : Option Datetime)
    (uic8 : String) : Except PyException Unit :=
  let previous := previousRtStopTimeDep.getD 0
  let arrival := rtArrival.getD previous
  let departure := rtDeparture.getD arrival
  if previous ≤ arrival ∧ arrival ≤ departure then .ok ()
  else
    .error (.invalidArguments
      ("invalid feed: stop_point's(" ++ uic8 ++ ") time is not consistent"))

/-- `event.get("evenement", ...).get(...)`: the disruption must not be null. -/
def getEvenement (event : StopEventInfo) :
    Except PyException (Option StopDisruption) :=
  match event.evenement with
  | none => .ok none
  | some none => .error .attributeError
  | some (some d) => .ok (some d)

/-- The event of a stop, when it is not empty. -/
def truthyEvent (event : Option StopEventInfo) : Option StopEventInfo :=
  event.filter (fun e => !e.isEmpty)

/-- The text of the disruption of an event, when the event is not empty. -/
def texteOf (event : Option StopEventInfo) :
    Except PyException (Option String) :=
  match truthyEvent event with
  | none => .ok none
  | some e => (getEvenement e).map (fun d => d.bind StopDisruption.texte)

/-- The reason of a stop: that of an event, else the text of a disruption. -/
def getMessage (arret : Arret) : Except PyException (Option String) := do
  let motif :=
    truthyText ((truthyEvent arret.depart).bind StopEventInfo.motifModification)
      <|> (truthyEvent arret.arrivee).bind StopEventInfo.motifModification
  match truthyText motif with
  | some motif => return some motif
  | none =>
      let ofDepart ←
        if isTruthy arret.depart then texteOf arret.depart else pure motif
      match truthyText ofDepart with
      | some texte => return some texte
      | none =>
          if isTruthy arret.arrivee then texteOf arret.arrivee
          else return ofDepart

/-- What a stop gives for one of its two events. -/
structure EventUpdate where
  time : Option Datetime
  delay : Option Timedelta
  status : ModificationType
deriving DecidableEq, Repr

def statusOf : Option StopStatus → ModificationType
  | some .retardObserve | some .retardProjete => .update
  | some .suppressionPartielle => .delete
  | some .suppressionDetournement => .deletedForDetour
  | some .creation => .add
  | some .creationDetournement => .addedForDetour
  | _ => .none

/-- The delay of a disruption, when the event has a disruption. -/
def delayOf (disruption : Option StopDisruption) :
    Except PyException (Option Timedelta) :=
  match disruption with
  | none => .ok none
  | some d =>
      if d.isEmpty then .ok none
      else
        match d.retard with
        | none => asDuration (some 0)
        | some none => .error .attributeError
        | some (some retard) =>
            match retard.duree with
            | none => asDuration (some 0)
            | some none => .error .typeError
            | some (some duree) => asDuration (some (duree * 60))

/-- The status of an event: its own, or the type of its disruption. -/
def eventStatus (event : StopEventInfo) (disruption : Option StopDisruption) :
    Option StopStatus :=
  match event.statutModification with
  | some statut => statut
  | none => disruption.bind StopDisruption.type

/-- Whether a status is missing, empty, or taken into account. -/
def isManaged : Option StopStatus → Bool
  | none => true
  | some s => s.text == "" || managedStopEvents.contains s

def makeEventUpdate (arret : Arret) (e : StopEvent) :
    Except PyException EventUpdate :=
  match arret.event e with
  | none => .ok { time := none, delay := none, status := .none }
  | some event => do
      let disruption ← getEvenement event
      let status := eventStatus event disruption
      if isManaged status then
        let time ← asTruthyDt event.dateHeureReelle
        let delay ← delayOf disruption
        return { time := time, delay := delay, status := statusOf status }
      else
        throw (.invalidArguments
          ("invalid value " ++ ((status.map StopStatus.text).getD "None") ++
            " for field " ++ toggle e ++ "/statutModification or " ++ toggle e ++
            "/evenement/type"))

def getUic8 (arret : Arret) : Except PyException String := do
  let emplacement ← getValue "emplacement" arret.emplacement
  getValue "code" emplacement

/-- The stop point of a stop, looked up in the vehicle journey, then alone. -/
def getNavitiaStopPoint
    (services : Services) (arret : Arret) (navVj : NavVj) :
    Except PyException (Option NavStopPoint) := do
  let uic8 ← getUic8 arret
  match extractNavitiaStopTime uic8 navVj with
  | some navSt => return navSt.stopPoint
  | none => services.stopPoint uic8

/-- The variables of the loop over the stops. -/
structure ArretState where
  previousRtStopTimeDep : Option Datetime
  highestStStatus : ModificationType
  stopTimeUpdates : List StopTimeUpdate
deriving DecidableEq, Repr

/-- One turn of the loop over the stops. -/
def makeArret
    (services : Services) (navVj : NavVj) (st : ArretState) (arret : Arret) :
    Except PyException ArretState := do
  match ← getNavitiaStopPoint services arret navVj with
  | none => return st
  | some navStop =>
      let message ← getMessage arret
      let arrival ← makeEventUpdate arret .arrival
      let departure ← makeEventUpdate arret .departure
      let uic8 ← getUic8 arret
      checkStopTimeConsistency st.previousRtStopTimeDep arrival.time
        departure.time uic8
      let stUpdate : StopTimeUpdate := {
        stopId := navStop.id
        order := st.stopTimeUpdates.length
        message := message
        departure := departure.time
        departureDelay := departure.delay
        departureStatus := departure.status
        arrival := arrival.time
        arrivalDelay := arrival.delay
        arrivalStatus := arrival.status }
      return {
        previousRtStopTimeDep := departure.time
        highestStStatus :=
          getHigherStatus (getHigherStatus st.highestStStatus arrival.status)
            departure.status
        stopTimeUpdates := st.stopTimeUpdates ++ [stUpdate] }

def getNavitiaCompanyId (services : Services) (code : String) :
    Except PyException (Option String) := do
  match ← services.company code with
  | some company => return some company
  | none =>
      match ← services.company defaultCompanyCode with
      | some company => return some company
      | none =>
          throw (.objectNotFound
            ("no company found for key " ++ code ++
              ", nor for the default company " ++ defaultCompanyCode))

def getNavitiaPhysicalModeId (services : Services) (indicator : String) :
    Except PyException (Option String) :=
  services.physicalMode
    (if indicator = "ROUTIER" then "physical_mode:Coach"
      else "physical_mode:LongDistanceTrain")

/-- A vehicle journey on its day, with the one of navitia it comes from. -/
structure FoundVj where
  navVj : NavVj
  vj : VehicleJourney
deriving DecidableEq, Repr

/-- The elements of a train that its trip update is made of. -/
structure CleanTrain where
  numero : String
  codeOperateur : String
  typeMode : String
  disruption : ChosenDisruption
  ads : List Arret
deriving DecidableEq, Repr

def makeTripUpdate
    (services : Services) (contributorId : String) (train : CleanTrain)
    (found : FoundVj) : Except PyException NewTripUpdate := do
  let companyId ← getNavitiaCompanyId services train.codeOperateur
  let physicalModeId ← getNavitiaPhysicalModeId services train.typeMode
  let effect ← match tripPivStatusToEffect train.disruption.type with
    | some effect => pure effect
    | none => throw .keyError
  let base : NewTripUpdate := {
    vj := found.vj
    status := .delete
    message := train.disruption.texte
    companyId := companyId
    effect := some effect
    physicalModeId := physicalModeId
    headsign := some train.numero
    contributorId := contributorId
    stopTimeUpdates := []
    navitiaVj := found.navVj.toNavitiaVj }
  if effect = .noService then return base
  else
    let st ← train.ads.foldlM (makeArret services found.navVj)
      { previousRtStopTimeDep := none
        highestStStatus := .none
        stopTimeUpdates := [] }
    return { base with
      status := .update
      effect :=
        if effect = .modifiedService then
          some (getEffectByStopTimeStatus st.highestStStatus)
        else some effect
      stopTimeUpdates := st.stopTimeUpdates }

/-- The search margin around the first base departure. -/
def baseVsRtErrorMargin : Timedelta :=
  3600 * second

/-- The only vehicle journey of a key, on the day of the feed. -/
def getNavitiaVj
    (services : Services) (newId : String) (pivKey : String)
    (ads : List Arret) : Except PyException FoundVj := do
  let navitiaVjs ← services.vehicleJourneys pivKey
  let navitiaVjs :=
    if navitiaVjs.isEmpty then [makeNavitiaEmptyVj pivKey] else navitiaVjs
  let notFound : PyException := .objectNotFound ("no train found for key " ++ pivKey)
  match navitiaVjs with
  | [navVj] =>
      match getFirstStopBaseDatetime ads .departure with
      | .ok (some start) =>
          match VehicleJourney.init newId navVj (start - baseVsRtErrorMargin)
              (start + baseVsRtErrorMargin) (some start) with
          | .ok vj => return { navVj := navVj, vj := vj }
          | .error _ => throw notFound
      | _ => throw notFound
  | _ => throw notFound

/-- The train of a feed. -/
def readTrain (raw : RawData) : Except PyException Train :=
  match raw with
  | .notJson message =>
      .error (.invalidArguments ("invalid json: " ++ message))
  | .json objects => do
      match ← getValue "objects" objects with
      | [] => throw .indexError
      | train :: _ => getValue "object" train

/-- The trip updates of a feed. -/
def buildTripUpdates
    (services : Services) (contributorId : String) (newId : String)
    (raw : RawData) : Except PyException (List NewTripUpdate) := do
  let train ← readTrain raw
  let disruption ← chooseDisruption train
  let trainDate ← getValue "dateCirculation" train.dateCirculation
  let trainNumbers ← getValue "numero" train.numero
  let trainCompany ←
    getValue "codeOperateur" (← getValue "operateur" train.operateur)
  let modeDict ← getValue "modeTransport" train.modeTransport
  let trainMode ← getValue "codeMode" modeDict.codeMode
  let trainSubmode ← getValue "codeSousMode" modeDict.codeSousMode
  let trainTypemode ← getValue "typeMode" modeDict.typeMode
  let pivKey :=
    trainDate ++ ":" ++ trainNumbers ++ ":" ++ trainCompany ++ ":" ++
      trainMode ++ ":" ++ trainSubmode ++ ":" ++ trainTypemode
  let listAds ← getValue "listeArretsDesserte" train.listeArretsDesserte
  let ads := retrieveInterestingStops (← getValue "arret" listAds)
  if ads.length < 2 then
    throw (.invalidArguments
      ("invalid json, \"listeArretsDesserte/arret\" has less than 2 valid " ++
        "stop_times in json elt"))
  else
    let found ← getNavitiaVj services newId pivKey ads
    let tripUpdate ←
      makeTripUpdate services contributorId
        { numero := trainNumbers
          codeOperateur := trainCompany
          typeMode := trainTypemode
          disruption := disruption
          ads := ads }
        found
    return [tripUpdate]

namespace Sample

/-- A stop event at its base time of 2012-11-20. -/
def event (t : Datetime) : StopEventInfo where
  isEmpty := false
  dateHeure := some { text := "base", parsed := .ok t }
  dateHeureReelle := some { text := "real", parsed := .ok t }
  planTransportSource := none
  motifModification := none
  statutModification := none
  evenement := none
  empty := nofun

/-- A stop served at the given time. -/
def arret (rang : Int) (code : String) (t : Datetime) : Arret where
  rang := rang
  emplacement := some (some code)
  arrivee := some (event t)
  depart := some (event t)
  indicateurMonteeInterdite := none
  indicateurDescenteInterdite := none

/-- A train of two stops with the given disruptions. -/
def train (evenement : Option (List Disruption)) : Train where
  evenement := evenement
  planTransportSource := some .ope
  dateCirculation := some "2012-11-20"
  numero := some "1"
  operateur := some (some "1187")
  modeTransport :=
    some { codeMode := some "F", codeSousMode := some "F", typeMode := some "F" }
  listeArretsDesserte :=
    some (some
      [arret 0 "a" (Core.Sample.clock 8 0), arret 1 "b" (Core.Sample.clock 9 0)])

def feed (evenement : Option (List Disruption)) : RawData :=
  .json (some [some (train evenement)])

/-- A stop time of navitia at the given time. -/
def navStop (code : String) (t : Datetime) : NavStopTime where
  stopPoint :=
    some
      { id := code, codes := []
        stopAreaCodes := [{ type := "source", value := code }] }
  utcArrivalTime := some (Datetime.time t)
  utcDepartureTime := some (Datetime.time t)

/-- Navitia knows the vehicle journey of the train. -/
def services : Services where
  vehicleJourneys := fun _ =>
    .ok
      [{ id := "vj:1", tripId := "trip:1"
         stopTimes :=
          [navStop "a" (Core.Sample.clock 8 0),
            navStop "b" (Core.Sample.clock 9 0)] }]
  stopPoint := fun _ => .ok none
  company := fun code => .ok (some code)
  physicalMode := fun mode => .ok (some mode)

end Sample

end Piv
end Kirin
