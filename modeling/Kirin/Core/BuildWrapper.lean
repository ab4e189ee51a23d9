import Kirin.Core.MergeUtils
import Kirin.Core.PopulatePb
import Mathlib.Data.List.Sort

/-!
# Kirin: consistency, persistence and publication

This module follows `kirin/core/build_wrapper.py`.

* `manageConsistency` goes through the stops of a merged trip and adjusts them
  in place, until it rejects the trip or reaches its end.
* `handle` merges each trip update of a feed with the stored one, commits the
  session and publishes the trip updates that were linked to the feed.
* `wrapBuild` records the failure of a feed on its `RealTimeUpdate`.

The database carries its unique keys, its enumeration of effects and the texts
that its driver takes as invariants, so that a commit that would break one of
them raises.  A row whose
stop list was reassigned is read back from the database in the order of its
stops, each stop once: a stored stop that the merge has put twice in a list is
one row.
-/

namespace Kirin
namespace Core

/-- Push an event after the previous one, so that both have the same delay. -/
def pushEvent
    (previous : TimeDelayTuple Datetime) (time : Datetime) (delay : Timedelta) :
    Datetime × Timedelta :=
  match previous.time with
  | some p =>
      if time < p then
        let delayDiff := previous.delay - delay
        (time + delayDiff, delay + delayDiff)
      else (time, delay)
  | none => (time, delay)

/-- A delay filled with the one of the other event when it is missing or zero. -/
def fillDelay (own other : Option Timedelta) : Option Timedelta :=
  if own.getD 0 = 0 ∧ other.getD 0 ≠ 0 then other else own

/-- Adjust one event that is not deleted, and make it the previous one. -/
def adjustEvent
    (previous : TimeDelayTuple Datetime) (deleted : Bool)
    (time : Datetime) (delay : Timedelta) :
    (Datetime × Timedelta) × TimeDelayTuple Datetime :=
  if deleted then ((time, delay), previous)
  else
    let pushed := pushEvent previous time delay
    (pushed, { time := some pushed.1, delay := pushed.2 })

/--
Adjust one stop.  There is no result when the stop has no time at all and
nothing comes before.
-/
def adjustStop
    (previous : TimeDelayTuple Datetime) (stu : StopTimeUpdate) :
    Option (StopTimeUpdate × TimeDelayTuple Datetime) :=
  match stu.arrival <|> stu.departure <|> previous.time with
  | none => none
  | some arrival =>
      let arrivalDelay :=
        if stu.arrival.isNone then
          fillDelay stu.arrivalDelay stu.departureDelay
        else stu.arrivalDelay
      let departure := stu.departure.getD arrival
      let departureDelay :=
        if stu.departure.isNone then
          fillDelay stu.departureDelay arrivalDelay
        else stu.departureDelay
      let ((arrival, arrivalDelay), previous) :=
        adjustEvent previous (stu.isStopEventDeleted .arrival)
          arrival (arrivalDelay.getD 0)
      let ((departure, departureDelay), previous) :=
        adjustEvent previous (stu.isStopEventDeleted .departure)
          departure (departureDelay.getD 0)
      some (
        { stu with
          arrival := some arrival
          arrivalDelay := some arrivalDelay
          departure := some departure
          departureDelay := some departureDelay },
        previous)

/-- The loop of `manageConsistency`, from a given index on. -/
def consistencyLoop :
    Nat → TimeDelayTuple Datetime → List StopTimeUpdate →
    Bool × List StopTimeUpdate
  | _, _, [] => (true, [])
  | currentOrder, previous, stu :: rest =>
      if stu.order ≠ currentOrder then (false, stu :: rest)
      else
        match adjustStop previous stu with
        | none => (false, stu :: rest)
        | some (stu, previous) =>
            let next := consistencyLoop (currentOrder + 1) previous rest
            (next.1, stu :: next.2)

/-- Whether the trip can be managed, and its stops as they are left. -/
def manageConsistency (stopTimeUpdates : List StopTimeUpdate) :
    Bool × List StopTimeUpdate :=
  consistencyLoop 0 { time := none, delay := 0 } stopTimeUpdates

/-- The contributor's builder, as far as `handle` uses it. -/
structure Builder where
  contributorId : String
  connector : ConnectorType
deriving DecidableEq, Repr

/-- COTS and PIV feeds are complete, GTFS-RT feeds need not be. -/
def Builder.isNewComplete (b : Builder) : Bool :=
  match b.connector with
  | .cots | .piv => true
  | .gtfsRt => false

def Builder.mergeTripUpdates
    (b : Builder) (navitiaVj : NavitiaVj)
    (dbTripUpdate : Option TripUpdate) (newTripUpdate : NewTripUpdate) :
    MergeOutcome :=
  merge navitiaVj dbTripUpdate newTripUpdate b.isNewComplete

inductive RtStatus
  | ok
  | ko
  | pending
deriving DecidableEq, Repr

/-- The error recorded on a feed: a text, or the message of an exception. -/
inductive RtuError
  | text (s : String)
  | messageOf (e : PyException)
deriving DecidableEq, Repr

/-- Whether the driver takes an error. -/
def RtuError.takenByDriver : RtuError → Bool
  | .text s => !hasNul s
  | .messageOf _ => true

/-- A feed received, with its processing status. -/
structure RealTimeUpdate where
  id : String
  connector : ConnectorType
  status : RtStatus
  error : Option RtuError
  contributorId : String
deriving DecidableEq, Repr

/-- The effect of the trip is one the database can hold. -/
def EffectInDatabase (tu : TripUpdate) : Prop :=
  ∀ e, tu.effect = some e → e.inDatabase = true

instance (tu : TripUpdate) : Decidable (EffectInDatabase tu) :=
  match h : tu.effect with
  | none => isTrue (by simp [EffectInDatabase, h])
  | some e =>
      decidable_of_iff (e.inDatabase = true) (by simp [EffectInDatabase, h])

/-- The driver takes all the texts of the trip. -/
def TextsFit (tu : TripUpdate) : Prop :=
  ∀ text ∈ tu.texts, hasNul text = false

instance (tu : TripUpdate) : Decidable (TextsFit tu) :=
  inferInstanceAs (Decidable (∀ text ∈ tu.texts, hasNul text = false))

/-- The driver takes the error of the feed, if it has one. -/
def RealTimeUpdate.ErrorFits (rtu : RealTimeUpdate) : Prop :=
  ∀ error ∈ rtu.error, error.takenByDriver = true

instance (rtu : RealTimeUpdate) : Decidable rtu.ErrorFits :=
  inferInstanceAs
    (Decidable (∀ error ∈ rtu.error, error.takenByDriver = true))

/-- The committed content of the database. -/
structure Db where
  tripUpdates : List TripUpdate
  realTimeUpdates : List RealTimeUpdate
  associations : List (String × String)
  uniqueVj : (tripUpdates.map (fun tu => tu.vj.id)).Nodup
  uniqueDatedVj : (tripUpdates.map (fun tu => tu.vj.datedKey)).Nodup
  uniqueRtu : (realTimeUpdates.map RealTimeUpdate.id).Nodup
  uniqueAssociation : associations.Nodup
  effects : ∀ tu ∈ tripUpdates, EffectInDatabase tu
  texts : ∀ tu ∈ tripUpdates, TextsFit tu

/-- Each stop once, the first occurrence of a repeated one being kept. -/
def dropRepeatedStops : List StopTimeUpdate → List StopTimeUpdate
  | [] => []
  | st :: rest =>
      st :: (dropRepeatedStops rest).filter
        (fun st' => st'.stopId != st.stopId || st'.order != st.order)

/-- A reassigned stop list, as it is read back from the database. -/
def reloadStops (stus : List StopTimeUpdate) : List StopTimeUpdate :=
  (dropRepeatedStops stus).insertionSort (fun a b => a.order ≤ b.order)

/-- What processing one trip update does. -/
structure ProcessedTrip where
  tripUpdate : TripUpdate
  linked : Except PyException Bool

/--
Merge one trip update with the stored one and manage its consistency: the
content the result object is left with, and whether the trip is accepted.
-/
def processTripUpdate
    (b : Builder) (old : Option TripUpdate) (tripUpdate : NewTripUpdate) :
    ProcessedTrip :=
  let outcome := b.mergeTripUpdates tripUpdate.navitiaVj old tripUpdate
  match outcome.returned with
  | .ok true =>
      let managed := manageConsistency outcome.res.stopTimeUpdates
      { tripUpdate :=
          { outcome.res with stopTimeUpdates := reloadStops managed.2 }
        linked := .ok managed.1 }
  | .ok false => { tripUpdate := outcome.res, linked := .ok false }
  | .error e => { tripUpdate := outcome.res, linked := .error e }

/--
The session of one call: the stored rows as modified so far, the new rows that
are pending, and the vehicle journeys linked to the feed.
-/
@[ext]
structure Session where
  rows : List TripUpdate
  created : List TripUpdate
  links : List String
deriving DecidableEq, Repr

/-- The row of a dated vehicle journey, among those stored before the call. -/
def findByDatedVj
    (rows : List TripUpdate) (vj : VehicleJourney) : Option TripUpdate :=
  rows.find? (fun tu => tu.vj.datedKey == vj.datedKey)

/-- Overwrite the row of the same vehicle journey. -/
def replaceRow (rows : List TripUpdate) (tu : TripUpdate) : List TripUpdate :=
  rows.map (fun row => if row.vj.id = tu.vj.id then tu else row)

/--
One turn of the loop of `handle`.  A stored trip update is modified whatever
becomes of it, a new one enters the session only when it is linked.
-/
def handleTripUpdate
    (b : Builder) (s : Session) (tripUpdate : NewTripUpdate) :
    Session × Except PyException Unit :=
  let old := findByDatedVj s.rows tripUpdate.vj
  let processed := processTripUpdate b old tripUpdate
  let s :=
    match old with
    | some _ => { s with rows := replaceRow s.rows processed.tripUpdate }
    | none => s
  match processed.linked with
  | .error e => (s, .error e)
  | .ok false => (s, .ok ())
  | .ok true =>
      let s := { s with links := s.links ++ [processed.tripUpdate.vj.id] }
      match old with
      | some _ => (s, .ok ())
      | none =>
          ({ s with created := s.created ++ [processed.tripUpdate] }, .ok ())

/-- The loop of `handle`. -/
def handleLoop
    (b : Builder) : Session → List NewTripUpdate →
    Session × Except PyException Unit
  | s, [] => (s, .ok ())
  | s, tripUpdate :: rest =>
      match handleTripUpdate b s tripUpdate with
      | (s, .ok ()) => handleLoop b s rest
      | (s, .error e) => (s, .error e)

/-- The rows a commit would write. -/
def Session.allRows (s : Session) : List TripUpdate :=
  s.rows ++ s.created

/-- Store a `RealTimeUpdate`, replacing the one with the same id. -/
def putRtu (rtus : List RealTimeUpdate) (rtu : RealTimeUpdate) :
    List RealTimeUpdate :=
  if rtus.any (fun r => r.id == rtu.id) then
    rtus.map (fun r => if r.id = rtu.id then rtu else r)
  else rtus ++ [rtu]

theorem putRtu_ids
    (rtus : List RealTimeUpdate) (rtu : RealTimeUpdate) :
    (putRtu rtus rtu).map RealTimeUpdate.id =
      if rtu.id ∈ rtus.map RealTimeUpdate.id then
        rtus.map RealTimeUpdate.id
      else rtus.map RealTimeUpdate.id ++ [rtu.id] := by
  have hany :
      (rtus.any (fun r => r.id == rtu.id) = true) ↔
        rtu.id ∈ rtus.map RealTimeUpdate.id := by
    simp [List.mem_map]
  unfold putRtu
  by_cases h : rtu.id ∈ rtus.map RealTimeUpdate.id
  · rw [if_pos (hany.2 h), if_pos h, List.map_map]
    apply List.map_congr_left
    intro r _
    by_cases hr : r.id = rtu.id <;> simp [hr]
  · rw [if_neg (fun hc => h (hany.1 hc)), if_neg h]
    simp

theorem putRtu_nodup
    {rtus : List RealTimeUpdate} (rtu : RealTimeUpdate)
    (h : (rtus.map RealTimeUpdate.id).Nodup) :
    ((putRtu rtus rtu).map RealTimeUpdate.id).Nodup := by
  rw [putRtu_ids]
  by_cases hmem : rtu.id ∈ rtus.map RealTimeUpdate.id
  · rwa [if_pos hmem]
  · rw [if_neg hmem]
    rw [List.nodup_append]
    refine ⟨h, by simp, ?_⟩
    intro a ha b hb hab
    rw [List.mem_singleton.1 hb] at hab
    exact hmem (hab ▸ ha)

/--
Commit a session together with its `RealTimeUpdate`.  The driver checks the
texts, the database the keys and the effects.
-/
def dbCommit (db : Db) (s : Session) (rtu : RealTimeUpdate) :
    Except PyException Db :=
  let associations :=
    db.associations ++ s.links.map (fun vjId => (rtu.id, vjId))
  if htexts : rtu.ErrorFits ∧ ∀ tu ∈ s.allRows, TextsFit tu then
    if h :
        (s.allRows.map (fun tu => tu.vj.id)).Nodup ∧
          (s.allRows.map (fun tu => tu.vj.datedKey)).Nodup ∧
          associations.Nodup then
      if heffects : ∀ tu ∈ s.allRows, EffectInDatabase tu then
        .ok
          { tripUpdates := s.allRows
            realTimeUpdates := putRtu db.realTimeUpdates rtu
            associations := associations
            uniqueVj := h.1
            uniqueDatedVj := h.2.1
            uniqueRtu := putRtu_nodup rtu db.uniqueRtu
            uniqueAssociation := h.2.2
            effects := heffects
            texts := htexts.2 }
      else .error .dataError
    else .error .integrityError
  else .error .valueError

/-- The session at the start of a call: nothing but the stored rows. -/
def Db.session (db : Db) : Session where
  rows := db.tripUpdates
  created := []
  links := []

/-- Commit a change of a `RealTimeUpdate` alone. -/
def Db.saveRtu (db : Db) (rtu : RealTimeUpdate) : Db where
  tripUpdates := db.tripUpdates
  realTimeUpdates := putRtu db.realTimeUpdates rtu
  associations := db.associations
  uniqueVj := db.uniqueVj
  uniqueDatedVj := db.uniqueDatedVj
  uniqueRtu := putRtu_nodup rtu db.uniqueRtu
  uniqueAssociation := db.uniqueAssociation
  effects := db.effects
  texts := db.texts

/-- The trip updates linked to a `RealTimeUpdate`. -/
def Db.tripUpdatesOf (db : Db) (rtu : RealTimeUpdate) : List TripUpdate :=
  db.tripUpdates.filter
    (fun tu => db.associations.contains (rtu.id, tu.vj.id))

/-- A feed handed to the message broker, with its routing key. -/
structure Publication where
  contributorId : String
  entities : List Entity
deriving DecidableEq, Repr

/-- What is left of the session when a call ends. -/
inductive SessionState
  /-- Everything is committed. -/
  | clean
  /-- The modifications made so far are still to be committed. -/
  | dirty (s : Session)
  /-- A commit failed, nothing can be done before a rollback. -/
  | failed
deriving DecidableEq, Repr

/-- Effect of a call: database, publication, session and result. -/
structure HandleResult where
  db : Db
  published : Option Publication
  session : SessionState
  outcome : Except PyException RealTimeUpdate

/-- Set a `RealTimeUpdate` to KO. -/
def setRtuStatusKo (rtu : RealTimeUpdate) (error : RtuError) : RealTimeUpdate :=
  { rtu with status := .ko, error := some error }

/-- The driver takes the error a feed is set to KO with. -/
@[simp] theorem setRtuStatusKo_errorFits
    {rtu : RealTimeUpdate} {error : RtuError} :
    (setRtuStatusKo rtu error).ErrorFits ↔ error.takenByDriver = true := by
  simp [RealTimeUpdate.ErrorFits, setRtuStatusKo]

/-- The message a feed without any effect is marked with. -/
def noNewInformation (connector : ConnectorType) : String :=
  "No new information destined to navitia for this " ++
    (match connector with
      | .cots => "cots"
      | .piv => "piv"
      | .gtfsRt => "gtfs-rt")

/--
Handle the trip updates of a feed.  The commit comes before the publication,
which fails when the broker cannot be reached.
-/
def handle
    (b : Builder) (brokerUp : Bool) (db : Db) (rtu : RealTimeUpdate)
    (tripUpdates : List NewTripUpdate) : HandleResult :=
  match handleLoop b db.session tripUpdates with
  | (s, .error e) =>
      { db := db, published := none, session := .dirty s, outcome := .error e }
  | (s, .ok ()) =>
      match dbCommit db s rtu with
      | .error e =>
          { db := db, published := none, session := .failed
            outcome := .error e }
      | .ok db =>
          match convertToGtfsrt (db.tripUpdatesOf rtu) with
          | .error e =>
              { db := db, published := none, session := .clean
                outcome := .error e }
          | .ok entities =>
              if !brokerUp then
                { db := db, published := none, session := .clean
                  outcome := .error .messageNotPublished }
              else
                let publication : Publication :=
                  { contributorId := b.contributorId, entities := entities }
                if (db.tripUpdatesOf rtu).isEmpty && rtu.status == .ok then
                  let rtu :=
                    setRtuStatusKo rtu (.text (noNewInformation rtu.connector))
                  { db := db.saveRtu rtu, published := some publication
                    session := .clean, outcome := .ok rtu }
                else
                  { db := db, published := some publication
                    session := .clean, outcome := .ok rtu }

/-- The error recorded on a feed that raised. -/
def errorOf : PyException → RtuError
  | .messageNotPublished => .text "impossible to publish message on network"
  | .invalidArguments detail => .text detail
  | .objectNotFound detail => .text detail
  | .unsupportedValue detail => .text detail
  | e => .messageOf e

def isInvalidInputException : PyException → Bool
  | .invalidArguments _ => true
  | _ => false

/--
Record the failure of a feed.  Redis forgets the feed first, unless it is
invalid.  The commit of the record also writes what the session still holds; it
raises again when an earlier commit has failed.
-/
def recordFailure (redisUp : Bool) (rtu : RealTimeUpdate)
    (result : HandleResult) : HandleResult :=
  match result.outcome with
  | .ok _ => result
  | .error e =>
      let ko := setRtuStatusKo rtu (errorOf e)
      match result.session with
      | .failed => { result with outcome := .error .invalidRequestError }
      | .clean =>
          if !isInvalidInputException e && !redisUp then
            { result with outcome := .error .connectionError }
          else if ko.ErrorFits then
            { result with db := result.db.saveRtu ko }
          else
            { result with session := .failed, outcome := .error .valueError }
      | .dirty s =>
          if !isInvalidInputException e && !redisUp then
            { result with outcome := .error .connectionError }
          else
            match dbCommit result.db s ko with
            | .ok db => { result with db := db, session := .clean }
            | .error e =>
                { result with session := .failed, outcome := .error e }

/-- Recording a failure does not make up for it. -/
theorem recordFailure_ne_ok
    {redisUp : Bool} {rtu r : RealTimeUpdate} {result : HandleResult}
    {e : PyException} (h : result.outcome = .error e) :
    (recordFailure redisUp rtu result).outcome ≠ .ok r := by
  simp only [recordFailure, h]
  split
  · simp
  · split
    · simp
    · split <;> simp
  · split
    · simp
    · split <;> simp

/-- The message broker and Redis, as the processing of a feed finds them. -/
structure Network where
  brokerUp : Bool
  redisUp : Bool
deriving DecidableEq, Repr

def Network.up : Network where
  brokerUp := true
  redisUp := true

/-- The message broker cannot be reached. -/
def Network.brokerDown : Network where
  brokerUp := false
  redisUp := true

/-- Handle a feed whose `RealTimeUpdate` and trip updates are built. -/
def wrapBuild
    (b : Builder) (network : Network) (db : Db) (rtu : RealTimeUpdate)
    (tripUpdates : List NewTripUpdate) : HandleResult :=
  recordFailure network.redisUp rtu
    (handle b network.brokerUp (db.saveRtu rtu) rtu tripUpdates)

/--
What a builder makes of a feed: its trip updates, and the error it sets on the
feed when there is nothing in it.
-/
structure BuiltFeed where
  error : Option RtuError
  tripUpdates : List NewTripUpdate
deriving DecidableEq, Repr

/-- The feed once its builder has set its error, if any. -/
def BuiltFeed.mark (built : BuiltFeed) (rtu : RealTimeUpdate) :
    RealTimeUpdate :=
  match built.error with
  | none => rtu
  | some error => setRtuStatusKo rtu error

/--
The whole processing of a feed: its `RealTimeUpdate` is stored, its trip updates
are built from it and from the stored rows, then handled.
-/
def wrapBuildFeed
    (b : Builder) (network : Network) (db : Db) (rtu : RealTimeUpdate)
    (build : List TripUpdate → Except PyException BuiltFeed) : HandleResult :=
  let db := db.saveRtu rtu
  match build db.tripUpdates with
  | .error e =>
      recordFailure network.redisUp rtu
        { db := db, published := none, session := .clean, outcome := .error e }
  | .ok built =>
      recordFailure network.redisUp (built.mark rtu)
        (handle b network.brokerUp db (built.mark rtu) built.tripUpdates)

/-- Once built, a feed is wrapped as it is handled. -/
theorem wrapBuildFeed_eq_wrapBuild
    (b : Builder) (network : Network) (db : Db) (rtu : RealTimeUpdate)
    (tripUpdates : List NewTripUpdate) :
    wrapBuildFeed b network db rtu
        (fun _ => .ok { error := none, tripUpdates := tripUpdates }) =
      wrapBuild b network db rtu tripUpdates :=
  rfl

namespace Sample

def cots : Builder where
  contributorId := "realtime.cots"
  connector := .cots

/-- A feed just received. -/
def received (id : String) : RealTimeUpdate where
  id := id
  connector := .cots
  status := .ok
  error := none
  contributorId := "realtime.cots"

/-- A database that holds nothing. -/
def emptyDb : Db where
  tripUpdates := []
  realTimeUpdates := []
  associations := []
  uniqueVj := by decide
  uniqueDatedVj := by decide
  uniqueRtu := by decide
  uniqueAssociation := by decide
  effects := by decide
  texts := by decide

/-- The database once the feed on three stops is handled. -/
def onTimeDb : Db :=
  (handle cots true emptyDb (received "1") [onTime]).db

end Sample

end Core
end Kirin
