import Kirin.Core.TripAttributes
import Kirin.Cots.PublishedEffect
import Kirin.Publication

/-!
# Kirin: the attributes left by the last feed on a trip

A COTS or PIV feed is complete: it should replace what the earlier ones have
said of its trip.  It does for the attributes that the merge takes over, not for
those given once, which are carried from row to row along the feeds.

* `receive_givenOnce`, `run_givenOnce`: what a row was given once is kept by any
  feed, and along any run.
* `leavesAttributes_iff`: an accepted trip leaves its attributes exactly when
  the row stored before, if any, has those given once.
* `run_attributes_iff`: the same along any run of feeds.
-/

namespace Kirin

open Kirin.Core

namespace ReceivedFeed

/-- A trip of a feed is accepted and written to the database. -/
def Accepts (f : ReceivedFeed) (db : Db) (t : NewTripUpdate) : Prop :=
  ∃ built, f.build db.tripUpdates = .ok built ∧
    AcceptsTrip f.builder (db.saveRtu f.rtu) built.tripUpdates t ∧
    (wrapBuildFeed f.builder f.network db f.rtu f.build).session = .clean

/-- A trip that is accepted from a COTS or PIV feed has the given property. -/
def ForAccepted (f : ReceivedFeed) (db : Db) (P : NewTripUpdate → Prop) :
    Prop :=
  f.source.connector ≠ .gtfsRt → ∀ t, f.Accepts db t → P t

end ReceivedFeed

section Step

variable {db : Db} {f : ReceivedFeed}

/-- An accepted trip leaves its attributes when those given once are stored. -/
theorem leavesAttributes_iff
    (db : Db) (f : ReceivedFeed) :
    f.ForAccepted db (StoresAttributes (receive db f)) ↔
      f.ForAccepted db (StoresGivenOnce db) := by
  have hiff : f.source.connector ≠ .gtfsRt → ∀ t, f.Accepts db t →
      (StoresAttributes (receive db f) t ↔ StoresGivenOnce db t) := by
    rintro hsource t ⟨built, hbuild, haccepts, hclean⟩
    have hcomplete : f.builder.isNewComplete = true := by
      unfold Builder.isNewComplete
      split
      · rfl
      · rfl
      · rename_i hgtfs
        exact absurd hgtfs hsource
    have houtcome :=
      wrapBuildFeed_outcome f.builder f.network db f.rtu f.build
    rw [hbuild] at houtcome
    exact haccepts.stores_iff hcomplete houtcome hclean
  constructor
  · intro h hsource t ht
    exact (hiff hsource t ht).1 (h hsource t ht)
  · intro h hsource t ht
    exact (hiff hsource t ht).2 (h hsource t ht)

/-- Whatever a feed does, a row keeps what it was given once. -/
theorem receive_givenOnce
    {vj : VehicleJourney} {row : TripUpdate}
    (hrow : findByDatedVj db.tripUpdates vj = some row) (f : ReceivedFeed) :
    ∃ row', findByDatedVj (receive db f).tripUpdates vj = some row' ∧
      row'.givenOnce = row.givenOnce := by
  have houtcome :=
    wrapBuildFeed_outcome f.builder f.network db f.rtu f.build
  rcases houtcome.rows with hsame | ⟨built, s, r, -, hloop, hrows, -⟩
  · exact ⟨row, by rw [receive, hsame.1]; exact hrow, rfl⟩
  · have hfound := findByDatedVj_givenOnce (handleLoop_rows_givenOnce
      (s := (db.saveRtu f.rtu).session) (db.saveRtu f.rtu).uniqueVj hloop) vj
    rw [show findByDatedVj (db.saveRtu f.rtu).session.rows vj = some row from
      hrow] at hfound
    obtain ⟨row', hrow', hgiven⟩ := Option.map_eq_some_iff.1 hfound
    refine ⟨row', ?_, hgiven⟩
    unfold findByDatedVj at hrow' ⊢
    rw [receive, hrows, Session.allRows, List.find?_append, hrow']
    rfl

end Step

section Run

variable {db : Db}

/-- Along any run, a row keeps what it was given once. -/
theorem run_givenOnce
    {vj : VehicleJourney} {row : TripUpdate}
    (hrow : findByDatedVj db.tripUpdates vj = some row)
    (feeds : List ReceivedFeed) :
    ∃ row', findByDatedVj (feeds.foldl receive db).tripUpdates vj = some row' ∧
      row'.givenOnce = row.givenOnce := by
  have hstep : ∀ (db' : Db) (f : ReceivedFeed),
      (∃ row', findByDatedVj db'.tripUpdates vj = some row' ∧
        row'.givenOnce = row.givenOnce) → True →
      ∃ row', findByDatedVj (receive db' f).tripUpdates vj = some row' ∧
        row'.givenOnce = row.givenOnce := by
    rintro db' f ⟨row', hrow', hgiven⟩ -
    obtain ⟨row'', hrow'', hgiven'⟩ := receive_givenOnce hrow' f
    exact ⟨row'', hrow'', hgiven'.trans hgiven⟩
  exact Runs.invariant_of_along hstep
    (Runs.along_of_forall (fun _ _ => trivial)) ⟨row, hrow, rfl⟩

/--
Along a run of feeds, every trip that is accepted from a COTS or PIV feed leaves
its attributes exactly when it is never accepted on a row that was given another
company, physical mode or headsign.
-/
theorem run_attributes_iff
    (db : Db) (feeds : List ReceivedFeed) :
    Runs.Along receive
        (fun db f => f.ForAccepted db (StoresAttributes (receive db f)))
        db feeds ↔
      Runs.Along receive (fun db f => f.ForAccepted db (StoresGivenOnce db))
        db feeds := by
  constructor
  · exact Runs.Along.imp (fun db f => (leavesAttributes_iff db f).1)
  · exact Runs.Along.imp (fun db f => (leavesAttributes_iff db f).2)

end Run

namespace Sample

/-- A COTS feed on a known vehicle journey, run by the given company. -/
def cotsFeed (id : String) (status : Cots.TripStatus) (company : String) :
    ReceivedFeed where
  contributorId := "realtime.cots"
  rtu := Core.Sample.received id
  source :=
    .cots Cots.Sample.twoStopsServices (fun _ => "7b1a")
      (.json (some (some
        { Cots.Sample.version "8000" status
            [Cots.Sample.usual 0 "a" (Core.Sample.clock 8 0),
              Cots.Sample.usual 1 "b" (Core.Sample.clock 10 0)] with
          codeCompagnieTransporteur := some company })))
  network := .up

/-- What is stored once the train is announced by a first company. -/
def announced : Db :=
  receive Core.Sample.emptyDb (cotsFeed "1" .perturbee "1187")

/-- Another company then cancels it. -/
def cancellation : ReceivedFeed :=
  cotsFeed "2" .supprimee "1200"

/-- What the builder makes of the cancellation. -/
def trainCancelled : NewTripUpdate where
  vj :=
    { id := "7b1a", navitiaTripId := "trip:1"
      startTimestamp := Core.Sample.clock 8 0 }
  status := .delete
  message := none
  companyId := some "1200"
  effect := some .noService
  physicalModeId := none
  headsign := none
  contributorId := "realtime.cots"
  stopTimeUpdates := []
  navitiaVj := Cots.Sample.twoStopsVj.toNavitiaVj

end Sample

/-- The trip keeps the company of the first feed once the second is accepted. -/
theorem run_attributes_otherCompany :
    Sample.cancellation.Accepts Sample.announced Sample.trainCancelled ∧
      (receive Sample.announced Sample.cancellation).tripUpdates.map
        TripUpdate.companyId = [some "1187"] ∧
      ¬ StoresAttributes (receive Sample.announced Sample.cancellation)
        Sample.trainCancelled := by
  have hbuild : Sample.cancellation.build Sample.announced.tripUpdates =
      .ok { error := none, tripUpdates := [Sample.trainCancelled] } := by
    decide
  have haccepts : AcceptsTrip Sample.cancellation.builder
      (Sample.announced.saveRtu Sample.cancellation.rtu) [Sample.trainCancelled]
      Sample.trainCancelled :=
    acceptsTrip_single (by decide)
  have hclean : (wrapBuildFeed Sample.cancellation.builder
      Sample.cancellation.network Sample.announced Sample.cancellation.rtu
      Sample.cancellation.build).session = .clean := by
    decide
  refine ⟨⟨_, hbuild, haccepts, hclean⟩, by decide, ?_⟩
  rintro ⟨row, hrow, hattributes⟩
  have hcompany : row.companyId = some "1200" :=
    congrArg (fun a => a.once.companyId) hattributes
  have hstored : (findByDatedVj
      (receive Sample.announced Sample.cancellation).tripUpdates
      Sample.trainCancelled.vj).bind TripUpdate.companyId = some "1187" := by
    decide
  rw [hrow, Option.bind_some, hcompany] at hstored
  exact absurd hstored (by decide)

end Kirin
