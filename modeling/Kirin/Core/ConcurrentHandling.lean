import Kirin.Core.TripTurns
import Kirin.Core.Resending
import Kirin.Library.TwoCallers

/-!
# Kirin: two calls on the same stored trip

A call to `handle` reads the stored row of its trip, commits what it has changed
in it, builds its feed from the row stored at that time and publishes this feed.
Nothing keeps another call on the same trip from taking its own steps in between.

The unit of work of a call writes the attributes that it has changed, deletes the
stops that it has left out of the list it assigns, and inserts those that it has
put in this list.  A stop that another call has inserted in the meantime is none
of those.

* `TripCall.process`: what a call commits when the row is still as it has read it.
* `TripCall.flush`: what it leaves of the row that another call has committed.
* `handle_alone`: a call to `handle` does what its four steps do alone.
* `QuietStep`: what a call commits is what it makes of the stored row, or nothing;
  the row has not changed since the last feed was built.
* `concurrent_calls_serializable`: after a schedule of quiet steps the stored row
  is the result of a serial order and navitia holds its entity.
-/

namespace Kirin
namespace Core

open TwoCallers

/-- A call to `handle` for one trip update. -/
structure TripCall where
  builder : Builder
  tripUpdate : NewTripUpdate

/-- What a call makes of the row it has read. -/
def TripCall.processed (call : TripCall) (row : TripUpdate) : ProcessedTrip :=
  processTripUpdate call.builder (some row) call.tripUpdate

/-- The row a call commits and whether it is linked, when it does not raise. -/
def TripCall.process (call : TripCall) (row : TripUpdate) :
    Option (TripUpdate × Bool) :=
  match (call.processed row).linked with
  | .error _ => none
  | .ok linked =>
      if Storable (call.processed row).tripUpdate then
        some ((call.processed row).tripUpdate, linked)
      else none

/-- The entity published for a row. -/
def encodeRow (row : TripUpdate) : Option Entity :=
  (fillEntity row).toOption

/-- The rows of the stops of a trip are told apart by their stop and order. -/
abbrev StopKey := String × Nat

def StopTimeUpdate.key (st : StopTimeUpdate) : StopKey :=
  (st.stopId, st.order)

/-- The stored stops that the turns of `merge` keep as they are in their list. -/
def keptIn (row : TripUpdate) : Bool → List MergedStop → List StopKey
  | _, [] => []
  | hasChanges, stop :: rest =>
      match row.findStop stop.navitiaStop.stopId stop.navOrder, stop.newSt with
      | none, _ => keptIn row true rest
      | some dbSt, none => dbSt.key :: keptIn row hasChanges rest
      | some dbSt, some _ =>
          if !hasChanges && stop.resSt == dbSt then
            dbSt.key :: keptIn row false rest
          else keptIn row true rest

/-- The rows of the stored stops that a call keeps, all if it assigns no list. -/
def TripCall.kept (call : TripCall) (read : TripUpdate) : List StopKey :=
  if call.tripUpdate.status = .delete then []
  else
    match mergeStops call.tripUpdate.navitiaVj (some read) call.tripUpdate
      call.builder.isNewComplete with
    | .ok (stops, true) => keptIn read false stops
    | _ => read.stopTimeUpdates.map StopTimeUpdate.key

/-- The rows of the stops that a call deletes. -/
def TripCall.orphans (call : TripCall) (read : TripUpdate) : List StopKey :=
  (read.stopTimeUpdates.map StopTimeUpdate.key).filter
    (fun key => key ∉ call.kept read)

/-- An attribute is written when it is not the one that was read. -/
def netChange {α : Type} [DecidableEq α] (read left found : α) : α :=
  if left = read then found else left

/-- The stop of a trip with the given row. -/
def TripUpdate.stopAt (row : TripUpdate) (key : StopKey) :
    Option StopTimeUpdate :=
  row.stopTimeUpdates.find? (fun st => st.key == key)

/-- The times that a call has changed in the row of a stop. -/
def flushStop (read left : Option StopTimeUpdate) (found : StopTimeUpdate) :
    StopTimeUpdate :=
  match read, left with
  | some read, some left =>
      { found with
        departure := netChange read.departure left.departure found.departure
        departureDelay :=
          netChange read.departureDelay left.departureDelay found.departureDelay
        arrival := netChange read.arrival left.arrival found.arrival
        arrivalDelay :=
          netChange read.arrivalDelay left.arrivalDelay found.arrivalDelay }
  | _, _ => found

/--
What a call leaves of the row that another call has committed, when both have
read the same row.  It raises when it has changed the row of a stop that the
other call has deleted.
-/
def TripCall.flush (call other : TripCall) (read found : TripUpdate) :
    Option TripUpdate :=
  let left := (call.processed read).tripUpdate
  if ∃ key ∈ call.kept read, key ∈ other.orphans read ∧
      left.stopAt key ≠ read.stopAt key then
    none
  else
    -- the stops of the first row are those that the other call has kept
    let remaining := found.stopTimeUpdates.filter
      (fun st => ¬ (st.key ∈ other.kept read ∧ st.key ∈ call.orphans read))
    let updated := remaining.map (fun st =>
      if st.key ∈ other.kept read then
        flushStop (read.stopAt st.key) (left.stopAt st.key) st
      else st)
    let inserted := left.stopTimeUpdates.filter
      (fun st => st.key ∉ call.kept read)
    some
      { found with
        status := netChange read.status left.status found.status
        effect := netChange read.effect left.effect found.effect
        message := netChange read.message left.message found.message
        stopTimeUpdates := inserted.foldl
          (fun stus st => stus.orderedInsert (fun a b => a.order < b.order) st)
          updated }

/-- A call has nothing to write: it keeps all the stops and changes nothing. -/
def TripCall.Idle (call : TripCall) (read : TripUpdate) : Prop :=
  (call.processed read).tripUpdate = read ∧ call.orphans read = []

instance (call : TripCall) (read : TripUpdate) : Decidable (call.Idle read) :=
  inferInstanceAs (Decidable (_ ∧ _))

section Process

variable {call other : TripCall} {row row' read found : TripUpdate}
variable {linked : Bool}

theorem process_eq_some
    (h : call.process row = some (row', linked)) :
    (call.processed row).linked = .ok linked ∧
      (call.processed row).tripUpdate = row' ∧ Storable row' := by
  unfold TripCall.process at h
  cases hlinked : (call.processed row).linked with
  | error e =>
      rw [hlinked] at h
      cases h
  | ok accepted =>
      rw [hlinked] at h
      simp only at h
      split at h
      · rename_i hstorable
        cases h
        exact ⟨rfl, rfl, hstorable⟩
      · cases h

theorem encodeRow_eq_some
    {entity : Entity} :
    encodeRow row = some entity ↔ fillEntity row = .ok entity := by
  unfold encodeRow
  cases fillEntity row with
  | error e =>
      simp [Except.toOption]
  | ok e =>
      simp [Except.toOption]

theorem netChange_self
    {α : Type} [DecidableEq α] (read found : α) :
    netChange read read found = found :=
  if_pos rfl

theorem flushStop_self
    (read : Option StopTimeUpdate) (found : StopTimeUpdate) :
    flushStop read read found = found := by
  cases read <;> simp [flushStop, netChange_self]

/-- A call that has nothing to write leaves any row that it finds. -/
theorem flush_idle
    (h : call.Idle read) :
    call.flush other read found = some found := by
  obtain ⟨hsame, horphans⟩ := h
  have hkept : ∀ st ∈ read.stopTimeUpdates, st.key ∈ call.kept read := by
    intro st hst
    by_contra hgone
    have hmem : st.key ∈ call.orphans read :=
      List.mem_filter.2 ⟨List.mem_map_of_mem hst, by simpa using hgone⟩
    rw [horphans] at hmem
    cases hmem
  have hinserted : read.stopTimeUpdates.filter
      (fun st => decide (st.key ∉ call.kept read)) = [] := by
    rw [List.filter_eq_nil_iff]
    intro st hst
    simpa using hkept st hst
  simp only [TripCall.flush, hsame, horphans, hinserted, netChange_self,
    flushStop_self, List.foldl_nil]
  simp

end Process

/-- The two calls on a trip, as callers on its row. -/
def tripCalls (calls : Caller → TripCall) : Calls TripUpdate Entity where
  process := fun p => (calls p).process
  encode := encodeRow
  flush := fun p => (calls p).flush (calls p.other)
  idle := fun p read => decide ((calls p).Idle read)
  process_idle := by
    intro p read row linked hidle hprocess
    rw [← (process_eq_some hprocess).2.1]
    exact (of_decide_eq_true hidle).1
  flush_idle := by
    intro p read found hidle
    exact flush_idle (of_decide_eq_true hidle)

/-- Two calls on the same trip, step by step. -/
def runSteps (calls : Caller → TripCall) :
    System TripUpdate Entity → List Caller → Option (System TripUpdate Entity) :=
  run (tripCalls calls)

/--
Before a commit: nothing has been written in the row since the call has read it,
or the call has nothing to write, or what it leaves is what it would make of the
stored row; and a call that is not linked has nothing to write.  Before a
publication: the row is still the one the feed was built from, or the other call
is still to publish.
-/
def QuietStep (calls : Caller → TripCall) (s : System TripUpdate Entity)
    (p : Caller) : Prop :=
  match s.phase p with
  | .hasRead read seen =>
      (seen = s.writes ∨ (calls p).Idle read ∨
        (calls p).flush (calls p.other) read s.stored =
          ((calls p).process s.stored).map Prod.fst) ∧
      (((calls p).processed read).linked = .ok false → (calls p).Idle read)
  | .built (some _) row => row = s.stored ∨ s.phase p.other ≠ .published
  | _ => True

/-- Every step of a schedule is quiet. -/
def QuietRun (calls : Caller → TripCall) :
    System TripUpdate Entity → List Caller → Prop :=
  AlongRun (tripCalls calls) (QuietStep calls)

/-- A quiet step is undisturbed. -/
theorem QuietStep.undisturbed
    {calls : Caller → TripCall} {s : System TripUpdate Entity} {p : Caller}
    (h : QuietStep calls s p) :
    Undisturbed (tripCalls calls) s p := by
  unfold QuietStep at h
  unfold Undisturbed
  cases hphase : s.phase p with
  | hasRead read seen =>
      rw [hphase] at h
      obtain ⟨hcommit, hunlinked⟩ := h
      have hidle : (calls p).Idle read → (tripCalls calls).idle p read = true :=
        fun h => decide_eq_true h
      exact ⟨hcommit.imp_right (fun hlate => hlate.imp_left hidle),
        fun row hprocess => hidle (hunlinked (process_eq_some hprocess).1)⟩
  | built feed row =>
      rw [hphase] at h
      cases feed with
      | none =>
          trivial
      | some feed =>
          exact h
  | waiting =>
      trivial
  | committed linked =>
      trivial
  | published =>
      trivial

/--
A call that returns does what its four steps do when no other call comes in
between: it stores the same row, and navitia then holds the same entity.
-/
theorem handle_alone
    {db : Db} {rtu r : RealTimeUpdate} {row : TripUpdate} {delivered : Entity}
    {consumer : String → Option Entity} {calls : Caller → TripCall} {p : Caller}
    (hfind : findByDatedVj db.tripUpdates (calls p).tripUpdate.vj = some row)
    (hfresh : ∀ id, (rtu.id, id) ∉ db.associations)
    (hconsumer : consumer (rowId row) = some delivered)
    (hok : (handle (calls p).builder true db rtu
      [(calls p).tripUpdate]).outcome = .ok r) :
    ∃ s, runSteps calls (System.start row delivered) [p, p, p, p] = some s ∧
      findByDatedVj
          (handle (calls p).builder true db rtu
            [(calls p).tripUpdate]).db.tripUpdates (calls p).tripUpdate.vj =
        some s.stored ∧
      consume consumer
          (handle (calls p).builder true db rtu
            [(calls p).tripUpdate]).published (rowId row) =
        some s.delivered := by
  obtain ⟨s, db1, entities, hloop, hcommit, hpb, hpub⟩ := handle_ok hok
  have hstored := findByDatedVj_committed (distinctTrips_singleton _) hloop
    hcommit List.mem_cons_self
  rw [hfind, storedAfter_some] at hstored
  have hlinks := mem_links_iff (distinctTrips_singleton _) hloop hcommit
    List.mem_cons_self hstored
  rw [hfind] at hlinks
  have hrows : (handle (calls p).builder true db rtu
      [(calls p).tripUpdate]).db.tripUpdates = db1.tripUpdates := by
    rw [(handle_committed hloop hcommit).1, (dbCommit_ok hcommit).1]
  have hmem := findByDatedVj_mem hstored
  have hid :
      rowId (processTripUpdate (calls p).builder (some row)
        (calls p).tripUpdate).tripUpdate = rowId row :=
    congrArg VehicleJourney.id processTripUpdate_vj
  have hentities := convertToGtfsrt_ok hpb
  have hnodup : ((db1.tripUpdatesOf rtu).map rowId).Nodup :=
    db1.uniqueVj.sublist (List.filter_sublist.map _)
  have hpublished := tripUpdatesOf_fresh hcommit hfresh
  rw [hrows, hpub]
  obtain ⟨linked, hlinked⟩ := (handleLoop_distinct db.uniqueVj
    db.uniqueDatedVj (distinctTrips_singleton _) hloop).normal
    (calls p).tripUpdate List.mem_cons_self
  rw [show db.session.rows = db.tripUpdates from rfl, hfind] at hlinked
  have hprocess : (tripCalls calls).process p row =
      some (((calls p).processed row).tripUpdate, linked) := by
    simp only [tripCalls, TripCall.process, TripCall.processed, hlinked]
    exact if_pos ⟨db1.effects _ hmem, db1.texts _ hmem⟩
  cases linked with
  | true =>
      obtain ⟨feed, hfeed, hconsumed⟩ := consume_of_row hentities consumer
        (calls p).builder.contributorId hnodup
        ((hpublished _).2 ⟨hmem, hlinks.2 hlinked⟩)
      rw [hid] at hconsumed
      obtain ⟨s', hrun, hrow, hdelivered⟩ :=
        run_alone_linked (tripCalls calls) delivered
          hprocess (encodeRow_eq_some.2 hfeed)
      exact ⟨s', hrun, by rw [hstored, hrow]; rfl,
        by rw [hconsumed, hdelivered]⟩
  | false =>
      obtain ⟨s', hrun, hrow, hdelivered⟩ :=
        run_alone_unlinked (tripCalls calls) delivered
          hprocess
      refine ⟨s', hrun, by rw [hstored, hrow]; rfl, ?_⟩
      rw [hdelivered, ← hconsumer]
      apply consume_of_not_row hentities
      rw [← hid]
      rintro hpub
      obtain ⟨row', hrow', hid'⟩ := List.mem_map.1 hpub
      have heq := KeyedStore.eq_of_key_eq db1.uniqueVj
        (List.mem_of_mem_filter hrow') hmem hid'
      rw [heq] at hrow'
      have hlinked' := hlinks.1 ((hpublished _).1 hrow').2
      rw [hlinked] at hlinked'
      cases hlinked'

/--
After a schedule of quiet steps of two calls on a stored trip, the last entity
delivered is that of the stored row, which is the result of one of the two serial
orders.
-/
theorem concurrent_calls_serializable
    {calls : Caller → TripCall} {row : TripUpdate} {delivered : Entity}
    {schedule : List Caller} {s : System TripUpdate Entity}
    (hdelivered : fillEntity row = .ok delivered)
    (hquiet : QuietRun calls (System.start row delivered) schedule)
    (hrun : runSteps calls (System.start row delivered) schedule = some s)
    (hend : ∀ p, s.phase p = .published) :
    fillEntity s.stored = .ok s.delivered ∧
      ∃ p, s.stored =
        ((calls p.other).processed
          ((calls p).processed row).tripUpdate).tripUpdate := by
  have hundisturbed := hquiet.imp (fun s p hstep => hstep.undisturbed)
  obtain ⟨hencode, hserial⟩ :=
    run_undisturbed (encodeRow_eq_some.2 hdelivered) hundisturbed hrun hend
  refine ⟨encodeRow_eq_some.1 hencode, ?_⟩
  have horder : ∀ p q : Caller,
      inOrder (tripCalls calls) p q row = some s.stored →
      s.stored =
        ((calls q).processed ((calls p).processed row).tripUpdate).tripUpdate := by
    intro p q h
    obtain ⟨r, hboth, hstored⟩ := Option.map_eq_some_iff.1 h
    obtain ⟨r', hfirst, hsecond⟩ := Option.bind_eq_some_iff.1 hboth
    rw [(process_eq_some hfirst).2.1, (process_eq_some hsecond).2.1, hstored]
  rcases hserial with h | h
  · exact ⟨.first, horder .first .second h⟩
  · exact ⟨.second, horder .second .first h⟩

/-- The steps of two calls made one after the other. -/
def inTurn : List Caller :=
  [.first, .first, .first, .first, .second, .second, .second, .second]

/-- Calls that are linked may be made one after the other. -/
theorem quietRun_inTurn
    {calls : Caller → TripCall} {row row1 row2 : TripUpdate}
    {entity1 entity2 : Entity} (delivered : Entity)
    (hfirst : (calls .first).process row = some (row1, true))
    (hentity1 : encodeRow row1 = some entity1)
    (hsecond : (calls .second).process row1 = some (row2, true))
    (hentity2 : encodeRow row2 = some entity2) :
    QuietRun calls (System.start row delivered) inTurn ∧
      ∃ s, runSteps calls (System.start row delivered) inTurn = some s ∧
        ∀ p, s.phase p = .published := by
  have hlinked := (process_eq_some hfirst).1
  have hlinked' := (process_eq_some hsecond).1
  constructor
  · simp [QuietRun, AlongRun, QuietStep, inTurn, step, commitRow, commit,
      tripCalls, System.start, System.setPhase, Caller.other, hfirst, hsecond,
      hlinked, hlinked', hentity1, hentity2]
  · simp [runSteps, run, inTurn, step, commitRow, commit, tripCalls,
      System.start, System.setPhase, hfirst, hsecond, hentity1, hentity2]
    intro p
    cases p <;> simp

namespace Sample

/-- The stored row of a trip with an added stop. -/
def addedStopRow : TripUpdate :=
  (processTripUpdate cots none addedStop).tripUpdate

/-- Navitia holds its entity. -/
def addedStopEntity : Entity :=
  (encodeRow addedStopRow).get (by decide)

/-- The delay on the added stop, sent twice. -/
def delayedTwice : Caller → TripCall :=
  fun _ => { builder := cots, tripUpdate := delayedAddedStop }

/-- A feed that cancels the given vehicle journey. -/
def cancelled (vj : VehicleJourney) : NewTripUpdate where
  vj := vj
  status := .delete
  message := none
  companyId := none
  effect := some .noService
  physicalModeId := none
  headsign := none
  contributorId := "realtime.cots"
  stopTimeUpdates := []
  navitiaVj := { stopTimes := [] }

/-- The delay on the added stop, and the cancellation of the trip. -/
def delayedThenCancelled : Caller → TripCall
  | .first => { builder := cots, tripUpdate := delayedAddedStop }
  | .second => { builder := cots, tripUpdate := cancelled addedStop.vj }

/-- The stored row once its added stop is delayed, and delayed again. -/
def delayedRow : TripUpdate :=
  ((delayedTwice .first).processed addedStopRow).tripUpdate

def delayedAgainRow : TripUpdate :=
  ((delayedTwice .second).processed delayedRow).tripUpdate

end Sample

theorem concurrent_calls_serializable_inTurn :
    ∃ s, runSteps Sample.delayedTwice
          (System.start Sample.addedStopRow Sample.addedStopEntity) inTurn =
        some s ∧
      fillEntity s.stored = .ok s.delivered ∧
      ∃ p, s.stored =
        ((Sample.delayedTwice p.other).processed
          ((Sample.delayedTwice p).processed
            Sample.addedStopRow).tripUpdate).tripUpdate := by
  obtain ⟨entity1, hentity1⟩ := Option.isSome_iff_exists.1
    (show (encodeRow Sample.delayedRow).isSome = true by decide)
  obtain ⟨entity2, hentity2⟩ := Option.isSome_iff_exists.1
    (show (encodeRow Sample.delayedAgainRow).isSome = true by decide)
  have hfirst : (Sample.delayedTwice .first).process Sample.addedStopRow =
      some (Sample.delayedRow, true) := by
    decide
  have hsecond : (Sample.delayedTwice .second).process Sample.delayedRow =
      some (Sample.delayedAgainRow, true) := by
    decide
  obtain ⟨hquiet, s, hrun, hend⟩ := quietRun_inTurn Sample.addedStopEntity
    hfirst hentity1 hsecond hentity2
  exact ⟨s, hrun,
    concurrent_calls_serializable (by decide) hquiet hrun hend⟩

/--
Two delays that both read the row before any commit: the stops that each of them
puts in its list are stored twice.  A delay published after a cancellation that
it precedes: navitia holds the delay.
-/
theorem concurrent_calls_not_serializable :
    ((runSteps Sample.delayedTwice
        (System.start Sample.addedStopRow Sample.addedStopEntity)
        [.first, .second, .first, .second, .first, .first, .second,
          .second]).map
      (fun s => s.stored.stopTimeUpdates.map StopTimeUpdate.order)) =
        some [0, 1, 1, 2, 2, 3, 3] ∧
      Sample.delayedAgainRow.stopTimeUpdates.map StopTimeUpdate.order =
        [0, 1, 2, 3] ∧
      ((runSteps Sample.delayedThenCancelled
          (System.start Sample.addedStopRow Sample.addedStopEntity)
          [.first, .first, .first, .second, .second, .second, .second,
            .first]).map
        (fun s =>
          (s.stored.status, s.delivered.tripUpdate.scheduleRelationship))) =
        some (.delete, .scheduled) := by
  decide

end Core
end Kirin
