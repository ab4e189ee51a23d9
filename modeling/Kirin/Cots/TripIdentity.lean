import Kirin.Cots.AddedTrain
import Kirin.Library.Runs

/-!
# Kirin: the identity of an added COTS trip

An added trip is recognised by its number within one hour of the period of a
feed, and updated by its number and its exact start, which is rebuilt from the
first departure of each feed.  Both agree as long as the trips found around the
period start at that departure.

* `KeepsDeparture`: the trips of the train around the period of a feed start at
  its first departure, and the train has a single number.
* `KeepsIdentity`: a feed that recognises a stored trip updates that trip.
* `AtMostOne`: a train has at most one trip that starts in a period.
* `added_trip_identity`: along a run of feeds that keep the departure, they keep
  the identity of the trip, and the train has one trip at most.
-/

namespace Kirin
namespace Cots

open Kirin.Core

/-- A feed that may add its train: it is not refused for what is stored. -/
def takenAsAdded (statutOperationnel : Option TripStatus)
    (stored : Option TripUpdate) : Prop :=
  match stored with
  | none => statutOperationnel = some .ajoutee
  | some stored =>
      if statutOperationnel = some .ajoutee then stored.status = .delete
      else stored.status = .add

/-- The feeds that add their train are those that are taken as such. -/
theorem takenAsAdded_of_action
    {n : String} {status : Option TripStatus} {stored : Option TripUpdate}
    {action : ActionOnTrip}
    (h : actionOnStored n status stored = .ok action)
    (hadded : action ≠ .notAdded) :
    takenAsAdded status stored := by
  cases stored with
  | none =>
      simp only [actionOnStored] at h
      split at h
      · assumption
      · cases h
        exact absurd rfl hadded
  | some stored =>
      simp only [actionOnStored] at h
      simp only [takenAsAdded]
      grind

/-- The trips of a train around the period of a feed start at its departure. -/
def KeepsDeparture
    (rows : List TripUpdate) (n : String) (vjStart vjEnd : Datetime) : Prop :=
  ∃ h, SingleNumber n h ∧ ∀ row ∈ rows, OfTrain n row.vj →
    InWindow vjStart vjEnd row.vj →
    row.vj.datedKey = (trainIdFormat h, vjStart)

/-- A feed that may add its train keeps the departure of what is stored. -/
def Steady (db : Db) (f : Feed) : Prop :=
  ∀ v n pdps vjStart vjEnd, Reads f.raw v n pdps → Spans pdps vjStart vjEnd →
    takenAsAdded v.statutOperationnel
      (findTripAddedInDb db.tripUpdates n vjStart vjEnd) →
    KeepsDeparture db.tripUpdates n vjStart vjEnd

/--
A feed that recognises a stored trip has one trip update, which is handled with
this trip and overwrites its row; it raises and changes nothing if what it leaves
cannot be written.
-/
def KeepsIdentity (c : String) (db : Db) (f : Feed) : Prop :=
  ∀ v n pdps vjStart vjEnd action stored ts,
    Reads f.raw v n pdps → Spans pdps vjStart vjEnd →
    getActionOnTrip db.tripUpdates n v pdps = .ok action →
    action ≠ .notAdded →
    findTripAddedInDb db.tripUpdates n vjStart vjEnd = some stored →
    f.build c db.tripUpdates = .ok ts →
    ∃ t, ts = [t] ∧ findByDatedVj db.tripUpdates t.vj = some stored ∧
      ((receive c db f).db.tripUpdates =
          replaceRow db.tripUpdates
            (processTripUpdate (builder c) (some stored) t).tripUpdate ∨
        ¬ Writable c f (some stored) t ∧
          (receive c db f).outcome.isOk = false ∧ LeavesTrips c db f)

/-- A feed is steady as soon as it keeps the departure it has. -/
theorem steady_of_keepsDeparture
    {db : Db} {f : Feed} {v : DictVersion} {n : String} {pdps : List Pdp}
    {vjStart vjEnd : Datetime} (hreads : Reads f.raw v n pdps)
    (hspans : Spans pdps vjStart vjEnd)
    (h : KeepsDeparture db.tripUpdates n vjStart vjEnd) :
    Steady db f := by
  intro v' n' pdps' vjStart' vjEnd' hreads' hspans' _
  obtain ⟨rfl, rfl, rfl⟩ := hreads.unique hreads'
  obtain ⟨rfl, rfl⟩ := hspans.unique hspans'
  exact h

/-- A feed on a train that navitia does not know. -/
def OnTrain (n : String) (f : Feed) : Prop :=
  (∀ v n' pdps, Reads f.raw v n' pdps → n' = n) ∧ UnknownTo f.services n

/-- A feed whose first departure is in a period that it searches as a whole. -/
def OnCirculation (first last : Datetime) (f : Feed) : Prop :=
  ∀ v n pdps vjStart vjEnd, Reads f.raw v n pdps → Spans pdps vjStart vjEnd →
    (first ≤ vjStart ∧ vjStart ≤ last) ∧
      vjStart - sncfSearchMargin ≤ first ∧ last ≤ vjEnd + sncfSearchMargin

/-- A vehicle journey of a train that starts in a period. -/
def Circulates (n : String) (first last : Datetime) (vj : VehicleJourney) :
    Prop :=
  OfTrain n vj ∧ first ≤ vj.startTimestamp ∧ vj.startTimestamp ≤ last

instance (n : String) (first last : Datetime) (vj : VehicleJourney) :
    Decidable (Circulates n first last vj) :=
  inferInstanceAs (Decidable (_ ∧ _))

/-- A train has at most one trip that starts in a period. -/
def AtMostOne (n : String) (first last : Datetime) (rows : List TripUpdate) :
    Prop :=
  (rows.filter (fun row => decide (Circulates n first last row.vj))).length ≤ 1

instance (n : String) (first last : Datetime) (rows : List TripUpdate) :
    Decidable (AtMostOne n first last rows) :=
  inferInstanceAs (Decidable (_ ≤ _))

section AtMostOne

variable {n : String} {first last : Datetime} {rows rows' : List TripUpdate}

/-- Whether there is at most one trip only depends on the vehicle journeys. -/
theorem AtMostOne.of_vj
    (h : AtMostOne n first last rows)
    (hvjs : rows'.map TripUpdate.vj = rows.map TripUpdate.vj) :
    AtMostOne n first last rows' := by
  have hlength : ∀ l : List TripUpdate,
      (l.filter (fun row => decide (Circulates n first last row.vj))).length =
        ((l.map TripUpdate.vj).filter
          (fun vj => decide (Circulates n first last vj))).length := by
    intro l
    rw [List.filter_map, List.length_map]
    rfl
  rw [AtMostOne, hlength, hvjs, ← hlength]
  exact h

/-- A first trip may be added. -/
theorem atMostOne_concat
    (hnone : ∀ row ∈ rows, ¬ Circulates n first last row.vj)
    (row : TripUpdate) :
    AtMostOne n first last (rows ++ [row]) := by
  have hfilter :
      rows.filter (fun row => decide (Circulates n first last row.vj)) = [] := by
    rw [List.filter_eq_nil_iff]
    intro row' hrow'
    simpa using hnone row' hrow'
  rw [AtMostOne, List.filter_append, hfilter]
  exact List.length_filter_le
    (fun row => decide (Circulates n first last row.vj)) [row]

end AtMostOne

section Step

variable {c : String} {db : Db} {f : Feed} {n : String}

/-- A feed that keeps the departure finds the trip it recognises. -/
theorem step_keepsIdentity
    (hnew : Unlinked db f.rtu) (htrain : OnTrain n f) (hsteady : Steady db f) :
    KeepsIdentity c db f := by
  intro v n' pdps vjStart vjEnd action stored ts hreads hspans haction hadded
    hstored hbuild
  obtain rfl := htrain.1 v n' pdps hreads
  have hknown := haction
  rw [getActionOnTrip_of_spans hspans] at hknown
  have htaken := takenAsAdded_of_action hknown hadded
  obtain ⟨h, hsingle, hdeparture⟩ :=
    hsteady v n' pdps vjStart vjEnd hreads hspans htaken
  obtain ⟨hmem, hid, hwindow⟩ := findTripAddedInDb_some hstored
  have hkey := hdeparture stored hmem (Or.inl hid) hwindow
  obtain ⟨t, rfl, hmade⟩ :=
    build_adds hreads htrain.2 hsingle hspans haction hadded hbuild
  have hfind : findByDatedVj db.tripUpdates t.vj = some stored :=
    findByDatedVj_of_mem db.uniqueDatedVj hmem
      (hkey.trans hmade.datedKey.symm)
  exact ⟨t, rfl, hfind, receive_some hbuild hnew hmade.effect hfind⟩

/-- A feed that keeps the departure does not add a second trip. -/
theorem step_atMostOne
    (c : String) (hnew : Unlinked db f.rtu) (htrain : OnTrain n f)
    (hsteady : Steady db f) {first last : Datetime}
    (hcirculation : OnCirculation first last f)
    (h : AtMostOne n first last db.tripUpdates) :
    AtMostOne n first last (step c db f).tripUpdates := by
  cases hbuild : f.build c db.tripUpdates with
  | error e =>
      exact h.of_vj (congrArg _ (receive_rejected hbuild).2.rows)
  | ok ts =>
      obtain ⟨v, n', pdps, action, vjs, hreads, haction, -, -⟩ :=
        buildTripUpdates_ok hbuild
      obtain rfl := htrain.1 v n' pdps hreads
      obtain ⟨vjStart, vjEnd, hspans⟩ := spans_of_getActionOnTrip haction
      by_cases hadded : action = .notAdded
      · subst hadded
        obtain rfl := build_notAdded hreads htrain.2 haction hbuild
        exact h.of_vj (congrArg _ (receive_empty hbuild))
      · have hknown := haction
        rw [getActionOnTrip_of_spans hspans] at hknown
        obtain ⟨h1, hsingle, hdeparture⟩ :=
          hsteady v n' pdps vjStart vjEnd hreads hspans
            (takenAsAdded_of_action hknown hadded)
        obtain ⟨t, rfl, hmade⟩ :=
          build_adds hreads htrain.2 hsingle hspans haction hadded hbuild
        cases hfind : findByDatedVj db.tripUpdates t.vj with
        | some old =>
            rcases receive_some hbuild hnew hmade.effect hfind with
              hrows | ⟨-, -, hleaves⟩
            · refine h.of_vj ?_
              rw [step, hrows]
              exact replaceRow_processed_vj (builder c) t
                (findByDatedVj_mem hfind)
            · exact h.of_vj (congrArg _ hleaves.rows)
        | none =>
            rcases receive_none hbuild hfind with hsame | hconcat
            · exact h.of_vj (congrArg _ hsame)
            · rw [step, hconcat]
              refine atMostOne_concat (fun row hrow hcirculates => ?_) _
              -- a stored trip would be the one the feed looks for
              obtain ⟨hperiod, hfrom, hto⟩ :=
                hcirculation v n' pdps vjStart vjEnd hreads hspans
              have hkey := hdeparture row hrow hcirculates.1
                ⟨hfrom.trans hcirculates.2.1, hcirculates.2.2.trans hto⟩
              exact findByDatedVj_ne_key hfind hrow
                (hkey.trans hmade.datedKey.symm)

end Step

/--
Along the feeds on a train that keep the departure of what is stored, a feed
that recognises a stored trip updates this trip, and the train has at most one
trip for a circulation that all the feeds are about.
-/
theorem added_trip_identity
    {c n : String} {db : Db} {feeds : List Feed}
    (htrain : ∀ f ∈ feeds, OnTrain n f)
    (hnew : Runs.Along (step c) (fun db f => Unlinked db f.rtu) db feeds)
    (hsteady : Runs.Along (step c) Steady db feeds) :
    Runs.Along (step c) (KeepsIdentity c) db feeds ∧
      ∀ first last, (∀ f ∈ feeds, OnCirculation first last f) →
        AtMostOne n first last db.tripUpdates →
        AtMostOne n first last (feeds.foldl (step c) db).tripUpdates := by
  have halong := ((Runs.along_of_forall htrain).and hnew).and hsteady
  constructor
  · exact halong.imp (fun db f h => step_keepsIdentity h.1.2 h.1.1 h.2)
  · intro first last hcirculation h
    have hstep : ∀ db f, AtMostOne n first last db.tripUpdates →
        ((OnTrain n f ∧ Unlinked db f.rtu) ∧ Steady db f) ∧
          OnCirculation first last f →
        AtMostOne n first last (step c db f).tripUpdates :=
      fun db f honce hf =>
        step_atMostOne c hf.1.1.2 hf.1.1.1 hf.1.2 hf.2 honce
    exact Runs.invariant_of_along hstep
      (halong.and (Runs.along_of_forall hcirculation)) h

namespace Sample

/-- A train that is added, then modified with the same departure. -/
def kept : List Feed :=
  [received "1" "8000" .ajoutee (points (Core.Sample.clock 8 0)),
    received "2" "8000" .perturbee (points (Core.Sample.clock 8 0))]

/-- A train that is added, then modified with a departure half an hour later. -/
def moved : List Feed :=
  [received "1" "8000" .ajoutee (points (Core.Sample.clock 8 0)),
    received "2" "8000" .perturbee (points (Core.Sample.clock 8 30))]

end Sample

theorem added_trip_identity_kept :
    Runs.Along (step "realtime.cots") (KeepsIdentity "realtime.cots")
        Core.Sample.emptyDb Sample.kept ∧
      ∀ first last, (∀ f ∈ Sample.kept, OnCirculation first last f) →
        AtMostOne "8000" first last Core.Sample.emptyDb.tripUpdates →
        AtMostOne "8000" first last
          (Sample.kept.foldl (step "realtime.cots")
            Core.Sample.emptyDb).tripUpdates := by
  have hspans : Spans
      (retrieveInterestingPdp (Sample.points (Core.Sample.clock 8 0)))
      (Core.Sample.clock 8 0) (Core.Sample.clock 10 0) :=
    ⟨by decide, by decide⟩
  refine added_trip_identity ?_ ⟨by decide, by decide, trivial⟩ ⟨?_, ?_, trivial⟩
  · intro f hf
    have hreads : ∃ id status, f = Sample.received id "8000" status
        (Sample.points (Core.Sample.clock 8 0)) := by
      simp only [Sample.kept, List.mem_cons, List.not_mem_nil, or_false] at hf
      rcases hf with rfl | rfl
      · exact ⟨_, _, rfl⟩
      · exact ⟨_, _, rfl⟩
    obtain ⟨id, status, rfl⟩ := hreads
    refine ⟨fun v n' pdps h => ?_, Sample.unknownTo_services "8000"⟩
    exact ((Sample.reads_received id "8000" status _).unique h).2.1
  · exact steady_of_keepsDeparture (Sample.reads_received "1" "8000" _ _) hspans
      ⟨"8000", by decide, by decide⟩
  · exact steady_of_keepsDeparture (Sample.reads_received "2" "8000" _ _) hspans
      ⟨"8000", by decide, by decide⟩

/--
The second feed is recognised as a modification of the stored trip, and adds a
second trip for the same circulation.
-/
theorem added_trip_identity_lost_moved :
    getActionOnTrip
        (step "realtime.cots" Core.Sample.emptyDb
          (Sample.received "1" "8000" .ajoutee
            (Sample.points (Core.Sample.clock 8 0)))).tripUpdates
        "8000"
        (Sample.version "8000" .perturbee
          (Sample.points (Core.Sample.clock 8 30)))
        (retrieveInterestingPdp (Sample.points (Core.Sample.clock 8 30))) =
      .ok .previouslyAdded ∧
    ¬ AtMostOne "8000" (Core.Sample.clock 8 0) (Core.Sample.clock 8 30)
      (Sample.moved.foldl (step "realtime.cots")
        Core.Sample.emptyDb).tripUpdates := by
  decide

end Cots
end Kirin
