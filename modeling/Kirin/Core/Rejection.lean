import Kirin.Core.KeptStops
import Kirin.Core.SingleTrip

/-!
# Kirin: what a rejected trip leaves behind

A stored trip update is modified in place by the merge, before it is known
whether the trip is accepted.  The commit then writes these modifications even
when the trip is not linked to the feed.

* `Settled`: the stored trip has nothing to learn from the feed, neither for its
  stops nor for its status, effect and message.
* `mergeHeader_eq_iff`: taking over status, effect and message is harmless
  exactly when they are already there.
* `rejection_keeps_rows`: the rows are left as they were when the trip is
  settled or its row cannot be stored, and only then for the feeds that
  connectors build.
-/

namespace Kirin
namespace Core

/-- The status, the effect and the message of the feed are already stored. -/
structure HeaderStored
    (isNewComplete : Bool) (old : TripUpdate) (new : NewTripUpdate) :
    Prop where
  status : old.status = new.status
  effect : old.effect = new.effect
  message : (new.message.isSome || isNewComplete) = true →
    old.message = new.message

/-- The stored trip has nothing to learn from the feed. -/
structure Settled (b : Builder) (old : TripUpdate) (new : NewTripUpdate) :
    Prop where
  unchanged :
    (b.mergeTripUpdates new.navitiaVj (some old) new).returned = .ok false
  header : HeaderStored b.isNewComplete old new

theorem mergeHeader_eq_iff
    {isNewComplete : Bool} {old : TripUpdate} {new : NewTripUpdate} :
    mergeHeader (some old) new isNewComplete = old ↔
      HeaderStored isNewComplete old new := by
  constructor
  · intro h
    have hstatus := congrArg TripUpdate.status h
    have heffect := congrArg TripUpdate.effect h
    have hmessage := congrArg TripUpdate.message h
    refine ⟨hstatus.symm, heffect.symm, fun htaken => ?_⟩
    simp only [mergeHeader] at hmessage
    rw [if_pos htaken] at hmessage
    exact hmessage.symm
  · rintro ⟨hstatus, heffect, hmessage⟩
    cases old
    simp only at hstatus heffect hmessage
    simp only [mergeHeader, Option.getD_some, TripUpdate.mk.injEq]
    refine ⟨trivial, hstatus.symm, ?_, trivial, heffect.symm, trivial, trivial,
      trivial, trivial⟩
    split
    · rename_i htaken
      exact (hmessage htaken).symm
    · rfl

section Rejected

variable {b : Builder} {old : TripUpdate} {new : NewTripUpdate}

/-- A settled trip is left as it is. -/
theorem processTripUpdate_settled
    (h : Settled b old new) :
    processTripUpdate b (some old) new =
      { tripUpdate := old, linked := .ok false } := by
  have hstatus : new.status ≠ .delete := by
    intro hdelete
    have hreturned := h.unchanged
    rw [Builder.mergeTripUpdates, merge_cancelled hdelete] at hreturned
    cases hreturned
  obtain ⟨stops, hstops⟩ := mergeStops_of_returned hstatus h.unchanged
  rw [processTripUpdate_unchanged hstatus hstops,
    mergeHeader_eq_iff.2 h.header]

/-- A trip that is not accepted and left as it is was settled. -/
theorem settled_of_unlinked
    (hfits : FitsBuilder b new) (hdelays : KeptCarryDelays b (some old) new)
    (hlinked : (processTripUpdate b (some old) new).linked = .ok false)
    (hkept : (processTripUpdate b (some old) new).tripUpdate = old) :
    Settled b old new := by
  have hstatus : new.status ≠ .delete := by
    intro hdelete
    rw [processTripUpdate_cancelled hdelete] at hlinked
    cases hlinked
  cases hstops : mergeStops new.navitiaVj (some old) new b.isNewComplete with
  | error e =>
      rw [processTripUpdate_error hstatus hstops] at hlinked
      cases hlinked
  | ok r =>
      rcases r with ⟨stops, hasChanges⟩
      cases hasChanges with
      | false =>
          rw [processTripUpdate_unchanged hstatus hstops] at hkept
          refine ⟨?_, mergeHeader_eq_iff.1 hkept⟩
          rw [Builder.mergeTripUpdates, merge_of_stops hstatus hstops]
      | true =>
          -- the rejected stops would be the stored ones, hence unchanged
          obtain ⟨fs, hfs, hin, rfl, hany⟩ := fitsVj_turns hfits hstops
          rw [processTripUpdate_changed hstatus hstops,
            reloadStops_manageConsistency
              ((keptCarryDelays_iff hfits hfs hin).1 hdelays) hin] at hkept
          have hstored :
              old.stopTimeUpdates =
                (turns (startCalendar new.vj) none fs).map MergedStop.resSt := by
            rw [← hkept]
          rw [changes_of_stored hfs hin _ _ hstored] at hany
          cases hany

/-- The database has the effect of the feed, and its driver takes the texts. -/
structure CanBeStored (b : Builder) (old : Option TripUpdate)
    (new : NewTripUpdate) : Prop where
  effect : EffectInDatabase new.toTripUpdate
  texts : TextsFit (feedRow b old new)

/-- A call for one trip that is not accepted commits its row, or nothing. -/
theorem handle_rejected
    {brokerUp : Bool} {db : Db} {rtu : RealTimeUpdate}
    (hlinked : (processTripUpdate b (some old) new).linked = .ok false)
    (hfind : findByDatedVj db.tripUpdates new.vj = some old) :
    ((EffectInDatabase new.toTripUpdate ∧
          TextsFit (processTripUpdate b (some old) new).tripUpdate ∧
          rtu.ErrorFits) →
        (handle b brokerUp db rtu [new]).db.tripUpdates =
          replaceRow db.tripUpdates
            (processTripUpdate b (some old) new).tripUpdate) ∧
      (¬ (EffectInDatabase new.toTripUpdate ∧
          TextsFit (processTripUpdate b (some old) new).tripUpdate ∧
          rtu.ErrorFits) →
        (handle b brokerUp db rtu [new]).db.tripUpdates = db.tripUpdates) := by
  have hmem := findByDatedVj_mem hfind
  have hunlinked := hlinked
  rw [← hfind] at hunlinked
  have hrows := handleTripUpdate_rows_of_some b (s := db.session) hfind
  have hall : (handleTripUpdate b db.session new).1.allRows = _ :=
    allRows_of_some hfind
  rw [show db.session.rows = db.tripUpdates from rfl] at hrows
  have heffect : ∀ row : TripUpdate,
      row = (processTripUpdate b (some old) new).tripUpdate →
      (EffectInDatabase row ↔ EffectInDatabase new.toTripUpdate) := by
    rintro row rfl
    rw [EffectInDatabase, processTripUpdate_header.2]
    exact Iff.rfl
  constructor
  · rintro ⟨hnew, htexts, herror⟩
    rw [handle_unlinked hunlinked ?_ ?_ herror, hrows]
    · intro row hrow
      rw [hrows] at hrow
      rcases KeyedStore.of_mem_replace hrow with hleft | hstored
      · exact (heffect row hleft).2 hnew
      · exact db.effects row hstored
    · intro row hrow
      rw [hrows] at hrow
      rcases KeyedStore.of_mem_replace hrow with rfl | hstored
      · exact htexts
      · exact db.texts row hstored
  · intro hno
    have hrow : (processTripUpdate b (some old) new).tripUpdate ∈
        (handleTripUpdate b db.session new).1.allRows := by
      rw [hall]
      exact KeyedStore.mem_replace hmem
        (congrArg VehicleJourney.id processTripUpdate_vj)
    have hloop := handleLoop_single_ok (s := db.session) hunlinked
    cases hcommit : dbCommit db (handleTripUpdate b db.session new).1 rtu with
    | error e =>
        simp [handle, hloop, hcommit]
    | ok db1 =>
        have hfits := dbCommit_ok_iff.1 ⟨db1, hcommit⟩
        exact absurd ⟨(heffect _ rfl).1 (hfits.effects _ hrow),
          hfits.texts _ hrow, hfits.error⟩ hno

/--
When a trip is not accepted, the committed rows are those stored before the
call if the stored trip was settled, or if its row cannot be stored.  For a feed
that fits its builder, whose stops carry their delays and whose row can be
stored, they are so only if the trip was settled.
-/
theorem rejection_keeps_rows
    {brokerUp : Bool} {db : Db} {rtu : RealTimeUpdate}
    (hrejected :
      (processTripUpdate b (findByDatedVj db.tripUpdates new.vj) new).linked =
        .ok false) :
    ((∀ stored, findByDatedVj db.tripUpdates new.vj = some stored →
          Settled b stored new) →
        (handle b brokerUp db rtu [new]).db.tripUpdates = db.tripUpdates) ∧
      (FitsBuilder b new →
        ∀ stored, findByDatedVj db.tripUpdates new.vj = some stored →
          ¬ CanBeStored b (some stored) new →
          (handle b brokerUp db rtu [new]).db.tripUpdates = db.tripUpdates) ∧
      (FitsBuilder b new → rtu.ErrorFits →
        ∀ stored, findByDatedVj db.tripUpdates new.vj = some stored →
          KeptCarryDelays b (some stored) new →
          CanBeStored b (some stored) new →
          (handle b brokerUp db rtu [new]).db.tripUpdates = db.tripUpdates →
          Settled b stored new) := by
  cases hfind : findByDatedVj db.tripUpdates new.vj with
  | none =>
      rw [hfind] at hrejected
      refine ⟨fun _ => ?_, by simp, by simp⟩
      have hstored : storedAfter b (findByDatedVj db.tripUpdates new.vj) new =
          findByDatedVj db.tripUpdates new.vj := by
        rw [hfind, storedAfter, hrejected]
        rfl
      exact handle_unchanged hstored
  | some stored =>
      rw [hfind] at hrejected
      have hmem := findByDatedVj_mem hfind
      have hid :
          rowId (processTripUpdate b (some stored) new).tripUpdate =
            rowId stored :=
        congrArg VehicleJourney.id processTripUpdate_vj
      have hkept_iff :
          replaceRow db.tripUpdates
              (processTripUpdate b (some stored) new).tripUpdate =
            db.tripUpdates ↔
          (processTripUpdate b (some stored) new).tripUpdate = stored :=
        KeyedStore.replace_eq_self_iff db.uniqueVj hmem hid
      obtain ⟨hcommits, hfails⟩ :=
        @handle_rejected b stored new brokerUp db rtu hrejected hfind
      have htexts_iff : FitsBuilder b new →
          (TextsFit (processTripUpdate b (some stored) new).tripUpdate ↔
            TextsFit (feedRow b (some stored) new)) := by
        intro hfits
        refine processed_textsFit_iff hfits ?_ hrejected (Or.inl rfl)
        rintro row ⟨⟩
        exact db.texts stored hmem
      simp only [Option.some.injEq, forall_eq']
      refine ⟨fun hsettled => ?_, fun hfits hno => ?_,
        fun hfits herror hdelays hcan hkept => ?_⟩
      · refine handle_unchanged ?_
        rw [hfind, storedAfter_some, processTripUpdate_settled hsettled]
      · refine hfails (fun hall => hno ⟨hall.1, ?_⟩)
        exact (htexts_iff hfits).1 hall.2.1
      · rw [hcommits ⟨hcan.effect, (htexts_iff hfits).2 hcan.texts, herror⟩,
          hkept_iff] at hkept
        exact settled_of_unlinked hfits hdelays hrejected hkept

end Rejected

namespace Sample

/-- The feed on three stops without its origin: the first stop has no time. -/
def removedOrigin : NewTripUpdate :=
  { onTime with
    stopTimeUpdates :=
      [{ unchanged "sp:a" 0 with
          arrivalStatus := .delete, departureStatus := .delete },
        unchanged "sp:b" 1, unchanged "sp:c" 2] }

end Sample

theorem rejection_keeps_rows_onTime :
    ((∀ stored,
          findByDatedVj Sample.onTimeDb.tripUpdates Sample.onTime.vj =
            some stored →
          Settled Sample.cots stored Sample.onTime) →
        (handle Sample.cots true Sample.onTimeDb (Sample.received "2")
            [Sample.onTime]).db.tripUpdates =
          Sample.onTimeDb.tripUpdates) ∧
      (FitsBuilder Sample.cots Sample.onTime →
        ∀ stored,
          findByDatedVj Sample.onTimeDb.tripUpdates Sample.onTime.vj =
            some stored →
          ¬ CanBeStored Sample.cots (some stored) Sample.onTime →
          (handle Sample.cots true Sample.onTimeDb (Sample.received "2")
              [Sample.onTime]).db.tripUpdates =
            Sample.onTimeDb.tripUpdates) ∧
      (FitsBuilder Sample.cots Sample.onTime →
        (Sample.received "2").ErrorFits →
        ∀ stored,
          findByDatedVj Sample.onTimeDb.tripUpdates Sample.onTime.vj =
            some stored →
          KeptCarryDelays Sample.cots (some stored) Sample.onTime →
          CanBeStored Sample.cots (some stored) Sample.onTime →
          (handle Sample.cots true Sample.onTimeDb (Sample.received "2")
              [Sample.onTime]).db.tripUpdates =
            Sample.onTimeDb.tripUpdates →
          Settled Sample.cots stored Sample.onTime) :=
  rejection_keeps_rows (by decide)

/-- A trip rejected for its origin has lost its stored stops all the same. -/
theorem rejection_overwrites_removedOrigin :
    Sample.onTimeDb.tripUpdates.map
        (fun tu => tu.stopTimeUpdates.map StopTimeUpdate.arrival) =
      [[some (Sample.clock 8 0), some (Sample.clock 8 5),
        some (Sample.clock 8 20)]] ∧
      (processTripUpdate Sample.cots
          (findByDatedVj Sample.onTimeDb.tripUpdates Sample.removedOrigin.vj)
          Sample.removedOrigin).linked = .ok false ∧
      (handle Sample.cots true Sample.onTimeDb (Sample.received "2")
          [Sample.removedOrigin]).db.tripUpdates.map
        (fun tu => tu.stopTimeUpdates.map StopTimeUpdate.arrival) =
      [[none, some (Sample.clock 8 5), some (Sample.clock 8 20)]] := by
  decide

end Core
end Kirin
