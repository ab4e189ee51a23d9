import Kirin.Core.AcceptedChronology

/-!
# Kirin: the stops of an accepted complete feed

A stop of a complete feed that is neither in the vehicle journey nor a valid
change is left out of the loop of the merge, which still counts it.  The check
of the orders then rejects the trip, unless no kept stop follows.

* `keptPlaces`: the stops the loop goes through, with their places in the feed.
* `keptPlaces_of_orders`: if their places are consecutive, only the last stops
  of the feed are left out.
* `accepted_places`: the places of an accepted trip are consecutive.
* `acceptedFeed_stops`: the stops of an accepted trip are the first ones of the
  feed, and all of them exactly when its last stop is kept.
-/

namespace Kirin
namespace Core

open FeedStop

/-- Whether the loop of the merge goes through a stop of a complete feed. -/
def goesThrough
    (vjSts : List StopTime) (db : Option TripUpdate) (order : Nat)
    (newStu : StopTimeUpdate) : Bool :=
  (findStInVj newStu.stopId vjSts).isSome || isKept db order newStu

/-- Place and identifier of the stops the loop goes through. -/
def keptPlaces
    (vjSts : List StopTime) (db : Option TripUpdate) :
    Nat → List StopTimeUpdate → List (Nat × String)
  | _, [] => []
  | order, newStu :: rest =>
      if goesThrough vjSts db order newStu then
        (order, newStu.stopId) :: keptPlaces vjSts db (order + 1) rest
      else keptPlaces vjSts db (order + 1) rest

section Places

variable {vjSts : List StopTime} {db : Option TripUpdate}

theorem keptPlaces_le
    {j : Nat} {stus : List StopTimeUpdate} {p : Nat × String}
    (hp : p ∈ keptPlaces vjSts db j stus) :
    j ≤ p.1 := by
  induction stus generalizing j with
  | nil =>
      cases hp
  | cons st rest ih =>
      unfold keptPlaces at hp
      split at hp
      · rcases List.mem_cons.1 hp with rfl | hrest
        · exact le_rfl
        · exact Nat.le_of_succ_le (ih hrest)
      · exact Nat.le_of_succ_le (ih hp)

/-- When the kept places are consecutive, the stops left out are the last ones. -/
theorem keptPlaces_of_orders
    {j n : Nat} {stus : List StopTimeUpdate}
    (h : (keptPlaces vjSts db j stus).map Prod.fst = List.range' j n) :
    (keptPlaces vjSts db j stus).map Prod.snd =
        (stus.map StopTimeUpdate.stopId).take n ∧
      n ≤ stus.length ∧
      ∀ (k : Nat) (st : StopTimeUpdate), stus[k]? = some st →
        (goesThrough vjSts db (j + k) st = true ↔ k < n) := by
  induction stus generalizing j n with
  | nil =>
      cases n with
      | zero =>
          simp [keptPlaces]
      | succ n =>
          cases h
  | cons st rest ih =>
      cases hgo : goesThrough vjSts db j st with
      | true =>
          simp only [keptPlaces, hgo, if_true, List.map_cons] at h ⊢
          cases n with
          | zero =>
              cases h
          | succ n =>
              rw [List.range'_succ, List.cons.injEq] at h
              obtain ⟨hids, hlength, hiff⟩ := ih h.2
              refine ⟨?_, ?_, ?_⟩
              · rw [List.take_succ_cons, hids]
              · rw [List.length_cons]
                omega
              · intro k st' hst'
                cases k with
                | zero =>
                    cases hst'
                    simp [hgo]
                | succ k =>
                    rw [List.getElem?_cons_succ] at hst'
                    have := hiff k st' hst'
                    rw [Nat.add_right_comm j 1 k] at this
                    rw [← Nat.add_assoc, this]
                    omega
      | false =>
          simp only [keptPlaces, hgo, Bool.false_eq_true, if_false] at h ⊢
          -- a kept place would have to be `j`, which is left out
          have hn : n = 0 := by
            cases n with
            | zero =>
                rfl
            | succ n =>
                rw [List.range'_succ] at h
                have hmem : j ∈ (keptPlaces vjSts db (j + 1) rest).map
                    Prod.fst := by
                  rw [h]
                  exact List.mem_cons_self
                obtain ⟨p, hp, rfl⟩ := List.mem_map.1 hmem
                have := keptPlaces_le hp
                omega
          subst hn
          have hrest :
              (keptPlaces vjSts db (j + 1) rest).map Prod.fst =
                List.range' (j + 1) 0 := h
          obtain ⟨hids, -, hiff⟩ := ih hrest
          refine ⟨hids, Nat.zero_le _, ?_⟩
          intro k st' hst'
          cases k with
          | zero =>
              cases hst'
              simp [hgo]
          | succ k =>
              rw [List.getElem?_cons_succ] at hst'
              have := hiff k st' hst'
              rw [Nat.add_right_comm j 1 k] at this
              rw [← Nat.add_assoc, this]
              omega

/-- Nothing is left out at the end of a list exactly when its last element is kept. -/
theorem length_eq_iff_last
    {n : Nat} {stus : List StopTimeUpdate} {P : Nat → StopTimeUpdate → Prop}
    (hle : n ≤ stus.length)
    (hiff : ∀ (k : Nat) (st : StopTimeUpdate), stus[k]? = some st →
      (P k st ↔ k < n)) :
    n = stus.length ↔
      ∀ st, stus.getLast? = some st → P (stus.length - 1) st := by
  rw [List.getLast?_eq_getElem?]
  constructor
  · intro h st hst
    rw [hiff _ st hst, h]
    have := (List.getElem?_eq_some_iff.1 hst).1
    omega
  · intro h
    cases hlength : stus.length with
    | zero =>
        omega
    | succ m =>
        rw [hlength, Nat.add_sub_cancel] at h
        have hm : m < stus.length := by
          omega
        have hlast := List.getElem?_eq_getElem hm
        have := (hiff m _ hlast).1 (h _ hlast)
        omega

end Places

section Resolved

variable {db : Option TripUpdate} {new : NewTripUpdate}

/-- A stop listed in a feed is found in it, at whatever place. -/
theorem findStopIn_isSome
    {stus : List StopTimeUpdate} {st : StopTimeUpdate} (hst : st ∈ stus)
    (order : Nat) :
    ∃ found, findStopIn stus (some st.stopId) order = some found := by
  unfold findStopIn
  cases findExact stus (some st.stopId) order with
  | some first =>
      exact ⟨first, rfl⟩
  | none =>
      have hsome : (findById stus (some st.stopId)).isSome := by
        rw [findById, List.find?_isSome]
        exact ⟨st, hst, by simp⟩
      exact Option.isSome_iff_exists.1 hsome

/-- The stops the loop goes through, when none of them raises. -/
theorem yieldNextStopFrom_places
    (vjSts : List StopTime) {j : Nat} {stus : List StopTimeUpdate}
    (hsub : ∀ st ∈ stus, st ∈ new.stopTimeUpdates)
    (hok : ∀ next ∈ yieldNextStopFrom db vjSts j stus, ∃ p, next = .ok p) :
    ∃ fs, List.Forall₂ (Resolves new) (yieldNextStopFrom db vjSts j stus) fs ∧
      fs.map (fun f => (f.order, f.stopPoint.id)) =
        keptPlaces vjSts db j stus := by
  induction stus generalizing j with
  | nil =>
      exact ⟨[], List.Forall₂.nil, rfl⟩
  | cons newStu rest ih =>
      rw [List.forall_mem_cons] at hsub
      obtain ⟨hokRest, ⟨hgo, s, hs, hnext⟩ | ⟨hgo, hnext⟩⟩ :=
        yieldNextStopFrom_cons hok
      · obtain ⟨sp, hsp, hspid⟩ := Option.map_eq_some_iff.1 hs
        obtain ⟨newSt, hnewSt⟩ := findStopIn_isSome hsub.1 j
        obtain ⟨fs, hfs, hplaces⟩ := ih hsub.2 hokRest
        rw [hnext]
        refine ⟨⟨j, s, sp, newSt⟩ :: fs,
          List.Forall₂.cons ⟨rfl, hsp, ?_⟩ hfs, ?_⟩
        · rw [TripUpdate.findStop, hspid]
          exact hnewSt
        · rw [List.map_cons, hplaces, hspid, keptPlaces, goesThrough,
            if_pos hgo]
      · obtain ⟨fs, hfs, hplaces⟩ := ih hsub.2 hokRest
        rw [hnext]
        refine ⟨fs, hfs, ?_⟩
        rw [hplaces, keptPlaces, goesThrough, hgo]
        rfl

end Resolved

/-- The recorded stops are at the stops gone through. -/
theorem turns_stopIds
    (c : Calendar) (last : Option Datetime) (fs : List FeedStop) :
    ((turns c last fs).map MergedStop.resSt).map StopTimeUpdate.stopId =
      fs.map (fun f => f.stopPoint.id) := by
  induction fs generalizing c last with
  | nil =>
      rfl
  | cons f fs ih =>
      simp only [turns, List.map_cons, ih]
      rfl

section Accepted

variable {navitiaVj : NavitiaVj} {db : Option TripUpdate}
variable {new : NewTripUpdate}

/-- The recorded stops of an accepted feed are at its kept places. -/
theorem accepted_places
    {published : List StopTimeUpdate}
    (hstatus : new.status ≠ .delete)
    (hmerge : (merge navitiaVj db new true).returned = .ok true)
    (hmanage : manageConsistency
      (merge navitiaVj db new true).res.stopTimeUpdates = (true, published)) :
    (keptPlaces new.navitiaVj.stopTimes db 0 new.stopTimeUpdates).map Prod.fst =
        List.range' 0 published.length ∧
      (keptPlaces new.navitiaVj.stopTimes db 0 new.stopTimeUpdates).map Prod.snd =
        published.map StopTimeUpdate.stopId := by
  obtain ⟨stops, hstops⟩ := mergeStops_of_returned hstatus hmerge
  obtain ⟨fs, hfs, hplaces⟩ :=
    yieldNextStopFrom_places new.navitiaVj.stopTimes
      (show ∀ st ∈ new.stopTimeUpdates, st ∈ new.stopTimeUpdates from
        fun _ hst => hst)
      (mergeLoop_items_ok hstops)
  have hrun : mergeStops navitiaVj db new true = _ := mergeStops_eq hfs
  rw [hstops] at hrun
  cases htry : tryTurns (startCalendar new.vj) none fs with
  | error e =>
      rw [htry] at hrun
      cases hrun
  | ok turned =>
      rw [htry] at hrun
      simp only [Except.map, Except.ok.injEq, Prod.mk.injEq] at hrun
      rw [merge_of_stops hstatus hstops, if_pos rfl] at hmanage
      simp only at hmanage
      rw [hrun.1, tryTurns_ok htry] at hmanage
      obtain ⟨-, hidx, hpub⟩ :=
        manageConsistency_accepted (turns_chained _ _ _) hmanage
      have hlength : published.length = fs.length := by
        rw [hpub]
        simp
      rw [← hplaces, List.map_map, List.map_map]
      constructor
      · change fs.map FeedStop.order = _
        rw [Indexed, turns_orders, List.range_eq_range'] at hidx
        rw [hlength]
        simpa using hidx
      · rw [hpub, List.map_map]
        exact (turns_stopIds (startCalendar new.vj) none fs).symm

/--
The stops of an accepted complete feed are, in order, the first stops of the
feed; the stops left out come last, and none of them is in the vehicle journey
or a valid change.  No stop is left out exactly when the last one is kept.
-/
theorem acceptedFeed_stops
    {published : List StopTimeUpdate}
    (hstatus : new.status ≠ .delete)
    (hmerge : (merge navitiaVj db new true).returned = .ok true)
    (hmanage : manageConsistency
      (merge navitiaVj db new true).res.stopTimeUpdates = (true, published)) :
    published.map StopTimeUpdate.stopId =
        (new.stopTimeUpdates.map StopTimeUpdate.stopId).take
          published.length ∧
      (∀ (k : Nat) (st : StopTimeUpdate), new.stopTimeUpdates[k]? = some st →
        (goesThrough new.navitiaVj.stopTimes db k st = true ↔
          k < published.length)) ∧
      (published.map StopTimeUpdate.stopId =
          new.stopTimeUpdates.map StopTimeUpdate.stopId ↔
        ∀ st, new.stopTimeUpdates.getLast? = some st →
          goesThrough new.navitiaVj.stopTimes db
            (new.stopTimeUpdates.length - 1) st = true) := by
  obtain ⟨horders, hpubIds⟩ := accepted_places hstatus hmerge hmanage
  obtain ⟨hids, hle, hiff⟩ := keptPlaces_of_orders horders
  simp only [Nat.zero_add] at hiff
  rw [hpubIds] at hids
  refine ⟨hids, hiff, ?_⟩
  rw [← length_eq_iff_last hle hiff]
  constructor
  · intro h
    simpa using congrArg List.length h
  · intro h
    rw [hids, h, List.take_of_length_le (by simp)]

end Accepted

namespace Sample

/-- A feed on three stops that is late at a fourth one, never added before. -/
def unknownTerminus : NewTripUpdate :=
  { onTime with
    stopTimeUpdates :=
      onTime.stopTimeUpdates ++
        [{ unchanged "sp:d" 3 with
            arrivalDelay := some (300 * second), arrivalStatus := .update }] }

/-- The stops published for a complete feed when nothing is stored. -/
def publishedAlone (new : NewTripUpdate) : List StopTimeUpdate :=
  (manageConsistency
    (merge new.navitiaVj none new true).res.stopTimeUpdates).2

end Sample

theorem acceptedFeed_stops_unknownTerminus :
    (Sample.publishedAlone Sample.unknownTerminus).map StopTimeUpdate.stopId =
        (Sample.unknownTerminus.stopTimeUpdates.map
          StopTimeUpdate.stopId).take
          (Sample.publishedAlone Sample.unknownTerminus).length ∧
      (∀ (k : Nat) (st : StopTimeUpdate),
        Sample.unknownTerminus.stopTimeUpdates[k]? = some st →
        (goesThrough Sample.unknownTerminus.navitiaVj.stopTimes none k st =
            true ↔
          k < (Sample.publishedAlone Sample.unknownTerminus).length)) ∧
      ((Sample.publishedAlone Sample.unknownTerminus).map
            StopTimeUpdate.stopId =
          Sample.unknownTerminus.stopTimeUpdates.map StopTimeUpdate.stopId ↔
        ∀ st, Sample.unknownTerminus.stopTimeUpdates.getLast? = some st →
          goesThrough Sample.unknownTerminus.navitiaVj.stopTimes none
            (Sample.unknownTerminus.stopTimeUpdates.length - 1) st = true) :=
  acceptedFeed_stops (by decide)
    (show (merge Sample.unknownTerminus.navitiaVj none Sample.unknownTerminus
      true).returned = .ok true by decide)
    (by decide)

/-- The last stop of the feed is left out of the accepted trip. -/
theorem acceptedFeed_drops_unknownTerminus :
    Sample.unknownTerminus.status ≠ .delete ∧
      (merge Sample.unknownTerminus.navitiaVj none Sample.unknownTerminus
        true).returned = .ok true ∧
      (manageConsistency
        (merge Sample.unknownTerminus.navitiaVj none Sample.unknownTerminus
          true).res.stopTimeUpdates).1 = true ∧
      (Sample.publishedAlone Sample.unknownTerminus).map
          StopTimeUpdate.stopId =
        ["sp:a", "sp:b", "sp:c"] ∧
      Sample.unknownTerminus.stopTimeUpdates.map StopTimeUpdate.stopId =
        ["sp:a", "sp:b", "sp:c", "sp:d"] := by
  decide

end Core
end Kirin
