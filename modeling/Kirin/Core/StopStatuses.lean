import Kirin.Core.AcceptedStops

/-!
# Kirin: the statuses of the stops and the effect of the trip

The effect of a trip is a function of the statuses of its stop events, of which
the highest one prevails.  It is computed from all the stops of a feed, while
the last ones may be left out of the trip.

* `documentedEffect`: the effect, as the documentation gives it.
* `getEffect_highestStatus`: the functions of the source compute it.
* `documentedEffect_append_iff`: more statuses leave the effect as it is when
  none of them prevails.
* `accepted_statuses`: the statuses of an accepted trip are those of the first
  stops of the feed.
* `accepted_effect_iff`: its effect is that of all the stops exactly when those
  left out do not prevail.
-/

namespace Kirin
namespace Core

open FeedStop

/-- The statuses of both events of a stop. -/
def StopTimeUpdate.eventStatuses (st : StopTimeUpdate) :
    List ModificationType :=
  [st.arrivalStatus, st.departureStatus]

/-- The statuses of all events of a list of stops. -/
def eventStatuses (stus : List StopTimeUpdate) : List ModificationType :=
  stus.flatMap StopTimeUpdate.eventStatuses

theorem eventStatuses_append
    (xs ys : List StopTimeUpdate) :
    eventStatuses (xs ++ ys) = eventStatuses xs ++ eventStatuses ys :=
  List.flatMap_append

/-- The effect of a trip whose events have the given statuses. -/
def documentedEffect (statuses : List ModificationType) : TripEffect :=
  if .addedForDetour ∈ statuses ∨ .deletedForDetour ∈ statuses then .detour
  else if .delete ∈ statuses then .reducedService
  else if .add ∈ statuses then .modifiedService
  else if .update ∈ statuses then .significantDelays
  else .unknownEffect

/-- Rank of a status among those that give their effect to the trip. -/
def effectRank : ModificationType → Nat
  | .none => 0
  | .update => 1
  | .add => 2
  | .delete => 3
  | .addedForDetour => 4
  | .deletedForDetour => 4

def effectOfRank : Nat → TripEffect
  | 0 => .unknownEffect
  | 1 => .significantDelays
  | 2 => .modifiedService
  | 3 => .reducedService
  | _ => .detour

/-- The highest rank of a list of statuses. -/
def topRank (statuses : List ModificationType) : Nat :=
  statuses.foldr (fun s r => max (effectRank s) r) 0

section Rank

variable {s s' : ModificationType} {xs ys : List ModificationType}

theorem effectRank_le_four
    (s : ModificationType) :
    effectRank s ≤ 4 := by
  cases s <;> decide

theorem effectRank_eq_zero_iff :
    effectRank s = 0 ↔ s = .none := by
  cases s <;> decide

theorem effectRank_getHigherStatus
    (s s' : ModificationType) :
    effectRank (getHigherStatus s s') = max (effectRank s) (effectRank s') := by
  cases s <;> cases s' <;> rfl

theorem topRank_le_iff
    {r : Nat} :
    topRank xs ≤ r ↔ ∀ s ∈ xs, effectRank s ≤ r := by
  induction xs with
  | nil =>
      simp [topRank]
  | cons s xs ih =>
      rw [List.forall_mem_cons, ← ih]
      exact Nat.max_le

theorem le_topRank
    (h : s ∈ xs) :
    effectRank s ≤ topRank xs :=
  topRank_le_iff.1 (Nat.le_refl _) s h

theorem topRank_le_four
    (xs : List ModificationType) :
    topRank xs ≤ 4 :=
  topRank_le_iff.2 (fun s _ => effectRank_le_four s)

theorem topRank_append
    (xs ys : List ModificationType) :
    topRank (xs ++ ys) = max (topRank xs) (topRank ys) := by
  induction xs with
  | nil =>
      simp [topRank]
  | cons s xs ih =>
      change max (effectRank s) (topRank (xs ++ ys)) =
        max (max (effectRank s) (topRank xs)) (topRank ys)
      rw [ih, Nat.max_assoc]

/-- The highest rank is that of a status, unless no status has one. -/
theorem exists_topRank
    (hne : topRank xs ≠ 0) :
    ∃ s ∈ xs, effectRank s = topRank xs := by
  induction xs with
  | nil =>
      exact absurd rfl hne
  | cons s xs ih =>
      have hcons : topRank (s :: xs) = max (effectRank s) (topRank xs) := rfl
      rcases Nat.le_total (topRank xs) (effectRank s) with hle | hle
      · exact ⟨s, List.mem_cons_self, by rw [hcons, Nat.max_eq_left hle]⟩
      · rw [hcons, Nat.max_eq_right hle] at hne ⊢
        obtain ⟨s', hs', heq⟩ := ih hne
        exact ⟨s', List.mem_cons_of_mem s hs', heq⟩

/-- A rank is below the highest one when it is zero, or below that of a status. -/
theorem le_topRank_iff
    {r : Nat} :
    r ≤ topRank xs ↔ r = 0 ∨ ∃ s ∈ xs, r ≤ effectRank s := by
  constructor
  · intro h
    by_cases hr : r = 0
    · exact Or.inl hr
    · have hne : topRank xs ≠ 0 := by
        omega
      obtain ⟨s, hs, heq⟩ := exists_topRank hne
      exact Or.inr ⟨s, hs, heq ▸ h⟩
  · rintro (rfl | ⟨s, hs, hle⟩)
    · exact Nat.zero_le _
    · exact hle.trans (le_topRank hs)

theorem topRank_eq_of
    (hs : s ∈ xs) (hle : ∀ s' ∈ xs, effectRank s' ≤ effectRank s) :
    topRank xs = effectRank s :=
  Nat.le_antisymm (topRank_le_iff.2 hle) (le_topRank hs)

/-- The effect is given by the highest rank. -/
theorem documentedEffect_eq
    (xs : List ModificationType) :
    documentedEffect xs = effectOfRank (topRank xs) := by
  unfold documentedEffect
  split
  · rename_i hdetour
    have htop : topRank xs = 4 := by
      rcases hdetour with h | h
      · exact topRank_eq_of h (fun s _ => effectRank_le_four s)
      · exact topRank_eq_of h (fun s _ => effectRank_le_four s)
    rw [htop]
    rfl
  · rename_i hdetour
    rw [not_or] at hdetour
    split
    · rename_i hdelete
      rw [topRank_eq_of hdelete]
      · rfl
      · intro s hs
        cases s <;> simp_all [effectRank]
    · rename_i hdelete
      split
      · rename_i hadd
        rw [topRank_eq_of hadd]
        · rfl
        · intro s hs
          cases s <;> simp_all [effectRank]
      · rename_i hadd
        split
        · rename_i hupdate
          rw [topRank_eq_of hupdate]
          · rfl
          · intro s hs
            cases s <;> simp_all [effectRank]
        · rename_i hupdate
          have htop : topRank xs = 0 := by
            refine Nat.le_zero.1 (topRank_le_iff.2 ?_)
            intro s hs
            cases s <;> simp_all [effectRank]
          rw [htop]
          rfl

theorem getEffectByStopTimeStatus_eq
    (s : ModificationType) :
    getEffectByStopTimeStatus s = effectOfRank (effectRank s) := by
  cases s <;> rfl

theorem effectRank_highestStatus
    (xs : List ModificationType) :
    effectRank (highestStatus xs) = topRank xs := by
  have hfold : ∀ s, effectRank (xs.foldl getHigherStatus s) =
      max (effectRank s) (topRank xs) := by
    induction xs with
    | nil =>
        intro s
        exact (Nat.max_zero _).symm
    | cons s' xs ih =>
        intro s
        rw [List.foldl_cons, ih, effectRank_getHigherStatus, Nat.max_assoc]
        rfl
  rw [highestStatus, hfold]
  exact Nat.zero_max _

/-- The functions of the source compute the documented effect. -/
theorem getEffect_highestStatus
    (xs : List ModificationType) :
    getEffectByStopTimeStatus (highestStatus xs) = documentedEffect xs := by
  rw [getEffectByStopTimeStatus_eq, effectRank_highestStatus,
    documentedEffect_eq]

theorem effectOfRank_inj
    {r r' : Nat} (hr : r ≤ 4) (hr' : r' ≤ 4) :
    effectOfRank r = effectOfRank r' ↔ r = r' := by
  have hcases : ∀ r < 5, ∀ r' < 5,
      effectOfRank r = effectOfRank r' ↔ r = r' := by
    decide
  exact hcases r (Nat.lt_succ_of_le hr) r' (Nat.lt_succ_of_le hr')

/-- More statuses leave the effect as it is when none of them prevails. -/
theorem documentedEffect_append_iff :
    documentedEffect (xs ++ ys) = documentedEffect xs ↔
      ∀ s ∈ ys, s = .none ∨ ∃ s' ∈ xs, effectRank s ≤ effectRank s' := by
  rw [documentedEffect_eq, documentedEffect_eq,
    effectOfRank_inj (topRank_le_four _) (topRank_le_four _), topRank_append,
    max_eq_left_iff, topRank_le_iff]
  simp only [le_topRank_iff, effectRank_eq_zero_iff]

end Rank

/-- The recorded stops have the statuses of the feed. -/
theorem turns_eventStatuses
    (c : Calendar) (last : Option Datetime) (fs : List FeedStop) :
    ((turns c last fs).map MergedStop.resSt).map StopTimeUpdate.eventStatuses =
      (fs.map FeedStop.newSt).map StopTimeUpdate.eventStatuses := by
  induction fs generalizing c last with
  | nil =>
      rfl
  | cons f fs ih =>
      simp only [turns, List.map_cons, ih]
      rfl

section Accepted

variable {navitiaVj : NavitiaVj} {db : Option TripUpdate}
variable {new : NewTripUpdate}

/-- Stops of a feed whose orders are their indexes are its first ones. -/
theorem InFeed.newSts_eq_take
    {fs : List FeedStop} (hin : InFeed new 0 fs)
    (horders : fs.map FeedStop.order = List.range fs.length) :
    fs.map FeedStop.newSt = new.stopTimeUpdates.take fs.length := by
  have horder : ∀ (k : Nat) (hk : k < fs.length), fs[k].order = k := by
    intro k hk
    have hget := congrArg (fun l => l[k]?) horders
    simpa [hk] using hget
  refine List.ext_getElem? (fun k => ?_)
  rcases Nat.lt_or_ge k fs.length with hk | hk
  · have hnew := hin.newSt_eq fs[k] (List.getElem_mem hk)
    rw [horder k hk] at hnew
    rw [List.getElem?_take_of_lt hk, hnew, List.getElem?_map,
      List.getElem?_eq_getElem hk]
    rfl
  · rw [List.getElem?_eq_none (by simpa using hk),
      List.getElem?_eq_none (by
        rw [List.length_take]
        exact (Nat.min_le_left _ _).trans hk)]

/-- The stops of a feed the loop goes through. -/
def stopsGoneThrough
    (vjSts : List StopTime) (db : Option TripUpdate)
    (stus : List StopTimeUpdate) : List StopTimeUpdate :=
  (stus.zipIdx.filter (fun p => goesThrough vjSts db p.2 p.1)).map Prod.fst

/-- The stops of a feed the loop leaves out. -/
def stopsLeftOut
    (vjSts : List StopTime) (db : Option TripUpdate)
    (stus : List StopTimeUpdate) : List StopTimeUpdate :=
  (stus.zipIdx.filter (fun p => !goesThrough vjSts db p.2 p.1)).map Prod.fst

/--
The status of an event at a stop left out never prevails over those of the stops
the loop goes through.
-/
def LeftOutDoNotPrevail
    (vjSts : List StopTime) (db : Option TripUpdate)
    (stus : List StopTimeUpdate) : Prop :=
  ∀ s ∈ eventStatuses (stopsLeftOut vjSts db stus), s = .none ∨
    ∃ s' ∈ eventStatuses (stopsGoneThrough vjSts db stus), effectRank s ≤ effectRank s'

instance (vjSts : List StopTime) (db : Option TripUpdate)
    (stus : List StopTimeUpdate) :
    Decidable (LeftOutDoNotPrevail vjSts db stus) :=
  inferInstanceAs (Decidable (∀ s ∈ _, _ ∨ ∃ s' ∈ _, _))

/-- Elements chosen by their places are the first ones when these are. -/
theorem filter_zipIdx_take
    {α : Type} {p : α × Nat → Bool} {j n : Nat} {l : List α}
    (h : ∀ q ∈ l.zipIdx j, (p q = true ↔ q.2 < j + n)) :
    ((l.zipIdx j).filter p).map Prod.fst = l.take n ∧
      ((l.zipIdx j).filter (fun q => !p q)).map Prod.fst = l.drop n := by
  induction l generalizing j n with
  | nil =>
      simp
  | cons x l ih =>
      cases n with
      | zero =>
          have hnone : ∀ q ∈ (x :: l).zipIdx j, ¬ p q = true := by
            intro q hq
            have hge := List.le_snd_of_mem_zipIdx hq
            rw [h q hq]
            omega
          constructor
          · rw [List.filter_eq_nil_iff.2 hnone]
            rfl
          · rw [List.filter_eq_self.2 (by simpa using hnone),
              List.zipIdx_map_fst]
            rfl
      | succ n =>
          rw [List.zipIdx_cons, List.forall_mem_cons] at h
          obtain ⟨hx, hl⟩ := h
          have hsome : p (x, j) = true := hx.2 (by simp)
          have hrest : ∀ q ∈ l.zipIdx (j + 1),
              (p q = true ↔ q.2 < j + 1 + n) := by
            intro q hq
            rw [hl q hq, Nat.add_right_comm]
            rfl
          obtain ⟨htake, hdrop⟩ := ih hrest
          simp only [List.zipIdx_cons, List.filter_cons, hsome]
          simp [htake, hdrop]

/-- The statuses of an accepted trip are those of the first stops of the feed. -/
theorem accepted_statuses
    {published : List StopTimeUpdate}
    (hindexed : Indexed new.stopTimeUpdates)
    (hstatus : new.status ≠ .delete)
    (hmerge : (merge navitiaVj db new true).returned = .ok true)
    (hmanage : manageConsistency
      (merge navitiaVj db new true).res.stopTimeUpdates = (true, published)) :
    eventStatuses published =
      eventStatuses (new.stopTimeUpdates.take published.length) := by
  obtain ⟨stops, hstops⟩ := mergeStops_of_returned hstatus hmerge
  have hfits : FitsVj true navitiaVj new := ⟨hindexed, by simp⟩
  obtain ⟨fs, -, hin, hturns, -⟩ := fitsVj_turns hfits hstops
  rw [merge_of_stops hstatus hstops, if_pos rfl, hturns] at hmanage
  obtain ⟨-, hidx, hpub⟩ :=
    manageConsistency_accepted (turns_chained _ _ _) hmanage
  have hlength : published.length = fs.length := by
    rw [hpub, List.length_map, List.length_map, turns_length]
  have horders : fs.map FeedStop.order = List.range fs.length := by
    rw [Indexed, turns_orders, List.length_map, turns_length] at hidx
    exact hidx
  rw [hlength, ← hin.newSts_eq_take horders]
  simp only [eventStatuses, List.flatMap_def]
  rw [← turns_eventStatuses (startCalendar new.vj) none fs, hpub, List.map_map]
  rfl

/--
The effect of all the stops of an accepted feed is that of the stops of its trip
exactly when no stop left out prevails.
-/
theorem accepted_effect_iff
    {published : List StopTimeUpdate}
    (hindexed : Indexed new.stopTimeUpdates)
    (hstatus : new.status ≠ .delete)
    (hmerge : (merge navitiaVj db new true).returned = .ok true)
    (hmanage : manageConsistency
      (merge navitiaVj db new true).res.stopTimeUpdates = (true, published)) :
    documentedEffect (eventStatuses new.stopTimeUpdates) =
        documentedEffect (eventStatuses published) ↔
      LeftOutDoNotPrevail new.navitiaVj.stopTimes db new.stopTimeUpdates := by
  obtain ⟨-, hiff, -⟩ := acceptedFeed_stops hstatus hmerge hmanage
  have hplaces : ∀ q ∈ new.stopTimeUpdates.zipIdx 0,
      (goesThrough new.navitiaVj.stopTimes db q.2 q.1 = true ↔
        q.2 < 0 + published.length) := by
    intro q hq
    rw [Nat.zero_add]
    exact hiff q.2 q.1 (List.mem_zipIdx_iff_getElem?.1 hq)
  obtain ⟨htake, hdrop⟩ := filter_zipIdx_take hplaces
  rw [accepted_statuses hindexed hstatus hmerge hmanage, LeftOutDoNotPrevail,
    stopsGoneThrough, stopsLeftOut, htake, hdrop, ← documentedEffect_append_iff,
    ← eventStatuses_append, List.take_append_drop]

/-- The stops stored for an accepted trip are those left by the consistency. -/
theorem processTripUpdate_accepted
    {b : Builder} (hfits : FitsBuilder b new) (hstatus : new.status ≠ .delete)
    (hlinked : (processTripUpdate b db new).linked = .ok true) :
    (merge new.navitiaVj db new b.isNewComplete).returned = .ok true ∧
      manageConsistency
          (merge new.navitiaVj db new b.isNewComplete).res.stopTimeUpdates =
        (true, (processTripUpdate b db new).tripUpdate.stopTimeUpdates) := by
  obtain ⟨fs, -, hstops, hmanage, -⟩ :=
    processTripUpdate_run hfits hstatus hlinked
  rw [merge_of_stops hstatus hstops]
  exact ⟨rfl, hmanage⟩

end Accepted

end Core
end Kirin
