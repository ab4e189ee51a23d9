import Kirin.Cots.ModelMaker

/-!
# Kirin: the delay of a point of a COTS feed

The documentation of the COTS connector gives, for each stop event of a point, a
table of what becomes of its projected times.  A reference that is empty counts
there as one that is not defined.

* `OnTime`, `Retained`, `Rejected`: the rows of the table.
* `FollowsTable`: the delay that is retrieved is the documented one.
* `retrieveProjectedTime_eq`: the code follows the table when it is given a
  reference that is not empty, or none.
* `followsTable_iff`: the points for which it does.
-/

namespace Kirin
namespace Cots

open Kirin.Core

section Table

variable {ref : Option String} {times : List ProjectedTime} {p q : ProjectedTime}

/-- There is neither a reference nor a projected time. -/
def OnTime (ref : Option String) (times : List ProjectedTime) : Prop :=
  ref = none ∧ times = []

/--
The projected time that is to be used: the only one when there is no reference,
the first one with the source that is referred to otherwise.
-/
def Retained (ref : Option String) (times : List ProjectedTime)
    (p : ProjectedTime) : Prop :=
  match ref with
  | none => times = [p]
  | some s => times.find? (fun p => p.source == some s) = some p

/-- There are several times without a reference, or none with the right source. -/
def Rejected (ref : Option String) (times : List ProjectedTime) : Prop :=
  match ref with
  | none => 2 ≤ times.length
  | some s => ∀ p ∈ times, p.source ≠ some s

/-- Each list falls in one row of the table. -/
theorem onTime_or_retained_or_rejected
    (ref : Option String) (times : List ProjectedTime) :
    OnTime ref times ∨ (∃ p, Retained ref times p) ∨ Rejected ref times := by
  cases ref with
  | none =>
      rcases times with _ | ⟨p, _ | ⟨q, rest⟩⟩
      · exact Or.inl ⟨rfl, rfl⟩
      · exact Or.inr (Or.inl ⟨p, rfl⟩)
      · exact Or.inr (Or.inr (Nat.le_add_left 2 rest.length))
  | some s =>
      cases hfind : times.find? (fun p => p.source == some s) with
      | none =>
          exact Or.inr (Or.inr (by simpa [Rejected] using hfind))
      | some p =>
          exact Or.inr (Or.inl ⟨p, hfind⟩)

theorem OnTime.not_retained
    (h : OnTime ref times) :
    ¬Retained ref times p := by
  obtain ⟨rfl, rfl⟩ := h
  exact List.cons_ne_nil p [] ∘ Eq.symm

theorem OnTime.not_rejected
    (h : OnTime ref times) :
    ¬Rejected ref times := by
  obtain ⟨rfl, rfl⟩ := h
  exact Nat.not_succ_le_zero 1

theorem Retained.not_rejected
    (h : Retained ref times p) :
    ¬Rejected ref times := by
  cases ref with
  | none =>
      rw [Retained] at h
      rw [Rejected, h]
      exact Nat.not_succ_le_self 1
  | some s =>
      intro hrejected
      have hsource := List.find?_some h
      exact hrejected p (List.mem_of_find?_eq_some h) (eq_of_beq hsource)

theorem Retained.unique
    (hp : Retained ref times p) (hq : Retained ref times q) :
    p = q := by
  cases ref with
  | none =>
      exact List.head_eq_of_cons_eq (hp.symm.trans hq)
  | some s =>
      exact Option.some_inj.1 (hp.symm.trans hq)

end Table

/-- The reference of a point, when it is defined and not empty. -/
def reference (pdp : Pdp) (e : StopEvent) : Option String :=
  truthyText (pdp.sourceHoraireProjeteReference e)

/-- The projected times of a point; a list that is not defined has none. -/
def timesOf (pdp : Pdp) (e : StopEvent) : List ProjectedTime :=
  (pdp.listeHoraireProjete e).getD []

/-- The delay that a projected time gives. -/
def delayOf (p : ProjectedTime) : Option Timedelta :=
  p.pronosticIV.map (fun n => n * second)

/-- The delay that is retrieved for a stop event is the one of the table. -/
structure FollowsTable (pdp : Pdp) (e : StopEvent) : Prop where
  onTime : OnTime (reference pdp e) (timesOf pdp e) →
    retrieveStopEventDelay pdp e = .ok none
  /-- No other point is without a delay, unless the time to use is without one. -/
  noDelay : retrieveStopEventDelay pdp e = .ok none →
    OnTime (reference pdp e) (timesOf pdp e) ∨
      ∃ p, Retained (reference pdp e) (timesOf pdp e) p ∧
        p.pronosticIV = none
  retained : ∀ p, Retained (reference pdp e) (timesOf pdp e) p →
    retrieveStopEventDelay pdp e = .ok (delayOf p)
  rejected : (∃ detail,
      retrieveStopEventDelay pdp e = .error (.invalidArguments detail)) ↔
    Rejected (reference pdp e) (timesOf pdp e)

/-- A number of seconds that a duration can hold, when it is given. -/
def FitsDuration (pronosticIV : Option Int) : Prop :=
  ∀ n ∈ pronosticIV, -62135596800 ≤ n ∧ n ≤ 253402300799

/--
The lists for which a reference that is empty makes no difference: the only time
has an empty source, or there are several and none of them has.
-/
def ToleratesEmptyReference (times : List ProjectedTime) : Prop :=
  match times with
  | [] => False
  | [p] => p.source = some ""
  | _ => ∀ p ∈ times, p.source ≠ some ""

theorem asDuration_eq_ok_iff
    (p : ProjectedTime) :
    asDuration p.pronosticIV = .ok (delayOf p) ↔ FitsDuration p.pronosticIV := by
  cases h : p.pronosticIV with
  | none =>
      simp [asDuration, delayOf, FitsDuration, h]
  | some n =>
      by_cases hn : -62135596800 ≤ n ∧ n ≤ 253402300799
      · simp [asDuration, delayOf, FitsDuration, h, hn]
      · simp [asDuration, delayOf, FitsDuration, h, hn]

/-- A duration that cannot be held is not an invalid argument. -/
theorem asDuration_ne_invalidArguments
    (seconds : Option Int) (detail : String) :
    asDuration seconds ≠ .error (.invalidArguments detail) := by
  unfold asDuration
  split
  · exact fun h => nomatch h
  · split
    · exact fun h => nomatch h
    · exact fun h => nomatch h

section Retrieval

variable {pdp : Pdp} {e : StopEvent}

/-- What is retrieved once the projected time is. -/
theorem retrieveStopEventDelay_of_ok
    {retrieved : Option ProjectedTime}
    (h : retrieveProjectedTime (pdp.sourceHoraireProjeteReference e)
      (pdp.listeHoraireProjete e) = .ok retrieved) :
    retrieveStopEventDelay pdp e =
      retrieved.elim (.ok none) (fun p => asDuration p.pronosticIV) := by
  simp only [retrieveStopEventDelay, h, bind, Except.bind]
  cases retrieved <;> rfl

theorem retrieveStopEventDelay_of_error
    {err : PyException}
    (h : retrieveProjectedTime (pdp.sourceHoraireProjeteReference e)
      (pdp.listeHoraireProjete e) = .error err) :
    retrieveStopEventDelay pdp e = .error err := by
  rw [retrieveStopEventDelay, h]
  rfl

/-- What is retrieved for a reference that is taken as it is. -/
theorem retrieveProjectedTime_onTime
    {list : Option (List ProjectedTime)} {ref : Option String}
    (h : OnTime ref (list.getD [])) :
    retrieveProjectedTime ref list = .ok none := by
  obtain ⟨rfl, hlist⟩ := h
  simp [retrieveProjectedTime, hlist]

theorem retrieveProjectedTime_retained
    {list : Option (List ProjectedTime)} {ref : Option String}
    {p : ProjectedTime} (h : Retained ref (list.getD []) p) :
    retrieveProjectedTime ref list = .ok (some p) := by
  cases ref with
  | none =>
      rw [Retained] at h
      simp [retrieveProjectedTime, h]
  | some s =>
      rw [Retained] at h
      simp only [retrieveProjectedTime, h]

theorem retrieveProjectedTime_rejected
    {list : Option (List ProjectedTime)} {ref : Option String}
    (h : Rejected ref (list.getD [])) :
    ∃ detail, retrieveProjectedTime ref list = .error (.invalidArguments detail) := by
  cases ref with
  | none =>
      rw [Rejected] at h
      unfold retrieveProjectedTime
      rcases htimes : list.getD [] with _ | ⟨p, _ | ⟨q, rest⟩⟩
      · simp [htimes] at h
      · simp [htimes] at h
      · exact ⟨_, rfl⟩
  | some s =>
      have hfind : (list.getD []).find? (fun p => p.source == some s) = none := by
        simpa [Rejected] using h
      unfold retrieveProjectedTime
      simp only [hfind]
      exact ⟨_, rfl⟩

/-- In the first row of the table, there has to be no delay. -/
theorem followsTable_iff_of_onTime
    (h : OnTime (reference pdp e) (timesOf pdp e)) :
    FollowsTable pdp e ↔ retrieveStopEventDelay pdp e = .ok none := by
  refine ⟨fun hfollows => hfollows.onTime h, fun hdelay => ?_⟩
  refine ⟨fun _ => hdelay, fun _ => Or.inl h, ?_, ?_⟩
  · exact fun p hp => absurd hp h.not_retained
  · rw [hdelay]
    exact iff_of_false (fun ⟨_, herror⟩ => nomatch herror) h.not_rejected

/-- When a projected time is to be used, it has to give the delay. -/
theorem followsTable_iff_of_retained
    {p : ProjectedTime}
    (h : Retained (reference pdp e) (timesOf pdp e) p) :
    FollowsTable pdp e ↔ retrieveStopEventDelay pdp e = .ok (delayOf p) := by
  refine ⟨fun hfollows => hfollows.retained p h, fun hdelay => ?_⟩
  refine ⟨fun honTime => absurd h honTime.not_retained, fun hnone => ?_, ?_, ?_⟩
  · rw [hdelay, Except.ok.injEq] at hnone
    exact Or.inr ⟨p, h, Option.map_eq_none_iff.1 hnone⟩
  · intro q hq
    rw [hdelay, h.unique hq]
  · rw [hdelay]
    exact iff_of_false (fun ⟨_, herror⟩ => nomatch herror) h.not_rejected

/-- In the last row of the table, the feed has to be rejected. -/
theorem followsTable_iff_of_rejected
    (h : Rejected (reference pdp e) (timesOf pdp e)) :
    FollowsTable pdp e ↔
      ∃ detail,
        retrieveStopEventDelay pdp e = .error (.invalidArguments detail) := by
  refine ⟨fun hfollows => hfollows.rejected.2 h, fun herror => ?_⟩
  refine ⟨fun honTime => absurd h honTime.not_rejected, fun hnone => ?_, ?_, ?_⟩
  · obtain ⟨detail, herror⟩ := herror
    rw [herror] at hnone
    exact nomatch hnone
  · exact fun p hp => absurd h hp.not_rejected
  · exact iff_of_true herror h

/--
A point whose reference is not the empty text follows the table when the time to
use can be held.
-/
theorem followsTable_iff_of_reference
    (href : reference pdp e = pdp.sourceHoraireProjeteReference e) :
    FollowsTable pdp e ↔
      ∀ p, Retained (reference pdp e) (timesOf pdp e) p →
        FitsDuration p.pronosticIV := by
  rcases onTime_or_retained_or_rejected (reference pdp e) (timesOf pdp e) with
    h | ⟨p, h⟩ | h
  · rw [followsTable_iff_of_onTime h]
    refine iff_of_true ?_ (fun p hp => absurd hp h.not_retained)
    exact retrieveStopEventDelay_of_ok (retrieveProjectedTime_onTime (href ▸ h))
  · rw [followsTable_iff_of_retained h,
      retrieveStopEventDelay_of_ok (retrieveProjectedTime_retained (href ▸ h)),
      Option.elim_some, asDuration_eq_ok_iff]
    exact ⟨fun hfits q hq => h.unique hq ▸ hfits, fun hfits => hfits p h⟩
  · rw [followsTable_iff_of_rejected h]
    refine iff_of_true ?_ (fun p hp => absurd h hp.not_rejected)
    obtain ⟨detail, herror⟩ := retrieveProjectedTime_rejected (href ▸ h)
    exact ⟨detail, retrieveStopEventDelay_of_error herror⟩

/-- What the code does with an empty reference: it looks for an empty source. -/
theorem followsTable_iff_of_emptyReference
    (href : pdp.sourceHoraireProjeteReference e = some "") :
    FollowsTable pdp e ↔
      ToleratesEmptyReference (timesOf pdp e) ∧
      ∀ p, Retained (reference pdp e) (timesOf pdp e) p →
        FitsDuration p.pronosticIV := by
  have hnone : reference pdp e = none := by
    rw [reference, href]
    rfl
  have herror : (∀ p ∈ timesOf pdp e, p.source ≠ some "") →
      ∃ detail, retrieveStopEventDelay pdp e = .error (.invalidArguments detail) := by
    intro hsources
    have hrejected : Rejected (pdp.sourceHoraireProjeteReference e)
        (timesOf pdp e) := by
      rw [href]
      exact hsources
    obtain ⟨detail, hraised⟩ := retrieveProjectedTime_rejected hrejected
    exact ⟨detail, retrieveStopEventDelay_of_error hraised⟩
  have hfound : ∀ p, (timesOf pdp e).find?
        (fun p => p.source == some "") = some p →
      retrieveStopEventDelay pdp e = asDuration p.pronosticIV := by
    intro p hp
    have hretained : Retained (pdp.sourceHoraireProjeteReference e)
        (timesOf pdp e) p := by
      rw [href]
      exact hp
    exact retrieveStopEventDelay_of_ok (retrieveProjectedTime_retained hretained)
  rcases htimes : timesOf pdp e with _ | ⟨p, _ | ⟨q, rest⟩⟩
  · -- no time: the feed is rejected instead of being on time
    rw [htimes] at herror
    obtain ⟨detail, hraised⟩ := herror (fun p hp => absurd hp List.not_mem_nil)
    rw [followsTable_iff_of_onTime ⟨hnone, htimes⟩, hraised]
    exact iff_of_false (fun h => nomatch h) (fun h => h.1)
  · have hretained : Retained (reference pdp e) (timesOf pdp e) p := by
      rw [hnone]
      exact htimes
    rw [followsTable_iff_of_retained hretained]
    by_cases hsource : p.source = some ""
    · rw [hfound p (by simp [htimes, hsource]), asDuration_eq_ok_iff]
      rw [htimes] at hretained
      exact ⟨fun hfits => ⟨hsource, fun q hq => hretained.unique hq ▸ hfits⟩,
        fun h => h.2 p hretained⟩
    · -- the only time is not the one of an empty source
      rw [htimes, List.forall_mem_singleton] at herror
      obtain ⟨detail, hraised⟩ := herror hsource
      rw [hraised]
      exact iff_of_false (fun h => nomatch h) (fun h => hsource h.1)
  · have hrejected : Rejected (reference pdp e) (timesOf pdp e) := by
      rw [hnone, htimes]
      exact Nat.le_add_left 2 rest.length
    rw [followsTable_iff_of_rejected hrejected]
    rw [htimes] at hrejected herror hfound
    by_cases hsources : ∀ r ∈ p :: q :: rest, r.source ≠ some ""
    · exact iff_of_true (herror hsources)
        ⟨hsources, fun r hr => absurd hrejected hr.not_rejected⟩
    · -- one of the times has an empty source, and gives the delay
      refine iff_of_false ?_ (fun h => hsources h.1)
      cases hfind : (p :: q :: rest).find? (fun r => r.source == some "") with
      | none =>
          exact absurd (by simpa using hfind) hsources
      | some r =>
          rintro ⟨detail, hraised⟩
          rw [hfound r hfind] at hraised
          exact asDuration_ne_invalidArguments r.pronosticIV detail hraised

/--
The delay of a stop event is the documented one exactly when the time to use can
be held as a duration and, if the reference is empty, it makes no difference.
-/
theorem followsTable_iff
    (pdp : Pdp) (e : StopEvent) :
    FollowsTable pdp e ↔
      (pdp.sourceHoraireProjeteReference e = some "" →
        ToleratesEmptyReference (timesOf pdp e)) ∧
      ∀ p, Retained (reference pdp e) (timesOf pdp e) p →
        FitsDuration p.pronosticIV := by
  by_cases href : pdp.sourceHoraireProjeteReference e = some ""
  · rw [followsTable_iff_of_emptyReference href]
    exact and_congr_left (fun _ => ⟨fun h _ => h, fun h => h href⟩)
  · have hsame : reference pdp e = pdp.sourceHoraireProjeteReference e := by
      rw [reference, truthyText]
      cases href' : pdp.sourceHoraireProjeteReference e with
      | none =>
          rfl
      | some s =>
          have hs : s ≠ "" := fun hs => href (by rw [href', hs])
          simp [Option.filter, hs]
    rw [followsTable_iff_of_reference hsame]
    exact ⟨fun h => ⟨fun hempty => absurd hempty href, h⟩, fun h => h.2⟩

end Retrieval

namespace Sample

/-- A point whose reference of the arrival is empty, without projected times. -/
def emptyReferencePdp : Pdp :=
  { pdp 0 "a" (Core.Sample.clock 10 0) (Core.Sample.clock 10 5) with
    sourceHoraireProjeteArriveeReference := some ""
    listeHoraireProjeteArrivee := some [] }

end Sample

/-- An empty reference without any projected time is rejected. -/
theorem not_followsTable_emptyReference :
    ¬FollowsTable Sample.emptyReferencePdp .arrival := by
  intro h
  have honTime := h.onTime ⟨rfl, rfl⟩
  cases honTime

end Cots
end Kirin
