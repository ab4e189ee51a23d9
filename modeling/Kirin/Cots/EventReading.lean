import Kirin.Core.MergeRaises
import Kirin.Cots.BuilderRules
import Kirin.Cots.DelayRetrieval

/-!
# Kirin: the reading of the events of a point

An event of a COTS point gives its times when it has no status, or one that leaves
it served.  Any of its values may be missing; what cannot be read is to raise an
exception of Kirin, and no other one.

* `makeEventUpdate_of_reads`, `makeEventUpdate_of_not_reads`: the two kinds of
  events.
* `EventCrashes`: an event with a projected time that cannot be added to its base
  datetime.
* `projectTime_handled_iff`: the delays that can be added to a datetime.
* `makeEventUpdate_handled_iff`: these are the events that raise something else
  than an exception of Kirin.
* `updateOf_delay`: an event is updated by a delay only.
-/

namespace Kirin
namespace Cots

open Kirin.Core Checked

/-- The statuses with which the times of an event are read. -/
def readsTimes : Option StatutCirculation → Bool
  | none => true
  | some .reactivation => true
  | some .creation => true
  | some .detournement => true
  | some _ => false

/-- The base datetime of an event is missing, null or empty. -/
def Undated (h : TravelerTime) : Prop :=
  ∀ d ∈ h.dateHeure, d.text = ""

/-- The projected time that is found for an event, if any. -/
abbrev foundTime (pdp : Pdp) (e : StopEvent) :
    Except PyException (Option ProjectedTime) :=
  retrieveProjectedTime (pdp.sourceHoraireProjeteReference e)
    (pdp.listeHoraireProjete e)

/-- The base datetime of an event cannot be moved by a delay. -/
def Unmovable (h : TravelerTime) (delay : Timedelta) : Prop :=
  Undated h ∨
    ∃ t, retrieveStopEventDatetime h = .ok (some t) ∧
      ¬Datetime.InRange (t + delay)

/--
An event whose times are read has a projected time, whose delay overflows, has no
base datetime to be added to, or leads out of the datetimes of the language.
-/
def EventCrashes (pdp : Pdp) (e : StopEvent) : Prop :=
  ∃ h p n,
    pdp.horaireVoyageur e = some h ∧
    readsTimes h.statutCirculationOPE = true ∧
    (∃ base, retrieveStopEventDatetime h = .ok base) ∧
    foundTime pdp e = .ok (some p) ∧
    p.pronosticIV = some n ∧
    (¬FitsDuration (some n) ∨ Unmovable h (n * second))

theorem getValue_handled
    {α : Type} (key : String) (value : Option α) :
    Handled (getValue key value) := by
  cases value with
  | none =>
      exact raisesOnly_error.2 rfl
  | some v =>
      exact raisesOnly_ok _ _

section Event

variable {pdp : Pdp} {e : StopEvent} {h : TravelerTime}

/-- The projected time of an event, with the delay that it includes. -/
def movedTime (pdp : Pdp) (e : StopEvent) (h : TravelerTime) :
    Except PyException (Option Datetime × Option Timedelta) := do
  let base ← retrieveStopEventDatetime h
  let delay ← retrieveStopEventDelay pdp e
  return (← projectTime base delay, delay)

/-- The update of an event whose times are read. -/
def readUpdate (status : Option StatutCirculation)
    (moved : Option Datetime × Option Timedelta) : EventUpdate :=
  let added (status : ModificationType) : EventUpdate :=
    { projected := moved.1, time := moved.1, delay := none, status := status }
  match status with
  | some .creation => added .add
  | some .detournement => added .addedForDetour
  | _ =>
      { projected := moved.1, time := none, delay := moved.2
        status := if moved.2.isSome then .update else .none }

/-- An event whose times are read. -/
theorem makeEventUpdate_of_reads
    (hpdp : pdp.horaireVoyageur e = some h)
    (hreads : readsTimes h.statutCirculationOPE = true) :
    makeEventUpdate pdp e =
      (movedTime pdp e h).map (readUpdate h.statutCirculationOPE) := by
  have hmoved : ∀ k : Option Datetime × Option Timedelta → EventUpdate,
      (movedTime pdp e h >>= fun r => pure (k r)) = (movedTime pdp e h).map k := by
    intro k
    cases movedTime pdp e h <;> rfl
  unfold makeEventUpdate
  simp only [hpdp]
  cases hstatus : h.statutCirculationOPE with
  | none =>
      exact hmoved _
  | some status =>
      rw [hstatus] at hreads
      cases status with
      | reactivation =>
          exact hmoved _
      | creation =>
          exact hmoved _
      | detournement =>
          exact hmoved _
      | suppression =>
          cases hreads
      | suppressionDetournement =>
          cases hreads
      | other text =>
          cases hreads

/-- Any other event is deleted, or its status is refused. -/
theorem makeEventUpdate_of_not_reads
    (hpdp : pdp.horaireVoyageur e = some h)
    (hreads : readsTimes h.statutCirculationOPE = false) :
    (∃ status : ModificationType, status.isDeleted = true ∧
        makeEventUpdate pdp e = .ok { EventUpdate.unchanged with status := status }) ∨
      ∃ detail, makeEventUpdate pdp e = .error (.invalidArguments detail) := by
  unfold makeEventUpdate
  simp only [hpdp]
  cases hstatus : h.statutCirculationOPE with
  | none =>
      rw [hstatus] at hreads
      cases hreads
  | some status =>
      rw [hstatus] at hreads
      cases status with
      | reactivation =>
          cases hreads
      | creation =>
          cases hreads
      | detournement =>
          cases hreads
      | suppression =>
          exact Or.inl ⟨.delete, rfl, rfl⟩
      | suppressionDetournement =>
          exact Or.inl ⟨.deletedForDetour, rfl, rfl⟩
      | other text =>
          exact Or.inr ⟨_, rfl⟩

/-- An event raises what the reading of its times does, if they are read. -/
theorem makeEventUpdate_handled_of_horaire
    (hpdp : pdp.horaireVoyageur e = some h) :
    Handled (makeEventUpdate pdp e) ↔
      (readsTimes h.statutCirculationOPE = true → Handled (movedTime pdp e h)) := by
  cases hreads : readsTimes h.statutCirculationOPE with
  | true =>
      rw [makeEventUpdate_of_reads hpdp hreads, Handled, raisesOnly_map]
      exact ⟨fun hhandled _ => hhandled, fun himp => himp rfl⟩
  | false =>
      refine iff_of_true ?_ (fun hfalse => absurd hfalse Bool.false_ne_true)
      rcases makeEventUpdate_of_not_reads hpdp hreads with
        ⟨status, -, hok⟩ | ⟨detail, herror⟩
      · rw [hok]
        exact raisesOnly_ok _ _
      · rw [herror]
        exact raisesOnly_error.2 rfl

/-- An event has no datetime exactly when none is given. -/
theorem retrieveStopEventDatetime_eq_none_iff :
    retrieveStopEventDatetime h = .ok none ↔ Undated h := by
  unfold retrieveStopEventDatetime asTruthyDt Undated
  cases h.dateHeure with
  | none =>
      simp
  | some d =>
      by_cases hd : d.text = ""
      · simp [hd]
      · cases hparsed : asUtcNaiveDt d <;> simp [hd, hparsed, Except.map]

theorem retrieveStopEventDatetime_handled
    (h : TravelerTime) :
    Handled (retrieveStopEventDatetime h) := by
  unfold retrieveStopEventDatetime asTruthyDt
  split
  · exact raisesOnly_ok _ _
  · split
    · exact raisesOnly_ok _ _
    · unfold asUtcNaiveDt
      split
      · exact raisesOnly_ok _ _
      · exact raisesOnly_error.2 rfl

theorem retrieveProjectedTime_handled
    (ref : Option String) (list : Option (List ProjectedTime)) :
    Handled (retrieveProjectedTime ref list) := by
  unfold retrieveProjectedTime
  split
  · split
    · exact raisesOnly_ok _ _
    · exact raisesOnly_error.2 rfl
  · split
    · exact raisesOnly_ok _ _
    · exact raisesOnly_ok _ _
    · exact raisesOnly_error.2 rfl

/-- A delay can be added to a datetime. -/
def Addable (base : Option Datetime) (delay : Timedelta) : Prop :=
  ∃ t, base = some t ∧ Datetime.InRange (t + delay)

/-- A delay is added to a datetime that is there, and that it leaves in range. -/
theorem projectTime_handled_iff
    {base : Option Datetime} {delay : Option Timedelta} :
    Handled (projectTime base delay) ↔ ∀ d ∈ delay, Addable base d := by
  cases delay with
  | none =>
      simp [projectTime]
  | some d =>
      cases base with
      | none =>
          simp [projectTime, requireDatetime, Addable, bind, Except.bind,
            isKirinException]
      | some t =>
          by_cases hrange : Datetime.InRange (t + d)
          · simp [projectTime, requireDatetime, Addable, addDelay, hrange, bind,
              Except.bind]
          · simp [projectTime, requireDatetime, Addable, addDelay, hrange, bind,
              Except.bind, isKirinException]

/-- An event that is read cannot be moved when the delay cannot be added. -/
theorem unmovable_iff
    {base : Option Datetime} {delay : Timedelta}
    (hbase : retrieveStopEventDatetime h = .ok base) :
    Unmovable h delay ↔ ¬Addable base delay := by
  rw [Unmovable, ← retrieveStopEventDatetime_eq_none_iff, hbase, Addable]
  cases base with
  | none =>
      simp
  | some t =>
      simp

/-- What is done with the datetime and with the delay of an event. -/
theorem movedTime_handled_iff_delay :
    Handled (movedTime pdp e h) ↔
      ∀ base, retrieveStopEventDatetime h = .ok base →
        Handled (retrieveStopEventDelay pdp e) ∧
          ∀ d, retrieveStopEventDelay pdp e = .ok (some d) → Addable base d := by
  have hproject : ∀ base delay,
      Handled (projectTime base delay >>= fun t => pure (t, delay)) ↔
        ∀ d ∈ delay, Addable base d := by
    intro base delay
    refine (raisesOnly_bind.trans ?_).trans projectTime_handled_iff
    exact and_iff_left (fun t _ => raisesOnly_pure _ _)
  have hdelay : ∀ base,
      Handled (retrieveStopEventDelay pdp e >>= fun delay =>
          projectTime base delay >>= fun t => pure (t, delay)) ↔
        Handled (retrieveStopEventDelay pdp e) ∧
          ∀ d, retrieveStopEventDelay pdp e = .ok (some d) → Addable base d := by
    intro base
    rw [Handled, raisesOnly_bind]
    refine and_congr_right' ?_
    constructor
    · intro hall d hd
      exact (hproject base _).1 (hall _ hd) d rfl
    · rintro hall delay hdelay
      exact (hproject base delay).2 (fun d hd => hall d (hd ▸ hdelay))
  unfold movedTime
  rw [Handled, raisesOnly_bind,
    and_iff_right (retrieveStopEventDatetime_handled h)]
  exact forall₂_congr (fun base _ => hdelay base)

/-- The delay of a projected time that is found. -/
theorem delay_of_found
    {p : ProjectedTime}
    (hp : foundTime pdp e = .ok (some p)) :
    retrieveStopEventDelay pdp e = asDuration p.pronosticIV := by
  rw [retrieveStopEventDelay_of_ok hp, Option.elim_some]

theorem asDuration_handled_iff
    {seconds : Option Int} :
    Handled (asDuration seconds) ↔ FitsDuration seconds := by
  cases seconds with
  | none =>
      simp [asDuration, FitsDuration]
  | some n =>
      by_cases hbound : -62135596800 ≤ n ∧ n ≤ 253402300799
      · simp [asDuration, FitsDuration, hbound]
      · simp [asDuration, FitsDuration, hbound, isKirinException]

/-- A delay is read when it fits in a duration. -/
theorem retrieveStopEventDelay_handled_iff :
    Handled (retrieveStopEventDelay pdp e) ↔
      ∀ p, foundTime pdp e = .ok (some p) → FitsDuration p.pronosticIV := by
  cases hfound : foundTime pdp e with
  | error err =>
      rw [retrieveStopEventDelay_of_error hfound]
      refine iff_of_true (raisesOnly_error.2 ?_) (fun p hp => by cases hp)
      exact retrieveProjectedTime_handled _ _ _ hfound
  | ok found =>
      cases found with
      | none =>
          rw [retrieveStopEventDelay_of_ok hfound]
          exact iff_of_true (raisesOnly_ok _ _) (fun p hp => by cases hp)
      | some p =>
          rw [delay_of_found hfound, asDuration_handled_iff]
          simp

/-- There is a delay when a projected time gives one that fits. -/
theorem retrieveStopEventDelay_eq_some_iff
    {d : Timedelta} :
    retrieveStopEventDelay pdp e = .ok (some d) ↔
      ∃ p n, foundTime pdp e = .ok (some p) ∧ p.pronosticIV = some n ∧
        FitsDuration (some n) ∧ d = n * second := by
  cases hfound : foundTime pdp e with
  | error err =>
      simp [retrieveStopEventDelay_of_error hfound]
  | ok found =>
      cases found with
      | none =>
          simp [retrieveStopEventDelay_of_ok hfound]
      | some p =>
          rw [delay_of_found hfound]
          cases hn : p.pronosticIV with
          | none =>
              simp [asDuration, hn]
          | some n =>
              by_cases hbound : -62135596800 ≤ n ∧ n ≤ 253402300799
              · simp [asDuration, FitsDuration, hn, hbound, eq_comm]
              · simp [asDuration, FitsDuration, hn, hbound]

/-- The times of an event are read unless the delay cannot be added. -/
theorem movedTime_handled_iff :
    Handled (movedTime pdp e h) ↔
      ¬∃ p n, (∃ base, retrieveStopEventDatetime h = .ok base) ∧
        foundTime pdp e = .ok (some p) ∧ p.pronosticIV = some n ∧
        (¬FitsDuration (some n) ∨ Unmovable h (n * second)) := by
  rw [movedTime_handled_iff_delay]
  constructor
  · rintro hmoved ⟨p, n, ⟨base, hbase⟩, hp, hn, hbad⟩
    obtain ⟨hdelay, hadd⟩ := hmoved base hbase
    have hfits := retrieveStopEventDelay_handled_iff.1 hdelay p hp
    rw [hn] at hfits
    rcases hbad with hnot | hunmovable
    · exact hnot hfits
    · have hd := retrieveStopEventDelay_eq_some_iff.2 ⟨p, n, hp, hn, hfits, rfl⟩
      exact (unmovable_iff hbase).1 hunmovable (hadd _ hd)
  · intro hnone base hbase
    refine ⟨retrieveStopEventDelay_handled_iff.2 ?_, fun d hd => ?_⟩
    · intro p hp n hn
      by_contra hbound
      refine hnone ⟨p, n, ⟨base, hbase⟩, hp, hn, Or.inl (fun hfits => ?_)⟩
      exact hbound (hfits n rfl)
    · obtain ⟨p, n, hp, hn, -, rfl⟩ := retrieveStopEventDelay_eq_some_iff.1 hd
      by_contra hadd
      exact hnone ⟨p, n, ⟨base, hbase⟩, hp, hn,
        Or.inr ((unmovable_iff hbase).2 hadd)⟩

/-- An event raises an exception that is not one of Kirin when it crashes. -/
theorem makeEventUpdate_handled_iff :
    Handled (makeEventUpdate pdp e) ↔ ¬EventCrashes pdp e := by
  cases hpdp : pdp.horaireVoyageur e with
  | none =>
      refine iff_of_true ?_ ?_
      · simp [makeEventUpdate, hpdp]
      · rintro ⟨h, p, n, hh, -⟩
        rw [hpdp] at hh
        cases hh
  | some h =>
      rw [makeEventUpdate_handled_of_horaire hpdp, movedTime_handled_iff, EventCrashes]
      constructor
      · rintro hreads ⟨h', p, n, hh, hstatus, hrest⟩
        rw [hpdp] at hh
        cases hh
        exact hreads hstatus ⟨p, n, hrest⟩
      · rintro hnone hstatus ⟨p, n, hrest⟩
        exact hnone ⟨h, p, n, hpdp, hstatus, hrest⟩

end Event

/-- What is read of an event, when it can be read. -/
def updateOf (pdp : Pdp) (e : StopEvent) : EventUpdate :=
  (makeEventUpdate pdp e).toOption.getD .unchanged

section Update

variable {pdp : Pdp}

theorem updateOf_of_ok
    {e : StopEvent} {update : EventUpdate}
    (h : makeEventUpdate pdp e = .ok update) :
    updateOf pdp e = update := by
  rw [updateOf, h]
  rfl

/-- An event whose times are read is updated by a delay only. -/
theorem readUpdate_delay
    {status : Option StatutCirculation}
    {moved : Option Datetime × Option Timedelta}
    (h : (readUpdate status moved).status = .update) :
    (readUpdate status moved).delay.isSome = true := by
  unfold readUpdate at h ⊢
  split at h
  · cases h
  · cases h
  · by_contra hnone
    simp only [if_neg hnone] at h
    cases h

/-- An event is updated by a delay only. -/
theorem updateOf_delay
    {e : StopEvent} (h : (updateOf pdp e).status = .update) :
    (updateOf pdp e).delay.isSome = true := by
  unfold updateOf at h ⊢
  cases hpdp : pdp.horaireVoyageur e with
  | none =>
      have hok : makeEventUpdate pdp e = .ok .unchanged := by
        simp only [makeEventUpdate, hpdp, EventUpdate.unchanged]
      rw [hok] at h
      cases h
  | some horaire =>
      cases hreads : readsTimes horaire.statutCirculationOPE with
      | true =>
          rw [makeEventUpdate_of_reads hpdp hreads] at h ⊢
          cases hmoved : movedTime pdp e horaire with
          | error err =>
              rw [hmoved] at h
              cases h
          | ok moved =>
              rw [hmoved] at h
              exact readUpdate_delay h
      | false =>
          rcases makeEventUpdate_of_not_reads hpdp hreads with
            ⟨status, hdeleted, hok⟩ | ⟨detail, herror⟩
          · rw [hok] at h
            rw [show status = .update from h] at hdeleted
            cases hdeleted
          · rw [herror] at h
            cases h

end Update

end Cots
end Kirin
