import Kirin.Core.BuildWrapper
import Kirin.Library.Checked

/-!
# Kirin: the rows that can be encoded

The encoder is a partial function: it raises on an effect that the protobuf
lacks, on a start before 1900 and on a delay that does not fit its 32-bit field.

* `FieldsFit`: the start and the delays of a row fit.
* `fillEntity_ok_iff`: the rows that can be encoded.
* `convertToGtfsrt_ok_iff`: a list is published when all its rows can be encoded.
-/

namespace Kirin
namespace Core

/-- A delay that fits in a field of 32 bits, in seconds. -/
def FitsInt32 (delay : Timedelta) : Prop :=
  -2147483648 ≤ Int.tdiv delay second ∧ Int.tdiv delay second < 2147483648

instance (delay : Timedelta) : Decidable (FitsInt32 delay) :=
  inferInstanceAs (Decidable (_ ∧ _))

/-- A date that `strftime` takes. -/
def DateFits (date : Date) : Prop :=
  firstStrftimeDate ≤ date

instance (date : Date) : Decidable (DateFits date) :=
  inferInstanceAs (Decidable (_ ≤ _))

/-- The delays of a stop that are given fit. -/
def StopFits (st : StopTimeUpdate) : Prop :=
  (∀ d ∈ st.arrivalDelay, FitsInt32 d) ∧ ∀ d ∈ st.departureDelay, FitsInt32 d

instance (st : StopTimeUpdate) : Decidable (StopFits st) :=
  inferInstanceAs (Decidable (_ ∧ _))

/-- All the delays of a list of stops fit. -/
def DelaysFit (stus : List StopTimeUpdate) : Prop :=
  ∀ st ∈ stus, StopFits st

instance (stus : List StopTimeUpdate) : Decidable (DelaysFit stus) :=
  inferInstanceAs (Decidable (∀ st ∈ stus, StopFits st))

/-- The start date and the delays of a trip fit. -/
structure FieldsFit (tu : TripUpdate) : Prop where
  date : DateFits tu.vj.getCirculationDate
  delays : DelaysFit tu.stopTimeUpdates

instance (tu : TripUpdate) : Decidable (FieldsFit tu) :=
  decidable_of_iff (DateFits tu.vj.getCirculationDate ∧
    DelaysFit tu.stopTimeUpdates) ⟨fun h => ⟨h.1, h.2⟩, fun h => ⟨h.1, h.2⟩⟩

section Encoder

theorem dateToStr_ok_iff
    {date : Date} :
    (∃ text, dateToStr date = .ok text) ↔ DateFits date := by
  unfold dateToStr DateFits
  split <;> simp_all

theorem pbDelay_ok_iff
    {delay : Option Timedelta} :
    (∃ n, pbDelay delay = .ok n) ↔ ∀ d ∈ delay, FitsInt32 d := by
  cases delay with
  | none =>
      exact ⟨fun _ d hd => (nomatch hd), fun _ => ⟨0, rfl⟩⟩
  | some d =>
      simp only [Option.mem_some_iff, forall_eq', pbDelay, Option.getD_some,
        FitsInt32]
      split
      · rename_i h
        exact ⟨fun _ => h, fun _ => ⟨_, rfl⟩⟩
      · rename_i h
        exact ⟨fun ⟨_, hn⟩ => (nomatch hn), fun h' => absurd h' h⟩

/-- A stop is encoded when its delays fit. -/
theorem fillStopTimes_ok_iff
    {st : StopTimeUpdate} :
    (∃ pb, fillStopTimes st = .ok pb) ↔ StopFits st := by
  rw [StopFits, ← pbDelay_ok_iff, ← pbDelay_ok_iff]
  simp only [fillStopTimes, Checked.bind_eq_ok, Checked.pure_eq_ok]
  constructor
  · rintro ⟨pb, arrival, ha, departure, hd, -⟩
    exact ⟨⟨arrival, ha⟩, departure, hd⟩
  · rintro ⟨⟨arrival, ha⟩, departure, hd⟩
    exact ⟨_, arrival, ha, departure, hd, rfl⟩

/-- The effects of the database are those that the protobuf has. -/
theorem pbEffect_ok_iff
    {effect : Option TripEffect} :
    (∃ a, pbEffect effect = .ok a) ↔ ∀ e ∈ effect, e.inDatabase = true := by
  cases effect with
  | none =>
      exact ⟨fun _ e he => (nomatch he), fun _ => ⟨none, rfl⟩⟩
  | some e =>
      cases e <;> simp [pbEffect, getTripEvent, TripEffect.inDatabase]

/-- A row is encoded when its effect, its start and its delays can be. -/
theorem fillEntity_ok_iff
    {tu : TripUpdate} :
    (∃ entity, fillEntity tu = .ok entity) ↔
      EffectInDatabase tu ∧ FieldsFit tu := by
  have heffect : EffectInDatabase tu ↔ ∃ a, pbEffect tu.effect = .ok a :=
    pbEffect_ok_iff.symm
  have hfields : FieldsFit tu ↔
      (∃ text, dateToStr tu.vj.getCirculationDate = .ok text) ∧
        ∃ pbs, tu.stopTimeUpdates.mapM fillStopTimes = .ok pbs := by
    rw [dateToStr_ok_iff, Checked.exists_mapM_eq_ok]
    simp only [fillStopTimes_ok_iff]
    exact ⟨fun h => ⟨h.date, h.delays⟩, fun h => ⟨h.1, h.2⟩⟩
  rw [heffect, hfields]
  simp only [fillEntity, fillTripUpdate, Checked.bind_eq_ok,
    Checked.pure_eq_ok]
  constructor
  · rintro ⟨entity, pb, ⟨a, ha, text, htext, pbs, hpbs, -⟩, -⟩
    exact ⟨⟨a, ha⟩, ⟨text, htext⟩, pbs, hpbs⟩
  · rintro ⟨⟨a, ha⟩, ⟨text, htext⟩, pbs, hpbs⟩
    exact ⟨_, _, ⟨a, ha, text, htext, pbs, hpbs, rfl⟩, rfl⟩

/-- A list of rows is published when each of them is encoded. -/
theorem convertToGtfsrt_ok_iff
    {tus : List TripUpdate} :
    (∃ entities, convertToGtfsrt tus = .ok entities) ↔
      ∀ tu ∈ tus, EffectInDatabase tu ∧ FieldsFit tu := by
  rw [convertToGtfsrt, Checked.exists_mapM_eq_ok]
  exact forall₂_congr (fun tu _ => fillEntity_ok_iff)

end Encoder

end Core
end Kirin
