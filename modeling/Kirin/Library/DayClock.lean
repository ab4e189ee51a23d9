import Mathlib.Order.Basic
import Mathlib.Order.Bounds.Basic
import Mathlib.Tactic.Common

/-!
# Clocks that forget the day

An integer time line is cut into days of length `D`.  An instant is determined
by its day and by its clock reading within that day.  A list of clock readings
alone forgets the days; they can be rebuilt by counting the descents of the
readings, provided that two consecutive instants are less than one day apart.

* `dayOf_of_gap`: across a gap shorter than a day, the day advances by one
  exactly when the clock reading falls.
* `gap_of_dayOf`: conversely, when the day advances in that way the gap is
  shorter than a day.
* `isLeast_next`: the next instant with a given reading.
* `next_eq_iff`: the next instant with a given reading is a given instant
  exactly when the readings agree and the gap is shorter than a day.
* `eq_iff_near`: two instants with the same reading, told with a margin, are the
  same exactly when what tells them is twice the margin apart at most.
* `descent_le_add`: reading the clock more often never loses a descent.
-/

namespace DayClock

variable {D : Int}

/-- Day of an instant. -/
def dayOf (D t : Int) : Int :=
  t / D

/-- Clock reading of an instant. -/
def clockOf (D t : Int) : Int :=
  t % D

/-- The instant at which the clock of day `d` reads `c`. -/
def instant (D d c : Int) : Int :=
  d * D + c

/-- One when the clock reading falls from `c` to `c'`, zero otherwise. -/
def descent (c c' : Int) : Int :=
  if c' < c then 1 else 0

@[simp] theorem instant_dayOf_clockOf
    (t : Int) :
    instant D (dayOf D t) (clockOf D t) = t := by
  simp only [instant, dayOf, clockOf]
  rw [Int.mul_comm]
  exact Int.mul_ediv_add_emod t D

/-- An instant in terms of its day and of its reading. -/
theorem dayOf_mul_add_clockOf
    (D t : Int) :
    dayOf D t * D + clockOf D t = t :=
  instant_dayOf_clockOf t

theorem clockOf_nonneg
    (hD : 0 < D) (t : Int) :
    0 ≤ clockOf D t :=
  Int.emod_nonneg t (by omega)

theorem clockOf_lt
    (hD : 0 < D) (t : Int) :
    clockOf D t < D :=
  Int.emod_lt_of_pos t hD

/-- A reading within the day leaves the day of the instant unchanged. -/
theorem dayOf_instant
    {d c : Int} (h0 : 0 ≤ c) (h1 : c < D) :
    dayOf D (instant D d c) = d := by
  have hD : D ≠ 0 := by omega
  simp only [instant, dayOf]
  rw [Int.add_comm, Int.add_mul_ediv_right _ _ hD, Int.ediv_eq_zero_of_lt h0 h1]
  omega

theorem clockOf_instant
    {d c : Int} (h0 : 0 ≤ c) (h1 : c < D) :
    clockOf D (instant D d c) = c := by
  simp only [instant, clockOf]
  rw [Int.add_comm, Int.add_mul_emod_self_right]
  exact Int.emod_eq_of_lt h0 h1

/-- Instants with the same reading are ordered by day. -/
theorem instant_le_instant_iff
    (hD : 0 < D) {d d' c : Int} :
    instant D d c ≤ instant D d' c ↔ d ≤ d' := by
  simp only [instant, Int.add_le_add_iff_right]
  exact Int.mul_le_mul_iff_of_pos_right hD

/-- Instants are ordered first by day. -/
theorem dayOf_mono
    (hD : 0 < D) {t t' : Int} (h : t ≤ t') :
    dayOf D t ≤ dayOf D t' :=
  Int.ediv_le_ediv hD h

/-- The day advances by at least the descent of the readings. -/
theorem dayOf_add_descent_le
    (hD : 0 < D) {t t' : Int} (h : t ≤ t') :
    dayOf D t + descent (clockOf D t) (clockOf D t') ≤ dayOf D t' := by
  have hle := dayOf_mono hD h
  unfold descent
  split
  · rename_i hlt
    rcases Int.lt_or_eq_of_le hle with hday | hday
    · omega
    · have ht := dayOf_mul_add_clockOf D t
      have ht' := dayOf_mul_add_clockOf D t'
      rw [← hday] at ht'
      omega
  · omega

/--
Across a gap shorter than a day, the day advances by one exactly when the
clock reading falls.
-/
theorem dayOf_of_gap
    (hD : 0 < D) {t t' : Int}
    (h : t ≤ t') (hgap : t' - t < D) :
    dayOf D t' = dayOf D t + descent (clockOf D t) (clockOf D t') := by
  have hle := dayOf_add_descent_le hD h
  have ht := dayOf_mul_add_clockOf D t
  have ht' := dayOf_mul_add_clockOf D t'
  by_contra hne
  have hlt :
      dayOf D t + descent (clockOf D t) (clockOf D t') + 1 ≤ dayOf D t' := by
    omega
  have hmul := Int.mul_le_mul_of_nonneg_right hlt (Int.le_of_lt hD)
  simp only [descent] at hmul
  split at hmul
  · rw [Int.add_mul, Int.add_mul] at hmul
    have := clockOf_lt hD t
    have := clockOf_nonneg hD t'
    omega
  · rw [Int.add_mul, Int.add_mul] at hmul
    omega

/-- When the day advances by the descent only, the gap is shorter than a day. -/
theorem gap_of_dayOf
    (hD : 0 < D) {t t' : Int}
    (h : dayOf D t' = dayOf D t + descent (clockOf D t) (clockOf D t')) :
    t' - t < D := by
  have ht := dayOf_mul_add_clockOf D t
  have ht' := dayOf_mul_add_clockOf D t'
  rw [h] at ht'
  simp only [descent] at ht'
  split at ht'
  · rw [Int.add_mul] at ht'
    omega
  · rw [Int.add_mul] at ht'
    have := clockOf_lt hD t'
    have := clockOf_nonneg hD t
    omega

/--
One day apart, a shift of the readings by less than what is missing to a whole
day keeps their descent.
-/
theorem shifted_reading_lt
    {t t' s s' : Int} (h : dayOf D t' = dayOf D t + 1)
    (hshift : s' - s < D - (t' - t)) :
    clockOf D t' + s' < clockOf D t + s := by
  have ht := dayOf_mul_add_clockOf D t
  have ht' := dayOf_mul_add_clockOf D t'
  rw [h, Int.add_mul] at ht'
  omega

/-- First instant from `t` on at which the clock reads `c`. -/
def next (D t c : Int) : Int :=
  instant D (dayOf D t + descent (clockOf D t) c) c

theorem le_next
    (hD : 0 < D) {t c : Int} (h0 : 0 ≤ c) :
    t ≤ next D t c := by
  have ht := dayOf_mul_add_clockOf D t
  have hlt := clockOf_lt hD t
  simp only [next, instant, descent]
  split
  · rw [Int.add_mul]
    omega
  · rw [Int.add_zero]
    omega

/-- It is the earliest of them. -/
theorem isLeast_next
    (hD : 0 < D) {t c : Int} (h0 : 0 ≤ c) (h1 : c < D) :
    IsLeast {t' | t ≤ t' ∧ clockOf D t' = c} (next D t c) := by
  refine ⟨⟨le_next hD h0, clockOf_instant h0 h1⟩, ?_⟩
  rintro t' ⟨hle, rfl⟩
  calc
    next D t (clockOf D t') ≤ instant D (dayOf D t') (clockOf D t') :=
      (instant_le_instant_iff hD).2 (dayOf_add_descent_le hD hle)
    _ = t' := instant_dayOf_clockOf t'

/-- The next instant with a given reading comes less than a day later. -/
theorem next_eq_iff
    (hD : 0 < D) {t c t' : Int}
    (h0 : 0 ≤ c) (h1 : c < D) (h : t ≤ t') :
    next D t c = t' ↔ c = clockOf D t' ∧ t' - t < D := by
  constructor
  · rintro rfl
    have hclock : clockOf D (next D t c) = c := clockOf_instant h0 h1
    refine ⟨hclock.symm, gap_of_dayOf hD ?_⟩
    rw [hclock]
    exact dayOf_instant h0 h1
  · rintro ⟨rfl, hgap⟩
    rw [next, ← dayOf_of_gap hD h hgap]
    exact instant_dayOf_clockOf t'

/-- Instants with the same reading that are less than a day apart are the same. -/
theorem eq_of_clockOf
    (hD : 0 < D) {t t' : Int} (hclock : clockOf D t = clockOf D t')
    (hle : t ≤ t') (hgap : t' - t < D) :
    t = t' := by
  have hday := dayOf_of_gap hD hle hgap
  have ht := dayOf_mul_add_clockOf D t
  have ht' := dayOf_mul_add_clockOf D t'
  rw [hclock, descent, if_neg (Int.lt_irrefl _), Int.add_zero] at hday
  rw [hday, ← hclock] at ht'
  omega

/--
Two instants with the same reading are told with a margin that is shorter than a
quarter of a day.  They are the same exactly when what tells them is twice the
margin apart at most.
-/
theorem eq_iff_near
    {m t t' b b' : Int} (hm : 4 * m < D) (hclock : clockOf D t = clockOf D t')
    (hfrom : b - m ≤ t) (hto : t ≤ b + m)
    (hfrom' : b' - m ≤ t') (hto' : t' ≤ b' + m) :
    t = t' ↔ b - b' ≤ 2 * m ∧ b' - b ≤ 2 * m := by
  constructor
  · rintro rfl
    omega
  · rintro ⟨hafter, hbefore⟩
    have hD : 0 < D := by omega
    rcases Int.le_total t t' with hle | hle
    · exact eq_of_clockOf hD hclock hle (by omega)
    · exact (eq_of_clockOf hD hclock.symm hle (by omega)).symm

theorem descent_nonneg
    (c c' : Int) :
    0 ≤ descent c c' := by
  unfold descent
  split <;> omega

/-- Going through a third reading between two others loses no descent. -/
theorem descent_le_add
    (c c' c'' : Int) :
    descent c c'' ≤ descent c c' + descent c' c'' := by
  unfold descent
  split <;> split <;> split <;> omega

/-- Number of descents along a list of readings, after a previous one if any. -/
def descents : Option Int → List Int → Int
  | _, [] => 0
  | none, c :: cs => descents (some c) cs
  | some p, c :: cs => descent p c + descents (some c) cs

end DayClock
