import Kirin.Cots.CirculationWindow
import Kirin.Piv.BuilderRules

/-!
# Kirin: the circulation that a PIV feed is about

A PIV feed is about the only vehicle journey that navitia has for its key, on the
day on which it starts near the first base departure of the feed.  A train that
navitia does not have starts at that departure.

* `readKey`, `buildTripUpdates_found`: the key of a feed, and its search.
* `Circulates`: the start that a first base departure tells.
* `getNavitiaVj_eq_ok_iff`: what a key finds.
* `getNavitiaVj_finds_iff`: a feed finds the circulation of that start.
* `sameStart_of_startTime`, `sameStart_of_empty`, `sameStart_of_added`: when two
  feeds tell one start.
-/

namespace Kirin
namespace Piv

open Kirin.Core

/-- The key of a feed, and the stops that are kept of it. -/
def readKey (raw : RawData) : Except PyException (String × List Arret) := do
  let train ← readTrain raw
  let trainDate ← getValue "dateCirculation" train.dateCirculation
  let trainNumbers ← getValue "numero" train.numero
  let trainCompany ←
    getValue "codeOperateur" (← getValue "operateur" train.operateur)
  let modeDict ← getValue "modeTransport" train.modeTransport
  let trainMode ← getValue "codeMode" modeDict.codeMode
  let trainSubmode ← getValue "codeSousMode" modeDict.codeSousMode
  let trainTypemode ← getValue "typeMode" modeDict.typeMode
  let listAds ← getValue "listeArretsDesserte" train.listeArretsDesserte
  let arret ← getValue "arret" listAds
  return (trainDate ++ ":" ++ trainNumbers ++ ":" ++ trainCompany ++ ":" ++
    trainMode ++ ":" ++ trainSubmode ++ ":" ++ trainTypemode,
    retrieveInterestingStops arret)

/-- The vehicle journey of a feed that is accepted is searched with its key. -/
theorem buildTripUpdates_found
    {services : Services} {contributorId newId : String} {raw : RawData}
    {ts : List NewTripUpdate}
    (h : buildTripUpdates services contributorId newId raw = .ok ts) :
    ∃ pivKey ads found t, readKey raw = .ok (pivKey, ads) ∧
      getNavitiaVj services newId pivKey ads = .ok found ∧ ts = [t] ∧
      t.vj = found.vj := by
  simp only [buildTripUpdates, Checked.bind_eq_ok] at h
  obtain ⟨train, htrain, disruption, -, trainDate, hdate, trainNumbers, hnumbers,
    operateur, hoperateur, trainCompany, hcompany, modeDict, hdict, trainMode,
    hmode, trainSubmode, hsubmode, trainTypemode, htypemode, listAds, hlist, arret,
    harret, h⟩ := h
  split at h
  · cases h
  · simp only [Checked.bind_eq_ok, Checked.pure_eq_ok] at h
    obtain ⟨found, hfound, t, ht, rfl⟩ := h
    refine ⟨_, _, found, t, ?_, hfound, rfl, (makeTripUpdate_ok ht).vj⟩
    simp only [readKey, Checked.bind_eq_ok, Checked.pure_eq_ok]
    exact ⟨train, htrain, trainDate, hdate, trainNumbers, hnumbers, operateur,
      hoperateur, trainCompany, hcompany, modeDict, hdict, trainMode, hmode,
      trainSubmode, hsubmode, trainTypemode, htypemode, listAds, hlist, arret,
      harret, rfl⟩

/-- The vehicle journey that is taken for a key, if navitia has no two of them. -/
def AnswersOnly (services : Services) (pivKey : String) (navVj : NavVj) : Prop :=
  services.vehicleJourneys pivKey = .ok [navVj] ∨
    services.vehicleJourneys pivKey = .ok [] ∧ navVj = makeNavitiaEmptyVj pivKey

/-- A key has one vehicle journey at most. -/
theorem AnswersOnly.unique
    {services : Services} {pivKey : String} {navVj navVj' : NavVj}
    (h : AnswersOnly services pivKey navVj)
    (h' : AnswersOnly services pivKey navVj') :
    navVj = navVj' := by
  rcases h with hone | ⟨hnone, rfl⟩
  · rcases h' with hone' | ⟨hnone', -⟩
    · rw [hone, Except.ok.injEq] at hone'
      exact List.singleton_inj.1 hone'
    · rw [hone] at hnone'
      cases hnone'
  · rcases h' with hone' | ⟨-, rfl⟩
    · rw [hnone] at hone'
      cases hone'
    · rfl

/-- The start that a first base departure tells. -/
def Circulates (navVj : NavVj) (vjBaseStart s : Datetime) : Prop :=
  (navVj.stopTimes = [] ∧ s = vjBaseStart) ∨
    navVj.startTime = some (Datetime.time s) ∧
      vjBaseStart - baseVsRtErrorMargin ≤ s ∧
      s ≤ vjBaseStart + baseVsRtErrorMargin

section Search

variable {services : Services} {newId pivKey : String} {ads : List Arret}
variable {navVj : NavVj} {vjBaseStart s : Datetime}

/-- A period around a departure is shorter than a day. -/
theorem lt_of_margin
    {s b m d : Int} (hm : 2 * m < d) (hto : s ≤ b + m) :
    s - (b - m) < d := by
  omega

/-- A period around a departure tells the start that is near it. -/
theorem init_around_iff
    (newId : String) (navVj : NavVj) (vjBaseStart s : Datetime) :
    (∃ vj, VehicleJourney.init newId navVj (vjBaseStart - baseVsRtErrorMargin)
        (vjBaseStart + baseVsRtErrorMargin) (some vjBaseStart) = .ok vj ∧
      vj.startTimestamp = s) ↔
      Circulates navVj vjBaseStart s := by
  cases hstops : navVj.stopTimes with
  | nil =>
      have hstart : navVj.startTime = none := by
        rw [NavVj.startTime, hstops]
        rfl
      simp [VehicleJourney.init, computeStartTimestamp, hstops, Circulates,
        hstart, bind, Except.bind, pure, Except.pure, eq_comm]
  | cons first rest =>
      have hnonempty : ¬(navVj.stopTimes = [] ∧ s = vjBaseStart) := by
        rw [hstops]
        exact fun h => List.cons_ne_nil _ _ h.1
      rw [Circulates, or_iff_right hnonempty]
      cases hstart : navVj.startTime with
      | none =>
          have herror :
              (first.utcArrivalTime <|> first.utcDepartureTime) = none := by
            rw [← hstart, NavVj.startTime, hstops]
            rfl
          simp only [VehicleJourney.init, computeStartTimestamp, hstops, herror]
          refine iff_of_false ?_ ?_
          · rintro ⟨_, h, -⟩
            cases h
          · rintro ⟨h, -⟩
            cases h
      | some t =>
          have hleast :=
            Cots.isLeast_startsFrom (vjBaseStart - baseVsRtErrorMargin) t
          constructor
          · rintro ⟨vj, hinit, rfl⟩
            obtain ⟨hok, hd⟩ :
                ((∃ vj, VehicleJourney.init newId navVj _ _
                  (some vjBaseStart) = .ok vj) ↔ _) ∧ _ :=
              Cots.init_of_startTime hstart hleast
            have huntil := hok.1 ⟨vj, hinit⟩
            rw [← hd vj hinit] at hleast huntil
            obtain ⟨hsince, rfl⟩ := hleast.1
            exact ⟨rfl, hsince, huntil⟩
          · rintro ⟨ht, hfrom, hto⟩
            exact (Cots.init_eq_ok_iff (hstart.trans ht)).2
              ⟨hfrom, lt_of_margin (by decide) hto, hto⟩

/-- What a key finds has a first base departure, and one vehicle journey. -/
theorem getNavitiaVj_eq_ok_iff
    {found : FoundVj} :
    getNavitiaVj services newId pivKey ads = .ok found ↔
      AnswersOnly services pivKey found.navVj ∧
        ∃ vjBaseStart, getFirstStopBaseDatetime ads .departure =
            .ok (some vjBaseStart) ∧
          VehicleJourney.init newId found.navVj
            (vjBaseStart - baseVsRtErrorMargin)
            (vjBaseStart + baseVsRtErrorMargin) (some vjBaseStart) =
              .ok found.vj := by
  rw [getNavitiaVj, Checked.bind_eq_ok]
  constructor
  · rintro ⟨vjs, hvjs, h⟩
    simp only at h
    split at h
    · rename_i navVj hone
      split at h
      · rename_i vjBaseStart hdeparture
        split at h
        · rename_i vj hinit
          rw [Checked.pure_eq_ok] at h
          subst h
          refine ⟨?_, vjBaseStart, hdeparture, hinit⟩
          cases vjs with
          | nil =>
              exact Or.inr ⟨hvjs, (List.singleton_inj.1 hone).symm⟩
          | cons first rest =>
              exact Or.inl (hvjs.trans (congrArg Except.ok hone))
        · cases h
      · cases h
    · cases h
  · rintro ⟨hanswers, vjBaseStart, hdeparture, hinit⟩
    rcases hanswers with hone | ⟨hnone, hempty⟩
    · refine ⟨_, hone, ?_⟩
      simp only [List.isEmpty_cons, Bool.false_eq_true, if_false, hdeparture,
        hinit]
      rfl
    · refine ⟨_, hnone, ?_⟩
      simp only [List.isEmpty_nil, if_true, ← hempty, hdeparture, hinit]
      rfl

/-- A feed finds the circulation that starts near its first base departure. -/
theorem getNavitiaVj_finds_iff
    (hanswers : AnswersOnly services pivKey navVj)
    (hdeparture : getFirstStopBaseDatetime ads .departure =
      .ok (some vjBaseStart)) :
    (∃ found, getNavitiaVj services newId pivKey ads = .ok found ∧
      found.vj.startTimestamp = s) ↔
      Circulates navVj vjBaseStart s := by
  rw [← init_around_iff newId]
  constructor
  · rintro ⟨found, hfound, rfl⟩
    obtain ⟨hanswers', start, hdeparture', hinit⟩ :=
      getNavitiaVj_eq_ok_iff.1 hfound
    obtain rfl := hanswers'.unique hanswers
    rw [hdeparture, Except.ok.injEq, Option.some.injEq] at hdeparture'
    subst hdeparture'
    exact ⟨found.vj, hinit, rfl⟩
  · rintro ⟨vj, hinit, rfl⟩
    exact ⟨{ navVj := navVj, vj := vj },
      getNavitiaVj_eq_ok_iff.2 ⟨hanswers, vjBaseStart, hdeparture, hinit⟩, rfl⟩

end Search

/-- Two feeds tell one start. -/
def SameStart (navVj navVj' : NavVj) (vjBaseStart vjBaseStart' : Datetime) :
    Prop :=
  ∃ s, Circulates navVj vjBaseStart s ∧ Circulates navVj' vjBaseStart' s

section TwoFeeds

variable {navVj navVj' : NavVj} {b b' s s' : Datetime} {t : TimeOfDay}

/-- The start of a train that navitia has is near the departure of the feed. -/
theorem Circulates.of_startTime
    (h : Circulates navVj b s) (ht : navVj.startTime = some t) :
    t = Datetime.time s ∧ b - baseVsRtErrorMargin ≤ s ∧
      s ≤ b + baseVsRtErrorMargin := by
  rcases h with ⟨hstops, -⟩ | ⟨hstart, hnear⟩
  · rw [NavVj.startTime, hstops] at ht
    cases ht
  · rw [ht, Option.some.injEq] at hstart
    exact ⟨hstart, hnear⟩

/-- The start of a train that navitia does not have is that departure. -/
theorem Circulates.of_empty
    (h : Circulates navVj b s) (hstops : navVj.stopTimes = []) :
    s = b := by
  rcases h with ⟨-, hs⟩ | ⟨hstart, -⟩
  · exact hs
  · rw [NavVj.startTime, hstops] at hstart
    cases hstart

/-- Two starts of trains with the same first time, by the departures. -/
theorem Circulates.eq_iff_near
    (h : Circulates navVj b s) (h' : Circulates navVj' b' s')
    (ht : navVj.startTime = some t) (ht' : navVj'.startTime = some t) :
    s = s' ↔
      b - b' ≤ 2 * baseVsRtErrorMargin ∧ b' - b ≤ 2 * baseVsRtErrorMargin := by
  obtain ⟨hs, hfrom, hto⟩ := h.of_startTime ht
  obtain ⟨hs', hfrom', hto'⟩ := h'.of_startTime ht'
  have hclock : DayClock.clockOf day s = DayClock.clockOf day s' :=
    congrArg TimeOfDay.micros (hs.symm.trans hs')
  exact DayClock.eq_iff_near (by decide) hclock hfrom hto hfrom' hto'

/-- A first base departure tells one start at most. -/
theorem Circulates.unique
    (h : Circulates navVj b s) (h' : Circulates navVj b s') :
    s = s' := by
  cases ht : navVj.startTime with
  | none =>
      rcases h with ⟨hstops, rfl⟩ | ⟨hstart, -⟩
      · exact (h'.of_empty hstops).symm
      · rw [ht] at hstart
        cases hstart
  | some t =>
      have hzero : b - b ≤ 2 * baseVsRtErrorMargin := by
        rw [Int.sub_self]
        decide
      exact (h.eq_iff_near h' ht ht).2 ⟨hzero, hzero⟩

/-- Two feeds that each tell a start tell the same one when the starts agree. -/
theorem sameStart_iff
    (h : Circulates navVj b s) (h' : Circulates navVj' b' s') :
    SameStart navVj navVj' b b' ↔ s = s' := by
  constructor
  · rintro ⟨s1, h1, h1'⟩
    exact (h.unique h1).trans (h1'.unique h')
  · rintro rfl
    exact ⟨s, h, h'⟩

/-- For a train that navitia has, two departures less than two hours apart. -/
theorem sameStart_of_startTime
    (h : Circulates navVj b s) (h' : Circulates navVj' b' s')
    (ht : navVj.startTime = some t) (ht' : navVj'.startTime = some t) :
    SameStart navVj navVj' b b' ↔
      b - b' ≤ 2 * baseVsRtErrorMargin ∧ b' - b ≤ 2 * baseVsRtErrorMargin := by
  rw [sameStart_iff h h', h.eq_iff_near h' ht ht']

/-- For a train that navitia does not have, the same departure. -/
theorem sameStart_of_empty
    (h : Circulates navVj b s) (h' : Circulates navVj' b' s')
    (hstops : navVj.stopTimes = []) (hstops' : navVj'.stopTimes = []) :
    SameStart navVj navVj' b b' ↔ b = b' := by
  rw [sameStart_iff h h', h.of_empty hstops, h'.of_empty hstops']

/-- For a train that navitia has got in between, a departure that fits it. -/
theorem sameStart_of_added
    (ht : navVj.startTime = some t) (hstops' : navVj'.stopTimes = []) :
    SameStart navVj navVj' b b' ↔
      t = Datetime.time b' ∧ b - baseVsRtErrorMargin ≤ b' ∧
        b' ≤ b + baseVsRtErrorMargin := by
  constructor
  · rintro ⟨s1, h1, h1'⟩
    rw [← h1'.of_empty hstops']
    exact h1.of_startTime ht
  · rintro ⟨rfl, hnear⟩
    exact ⟨b', Or.inr ⟨ht, hnear⟩, Or.inl ⟨hstops', rfl⟩⟩

end TwoFeeds

end Piv
end Kirin
