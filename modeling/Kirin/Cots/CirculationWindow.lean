import Kirin.Cots.BuilderRules

/-!
# Kirin: the circulation that a search period tells

Navitia gives the time of day at which a vehicle journey starts, and a search
period tells on which day.  A COTS feed is searched from one hour before its
first departure to one hour after its last arrival.

* `startsFirst`: the start of a circulation is the first datetime of the period
  with the time of day of its vehicle journey.
* `init_eq_ok_iff`: the periods that tell a given circulation.
* `getNavitiaVjs_finds_iff`: the circulation that a feed finds is the one that the
  constructor makes in the period of the feed.
* `identification`: what is told by a period, by two of them, and by a feed.
-/

namespace Kirin
namespace Cots

open Kirin.Core

section Period

variable {newId : String} {navVj : NavVj} {t : TimeOfDay}
variable {sinceDt untilDt s : Datetime} {vjStartDt : Option Datetime}

/-- The datetimes from a given one on with a given time of day. -/
def startsFrom (sinceDt : Datetime) (t : TimeOfDay) : Set Datetime :=
  {d | sinceDt ≤ d ∧ Datetime.time d = t}

/-- The first of them. -/
theorem isLeast_startsFrom
    (sinceDt : Datetime) (t : TimeOfDay) :
    IsLeast (startsFrom sinceDt t) (DayClock.next day sinceDt t.micros) := by
  have hclock : ∀ d, Datetime.time d = t ↔ DayClock.clockOf day d = t.micros := by
    intro d
    rcases t with ⟨micros, h0, h1⟩
    simp only [Datetime.time, TimeOfDay.mk.injEq]
  simp only [startsFrom, hclock]
  exact DayClock.isLeast_next day_pos t.nonneg t.lt_day

/-- The constructor succeeds when the first start comes in the period. -/
theorem init_of_startTime
    (hstart : navVj.startTime = some t) {d : Datetime}
    (hd : IsLeast (startsFrom sinceDt t) d) :
    ((∃ vj, VehicleJourney.init newId navVj sinceDt untilDt vjStartDt = .ok vj) ↔
      d ≤ untilDt) ∧
    ∀ vj, VehicleJourney.init newId navVj sinceDt untilDt vjStartDt = .ok vj →
      vj.startTimestamp = d := by
  rw [hd.unique (isLeast_startsFrom sinceDt t), VehicleJourney.init,
    computeStartTimestamp_of_startTime hstart]
  by_cases huntil : untilDt < DayClock.next day sinceDt t.micros
  · rw [if_pos huntil]
    exact ⟨iff_of_false (fun ⟨_, h⟩ => nomatch h) (Int.not_le.2 huntil),
      fun _ h => nomatch h⟩
  · rw [if_neg huntil]
    refine ⟨iff_of_true ⟨_, rfl⟩ (Int.not_lt.1 huntil), fun vj h => ?_⟩
    cases h
    rfl

/-- The periods that tell the circulation of a given start. -/
theorem init_eq_ok_iff
    (hstart : navVj.startTime = some (Datetime.time s)) :
    (∃ vj, VehicleJourney.init newId navVj sinceDt untilDt vjStartDt = .ok vj ∧
      vj.startTimestamp = s) ↔
      sinceDt ≤ s ∧ s - sinceDt < day ∧ s ≤ untilDt := by
  rw [← computeStartTimestamp_eq_ok_iff hstart, VehicleJourney.init]
  cases computeStartTimestamp navVj sinceDt untilDt vjStartDt with
  | error e =>
      exact iff_of_false (fun ⟨_, h, _⟩ => nomatch h) (fun h => nomatch h)
  | ok start =>
      constructor
      · rintro ⟨vj, h, rfl⟩
        cases h
        rfl
      · intro h
        cases h
        exact ⟨_, rfl, rfl⟩

end Period

/--
Navitia answers the searches of a train, one of them with a vehicle journey that
is the only one of its identifier.
-/
structure AnswersWith (services : Services) (trainNumbers : String)
    (sinceDt untilDt : Datetime) (navVj : NavVj) : Prop where
  answers : ∀ n ∈ headsigns trainNumbers, ∃ vjs,
    services.vehicleJourneys n sinceDt untilDt = .ok vjs ∧
    ∀ v ∈ vjs, v.id = navVj.id → v = navVj
  answered : ∃ n ∈ headsigns trainNumbers, ∃ vjs,
    services.vehicleJourneys n sinceDt untilDt = .ok vjs ∧ navVj ∈ vjs

section Search

variable {services : Services} {newId : String → String} {trainNumbers : String}
variable {navVj : NavVj} {vjStart vjEnd : Datetime}

/-- The vehicle journeys that are kept once one more is constructed. -/
def keepVj (newId : String → String) (vjStart vjEnd : Datetime)
    (vjs : List FoundVj) (v : NavVj) : List FoundVj :=
  match VehicleJourney.init (newId v.id) v (vjStart - sncfSearchMargin)
      (vjEnd + sncfSearchMargin) (some vjStart) with
  | .ok vj => putVj vjs { navVj := v, vj := vj }
  | .error _ => vjs

/-- What is kept has been constructed in the period of the feed. -/
def Constructed (newId : String → String) (vjStart vjEnd : Datetime)
    (f : FoundVj) : Prop :=
  VehicleJourney.init (newId f.navVj.id) f.navVj (vjStart - sncfSearchMargin)
    (vjEnd + sncfSearchMargin) (some vjStart) = .ok f.vj

theorem noneConstructed
    (newId : String → String) (vjStart vjEnd : Datetime) :
    ∀ f ∈ ([] : List FoundVj), Constructed newId vjStart vjEnd f :=
  fun _ hf => absurd hf List.not_mem_nil

theorem keepVj_constructed
    {vjs : List FoundVj} (h : ∀ f ∈ vjs, Constructed newId vjStart vjEnd f)
    (v : NavVj) :
    ∀ f ∈ keepVj newId vjStart vjEnd vjs v, Constructed newId vjStart vjEnd f := by
  unfold keepVj
  split
  · rename_i vj hinit
    intro f hf
    rcases mem_putVj_or hf with hold | rfl
    · exact h f hold
    · exact hinit
  · exact h

/-- A vehicle journey that has been constructed stays kept. -/
theorem mem_keepVj
    {vjs : List FoundVj} {f : FoundVj} {v : NavVj}
    (hconstructed : Constructed newId vjStart vjEnd f)
    (hid : v.id = f.navVj.id → v = f.navVj) (h : f ∈ vjs ∨ v = f.navVj) :
    f ∈ keepVj newId vjStart vjEnd vjs v := by
  by_cases hv : v = f.navVj
  · subst hv
    rw [Constructed] at hconstructed
    rw [keepVj, hconstructed]
    exact mem_putVj_self vjs f
  · have hmem : f ∈ vjs := h.resolve_right hv
    unfold keepVj
    split
    · exact mem_putVj_of_ne hmem (fun heq => hv (hid heq.symm))
    · exact hmem

theorem foldl_keepVj
    {f : FoundVj} (hconstructed : Constructed newId vjStart vjEnd f)
    {vs : List NavVj} (hid : ∀ v ∈ vs, v.id = f.navVj.id → v = f.navVj)
    {vjs : List FoundVj} (h : f ∈ vjs ∨ f.navVj ∈ vs) :
    f ∈ vs.foldl (keepVj newId vjStart vjEnd) vjs := by
  induction vs generalizing vjs with
  | nil =>
      exact h.resolve_right List.not_mem_nil
  | cons v vs ih =>
      rw [List.forall_mem_cons] at hid
      refine ih hid.2 ?_
      rcases h with hold | hnew
      · exact Or.inl (mem_keepVj hconstructed hid.1 (Or.inl hold))
      · rcases List.mem_cons.1 hnew with rfl | hnew
        · exact Or.inl (mem_keepVj hconstructed hid.1 (Or.inr rfl))
        · exact Or.inr hnew

/-- One turn of the search: the answer for one number of the train. -/
def searchNumber (services : Services) (newId : String → String)
    (vjStart vjEnd : Datetime) (vjs : List FoundVj) (trainNumber : String) :
    Except PyException (List FoundVj) := do
  let navitiaVjs ←
    candidateVjs services trainNumber (vjStart - sncfSearchMargin)
      (vjEnd + sncfSearchMargin) .notAdded
  return navitiaVjs.foldl (keepVj newId vjStart vjEnd) vjs

theorem searchNumber_of_answer
    {vjs : List FoundVj} {n : String} {vs : List NavVj}
    (h : services.vehicleJourneys n (vjStart - sncfSearchMargin)
      (vjEnd + sncfSearchMargin) = .ok vs) :
    searchNumber services newId vjStart vjEnd vjs n =
      .ok (vs.foldl (keepVj newId vjStart vjEnd) vjs) := by
  simp [searchNumber, candidateVjs, h, bind, Except.bind, pure, Except.pure]

/-- The search of a train in navitia, as its turns. -/
theorem getNavitiaVjs_notAdded_eq
    (services : Services) (newId : String → String) (trainNumbers : String)
    (vjStart vjEnd : Datetime) :
    getNavitiaVjs services newId trainNumbers (some vjStart) (some vjEnd)
        .notAdded =
      ((headsigns trainNumbers).foldlM
        (searchNumber services newId vjStart vjEnd) []) >>= fun vjs =>
      if vjs.isEmpty then
        .error (.objectNotFound ("no train found for headsign(s) " ++ trainNumbers))
      else .ok vjs :=
  rfl

/-- The turns keep the vehicle journey that is answered, once constructed. -/
theorem foldlM_searchNumber
    {numbers : List String}
    (hanswers : ∀ n ∈ numbers, ∃ vs,
      services.vehicleJourneys n (vjStart - sncfSearchMargin)
        (vjEnd + sncfSearchMargin) = .ok vs ∧
      ∀ v ∈ vs, v.id = navVj.id → v = navVj)
    {vjs : List FoundVj} (hvjs : ∀ f ∈ vjs, Constructed newId vjStart vjEnd f) :
    ∃ vjs', numbers.foldlM (searchNumber services newId vjStart vjEnd) vjs =
        .ok vjs' ∧
      (∀ f ∈ vjs', Constructed newId vjStart vjEnd f) ∧
      ∀ f, f.navVj = navVj → Constructed newId vjStart vjEnd f →
        (f ∈ vjs ∨ ∃ n ∈ numbers, ∃ vs,
          services.vehicleJourneys n (vjStart - sncfSearchMargin)
            (vjEnd + sncfSearchMargin) = .ok vs ∧ navVj ∈ vs) →
        f ∈ vjs' := by
  induction numbers generalizing vjs with
  | nil =>
      refine ⟨vjs, rfl, hvjs, ?_⟩
      rintro f - - (hf | ⟨n, hn, -⟩)
      · exact hf
      · exact absurd hn List.not_mem_nil
  | cons n numbers ih =>
      rw [List.forall_mem_cons] at hanswers
      obtain ⟨⟨vs, hvs, hid⟩, hrest⟩ := hanswers
      have hnext : ∀ f ∈ vs.foldl (keepVj newId vjStart vjEnd) vjs,
          Constructed newId vjStart vjEnd f :=
        List.foldlRecOn
          (motive := fun vjs => ∀ f ∈ vjs, Constructed newId vjStart vjEnd f)
          vs _ hvjs (fun _ h v _ => keepVj_constructed h v)
      obtain ⟨vjs', hfold, hall, hkept⟩ := ih hrest hnext
      refine ⟨vjs', ?_, hall, ?_⟩
      · rw [List.foldlM_cons, searchNumber_of_answer hvs]
        exact hfold
      · intro f hf hconstructed h
        refine hkept f hf hconstructed ?_
        have hid' : ∀ v ∈ vs, v.id = f.navVj.id → v = f.navVj := by
          rw [hf]
          exact hid
        rcases h with hold | ⟨n', hn', vs', hvs', hmem⟩
        · exact Or.inl (foldl_keepVj hconstructed hid' (Or.inl hold))
        · rcases List.mem_cons.1 hn' with rfl | hn'
          · rw [hvs, Except.ok.injEq] at hvs'
            subst hvs'
            exact Or.inl (foldl_keepVj hconstructed hid' (Or.inr (hf ▸ hmem)))
          · exact Or.inr ⟨n', hn', vs', hvs', hmem⟩

/-- A feed finds the circulation that the constructor makes in its period. -/
theorem getNavitiaVjs_finds_iff
    (hanswers : AnswersWith services trainNumbers (vjStart - sncfSearchMargin)
      (vjEnd + sncfSearchMargin) navVj) {s : Datetime} :
    (∃ vjs, getNavitiaVjs services newId trainNumbers (some vjStart)
        (some vjEnd) .notAdded = .ok vjs ∧
      ∃ f ∈ vjs, f.navVj = navVj ∧ f.vj.startTimestamp = s) ↔
      ∃ vj, VehicleJourney.init (newId navVj.id) navVj
        (vjStart - sncfSearchMargin) (vjEnd + sncfSearchMargin)
        (some vjStart) = .ok vj ∧ vj.startTimestamp = s := by
  obtain ⟨vjs, hfold, hall, hkept⟩ :=
    foldlM_searchNumber hanswers.answers
      (noneConstructed newId vjStart vjEnd)
  have hsearch : getNavitiaVjs services newId trainNumbers (some vjStart)
      (some vjEnd) .notAdded =
        if vjs.isEmpty then
          .error (.objectNotFound
            ("no train found for headsign(s) " ++ trainNumbers))
        else .ok vjs := by
    rw [getNavitiaVjs_notAdded_eq, hfold]
    rfl
  constructor
  · rintro ⟨vjs', hfound, f, hf, rfl, rfl⟩
    rw [hsearch] at hfound
    split at hfound
    · cases hfound
    · cases hfound
      exact ⟨f.vj, hall f hf, rfl⟩
  · rintro ⟨vj, hinit, rfl⟩
    have hf : { navVj := navVj, vj := vj } ∈ vjs :=
      hkept _ rfl hinit (Or.inr hanswers.answered)
    refine ⟨vjs, ?_, _, hf, rfl, rfl⟩
    have hempty : vjs.isEmpty = false := by
      cases vjs with
      | nil =>
          exact absurd hf List.not_mem_nil
      | cons f vjs =>
          rfl
    rw [hsearch, hempty]
    rfl

end Search

/--
What a period tells of a vehicle journey that starts at some time of day: the
first start it contains; the same start in two periods shorter than a day that
contain it; and the circulation near which a feed starts, unless it starts more
than an hour after the feed ends.
-/
structure Identified (navVj : NavVj) (t : TimeOfDay) : Prop where
  firstStart : ∀ newId sinceDt untilDt vjStartDt,
    ∃ d, IsLeast (startsFrom sinceDt t) d ∧
      ((∃ vj, VehicleJourney.init newId navVj sinceDt untilDt vjStartDt = .ok vj) ↔
        d ≤ untilDt) ∧
      ∀ vj, VehicleJourney.init newId navVj sinceDt untilDt vjStartDt = .ok vj →
        vj.startTimestamp = d
  sameStart : ∀ newId sinceDt untilDt vjStartDt newId' sinceDt' untilDt' vjStartDt' s,
    Datetime.time s = t →
    untilDt - sinceDt < day → sinceDt ≤ s → s ≤ untilDt →
    untilDt' - sinceDt' < day → sinceDt' ≤ s → s ≤ untilDt' →
    ∃ vj vj',
      VehicleJourney.init newId navVj sinceDt untilDt vjStartDt = .ok vj ∧
      VehicleJourney.init newId' navVj sinceDt' untilDt' vjStartDt' = .ok vj' ∧
      vj.startTimestamp = s ∧ vj'.startTimestamp = s
  feedStart : ∀ services newId trainNumbers pdps vjStart vjEnd s,
    Datetime.time s = t →
    getFirstStopDatetime pdps .departure true = .ok (some vjStart) →
    getFirstStopDatetime pdps.reverse .arrival true = .ok (some vjEnd) →
    s - 3600 * second ≤ vjStart → vjStart ≤ s + 3600 * second →
    AnswersWith services trainNumbers (vjStart - sncfSearchMargin)
      (vjEnd + sncfSearchMargin) navVj →
    ((∃ vjs, getVjs services newId trainNumbers pdps .notAdded = .ok vjs ∧
      ∃ f ∈ vjs, f.navVj = navVj ∧ f.vj.startTimestamp = s) ↔
      s ≤ vjEnd + 3600 * second)

/-- The period of a feed begins less than a day before a start near its own. -/
theorem feed_period
    {s vjStart h : Int} (hpos : 0 < h) (hfrom : s - h ≤ vjStart)
    (hto : vjStart ≤ s + h) :
    vjStart - h ≤ s ∧ s - (vjStart - h) < 24 * h := by
  omega

/-- A period shorter than a day begins less than a day before what it contains. -/
theorem lt_of_period
    {s since til d : Int} (hshort : til - since < d) (huntil : s ≤ til) :
    s - since < d := by
  omega

/-- A vehicle journey of which navitia gives a first time is identified. -/
theorem identification
    {navVj : NavVj} {t : TimeOfDay} (hstart : navVj.startTime = some t) :
    Identified navVj t := by
  refine ⟨?_, ?_, ?_⟩
  · intro newId sinceDt untilDt vjStartDt
    have hleast := isLeast_startsFrom sinceDt t
    exact ⟨_, hleast, init_of_startTime hstart hleast⟩
  · rintro newId sinceDt untilDt vjStartDt newId' sinceDt' untilDt' vjStartDt' s
      rfl hshort hsince huntil hshort' hsince' huntil'
    obtain ⟨vj, hvj, hs⟩ := (init_eq_ok_iff hstart).2
      ⟨hsince, lt_of_period hshort huntil, huntil⟩
    obtain ⟨vj', hvj', hs'⟩ := (init_eq_ok_iff hstart).2
      ⟨hsince', lt_of_period hshort' huntil', huntil'⟩
    exact ⟨vj, vj', hvj, hvj', hs, hs'⟩
  · rintro services newId trainNumbers pdps vjStart vjEnd s rfl hfirst hlast hfrom
      hto hanswers
    have hgetVjs : getVjs services newId trainNumbers pdps .notAdded =
        getNavitiaVjs services newId trainNumbers (some vjStart) (some vjEnd)
          .notAdded := by
      simp only [getVjs, decide_true, hfirst, hlast, bind, Except.bind]
    rw [hgetVjs, getNavitiaVjs_finds_iff hanswers, init_eq_ok_iff hstart]
    obtain ⟨hsince, hday⟩ := feed_period (by decide) hfrom hto
    exact ⟨fun h => h.2.2, fun h => ⟨hsince, hday, h⟩⟩

namespace Sample

/-- A vehicle journey that departs from its first stop at eleven. -/
def elevenVj : NavVj where
  id := "vj:1"
  tripId := "trip:1"
  stopTimes :=
    [{ stopPoint := none
       utcArrivalTime := none
       utcDepartureTime := some (Datetime.time (Core.Sample.clock 11 0)) }]

/-- Navitia finds it in every period. -/
def elevenServices : Services :=
  { services with vehicleJourneys := fun _ _ _ => .ok [elevenVj] }

/-- An event at the given time, of which nothing is said. -/
def scheduled (t : Datetime) : TravelerTime where
  isEmpty := false
  dateHeure := some { text := "base", parsed := .ok t }
  statutCirculationOPE := none
  empty := nofun

/-- A train that leaves its only base stop at ten for one that is created. -/
def detour : List Pdp :=
  [{ pdp 0 "a" (Core.Sample.clock 9 50) (Core.Sample.clock 10 0) with
      horaireVoyageurArrivee := some (scheduled (Core.Sample.clock 9 50))
      horaireVoyageurDepart := some (scheduled (Core.Sample.clock 10 0)) },
    pdp 1 "b" (Core.Sample.clock 11 30) (Core.Sample.clock 11 30)]

theorem answersWith_elevenVj
    (sinceDt untilDt : Datetime) :
    AnswersWith elevenServices "1" sinceDt untilDt elevenVj where
  answers := by
    intro n _
    refine ⟨[elevenVj], rfl, fun v hv _ => ?_⟩
    exact List.mem_singleton.1 hv
  answered := ⟨"1", by decide, [elevenVj], rfl, List.mem_cons_self⟩

end Sample

/-- A vehicle journey that starts at eleven is identified. -/
theorem identification_eleven :
    Identified Sample.elevenVj (Datetime.time (Core.Sample.clock 11 0)) :=
  identification (by decide)

/--
A feed whose only base stop is left at ten, where the train has arrived at ten to
ten, does not identify the circulation that starts at eleven.
-/
theorem circulation_lost_detour :
    Sample.elevenVj.startTime =
        some (Datetime.time (Core.Sample.clock 11 0)) ∧
      getFirstStopDatetime Sample.detour .departure true =
        .ok (some (Core.Sample.clock 10 0)) ∧
      getFirstStopDatetime Sample.detour.reverse .arrival true =
        .ok (some (Core.Sample.clock 9 50)) ∧
      Core.Sample.clock 11 0 - 3600 * second ≤ Core.Sample.clock 10 0 ∧
      Core.Sample.clock 10 0 ≤ Core.Sample.clock 11 0 + 3600 * second ∧
      AnswersWith Sample.elevenServices "1"
        (Core.Sample.clock 10 0 - sncfSearchMargin)
        (Core.Sample.clock 9 50 + sncfSearchMargin) Sample.elevenVj ∧
      ¬∃ vjs, getVjs Sample.elevenServices id "1" Sample.detour .notAdded =
          .ok vjs ∧
        ∃ f ∈ vjs, f.navVj = Sample.elevenVj ∧
          f.vj.startTimestamp = Core.Sample.clock 11 0 := by
  have hlost : getVjs Sample.elevenServices id "1" Sample.detour .notAdded =
      .error (.objectNotFound "no train found for headsign(s) 1") := by
    decide
  refine ⟨by decide, by decide, by decide, by decide, by decide,
    Sample.answersWith_elevenVj _ _, ?_⟩
  rintro ⟨vjs, h, -⟩
  rw [hlost] at h
  cases h

end Cots
end Kirin
