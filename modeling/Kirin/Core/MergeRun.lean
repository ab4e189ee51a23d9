import Kirin.Core.StopTimeRules

/-!
# Kirin: the loop of the merge as a run over the feed

When the feed says something about every stop the loop goes through, the stored
trip update is read in two places only: to decide whether something has
changed, and to reuse a stored stop that is equal to the new one anyway.  The
list of stops and the calendar therefore depend on the feed alone.

* `mergeLoop_eq`: the loop computes `tryTurns`, which does not mention the
  stored trip update; only the change flag depends on it.
* `tryTurns_ok`, `tryTurns_of_delays`: a run that does not raise is the total
  function `turns`, and it does not raise when updates carry their delays.
* `mem_yieldNextStopFrom`: the stops of a complete feed that the loop goes through.
* `yieldNextStopFrom_cons`: what a complete feed does at one of its stops.
* `completeFeed_resolves`: a complete feed that does not raise says something
  about every stop the loop goes through.
-/

namespace Kirin
namespace Core

/-- A stop to go through about which the feed says something. -/
structure FeedStop where
  order : Nat
  navitiaStop : StopTime
  stopPoint : StopPoint
  newSt : StopTimeUpdate

namespace FeedStop

/-- The stop the loop goes through, with the information of the feed on it. -/
structure Resolves
    (new : NewTripUpdate)
    (next : Except PyException (Nat × StopTime))
    (f : FeedStop) : Prop where
  next_eq : next = .ok (f.order, f.navitiaStop)
  stopPoint_eq : f.navitiaStop.stopPoint = some f.stopPoint
  newSt_eq : new.findStop (some f.stopPoint.id) f.order = some f.newSt

/-- One event of the stop, as the calendar sees it. -/
def event (f : FeedStop) (e : StopEvent) (c : Calendar) :
    Option Datetime × Calendar :=
  c.stopEvent (!f.newSt.isStopEventDeleted e) (f.navitiaStop.utcTime e)
    ((f.newSt.getStopEventDelay e).getD 0)

def baseArrival (f : FeedStop) (c : Calendar) : Option Datetime :=
  (f.event .arrival c).1

def baseDeparture (f : FeedStop) (c : Calendar) : Option Datetime :=
  (f.event .departure (f.event .arrival c).2).1

/-- The calendar after both events of the stop. -/
def nextCalendar (f : FeedStop) (c : Calendar) : Calendar :=
  (f.event .departure (f.event .arrival c).2).2

/-- The merged stop whose stop time update is given. -/
def merged (f : FeedStop) (c : Calendar) (resSt : StopTimeUpdate) :
    MergedStop where
  navOrder := f.order
  navitiaStop := f.navitiaStop
  newSt := some f.newSt
  baseArrival := f.baseArrival c
  baseDeparture := f.baseDeparture c
  resSt := resSt

/-- The stop time update recorded for the stop. -/
def recorded (f : FeedStop) (c : Calendar) (last : Option Datetime) :
    StopTimeUpdate :=
  builtStop (f.baseArrival c) (f.baseDeparture c) last f.newSt f.stopPoint
    f.order

/-- One turn over the stop. -/
def turn (f : FeedStop) (c : Calendar) (last : Option Datetime) : MergedStop :=
  f.merged c (f.recorded c last)

end FeedStop

open FeedStop

/-- The run over the stops of a feed, when no push fails. -/
def turns : Calendar → Option Datetime → List FeedStop → List MergedStop
  | _, _, [] => []
  | c, last, f :: fs =>
      f.turn c last :: turns (f.nextCalendar c) (f.recorded c last).departure fs

/-- The run over the stops of a feed. -/
def tryTurns :
    Calendar → Option Datetime → List FeedStop →
    Except PyException (List MergedStop)
  | _, _, [] => .ok []
  | c, last, f :: fs => do
      let resSt ←
        makeStopTimeUpdate (f.baseArrival c) (f.baseDeparture c) last f.newSt
          f.stopPoint f.order
      let stops ← tryTurns (f.nextCalendar c) resSt.departure fs
      return f.merged c resSt :: stops

/-- Whether a merged stop differs from the stored one. -/
def changes (db : Option TripUpdate) (m : MergedStop) : Bool :=
  match db with
  | none => true
  | some db => db.findStop m.navitiaStop.stopId m.navOrder != some m.resSt

theorem tryTurns_ok
    {c : Calendar} {last : Option Datetime} {fs : List FeedStop}
    {stops : List MergedStop}
    (h : tryTurns c last fs = .ok stops) :
    stops = turns c last fs := by
  induction fs generalizing c last stops with
  | nil =>
      cases h
      rfl
  | cons f fs ih =>
      obtain ⟨resSt, hres, htail⟩ := Checked.bind_eq_ok.1 h
      obtain ⟨rest, hrest, hstops⟩ := Checked.bind_eq_ok.1 htail
      rw [Checked.pure_eq_ok] at hstops
      rw [← hstops, ih hrest, makeStopTimeUpdate_ok hres]
      rfl

/-- When updates carry their delays the run never raises. -/
theorem tryTurns_of_delays
    (c : Calendar) (last : Option Datetime) {fs : List FeedStop}
    (h : ∀ f ∈ fs, CarriesDelays f.newSt) :
    tryTurns c last fs = .ok (turns c last fs) := by
  induction fs generalizing c last with
  | nil =>
      rfl
  | cons f fs ih =>
      have hf := h f List.mem_cons_self
      have hfs : ∀ g ∈ fs, CarriesDelays g.newSt :=
        fun g hg => h g (List.mem_cons_of_mem f hg)
      simp only [tryTurns, bind, Except.bind,
        makeStopTimeUpdate_of_delays _ _ _ hf, ih _ _ hfs]
      rfl

/-- The stop kept by the loop is the one the feed gives, whatever is stored. -/
theorem chooseStop_eq
    (db : Option TripUpdate) (newSt : StopTimeUpdate) (st : MergeState)
    (navOrder : Nat) (navitiaStop : StopTime)
    (ba bd : Option Datetime) {sp : StopPoint}
    (hsp : navitiaStop.stopPoint = some sp) :
    chooseStop db (some newSt) st navOrder navitiaStop ba bd =
      (makeStopTimeUpdate ba bd st.lastDeparture newSt sp navOrder).map
        (fun resSt =>
          (resSt, st.hasChanges ||
            match db with
            | none => true
            | some db =>
                db.findStop navitiaStop.stopId navOrder != some resSt)) := by
  have hget : navitiaStop.getStopPoint = .ok sp := by
    simp [StopTime.getStopPoint, hsp]
  cases hmake :
      makeStopTimeUpdate ba bd st.lastDeparture newSt sp navOrder with
  | error e =>
      cases db <;>
        simp [chooseStop, hget, hmake, bind, Except.bind, Except.map]
  | ok resSt =>
      have hmessage : resSt.message = newSt.message := by
        rw [makeStopTimeUpdate_ok hmake]
        rfl
      cases db with
      | none =>
          simp [chooseStop, hget, hmake, bind, Except.bind, pure, Except.pure,
            Except.map, ← hmessage]
      | some db =>
          simp only [chooseStop, hget, hmake, bind, Except.bind, pure,
            Except.pure, Except.map]
          cases hfind : db.findStop navitiaStop.stopId navOrder with
          | none =>
              simp
          | some dbSt =>
              cases hflag : st.hasChanges with
              | true =>
                  simp
              | false =>
                  cases hne : dbSt.isNotEqual resSt with
                  | true =>
                      have hdiff := (StopTimeUpdate.isNotEqual_eq_true_iff
                        dbSt resSt).1 hne
                      simp [hdiff]
                  | false =>
                      have heq := (StopTimeUpdate.isNotEqual_eq_false_iff
                        dbSt resSt).1 hne
                      simp [heq]

theorem mergeStop_eq
    (db : Option TripUpdate) {new : NewTripUpdate} (st : MergeState)
    {next : Except PyException (Nat × StopTime)} {f : FeedStop}
    (h : Resolves new next f) :
    mergeStop db new st f.order f.navitiaStop =
      (makeStopTimeUpdate (f.baseArrival st.calendar)
          (f.baseDeparture st.calendar) st.lastDeparture f.newSt f.stopPoint
          f.order).map
        (fun resSt =>
          (f.merged st.calendar resSt,
            { hasChanges :=
                st.hasChanges || changes db (f.merged st.calendar resSt)
              calendar := f.nextCalendar st.calendar
              lastDeparture := resSt.departure })) := by
  have hid : f.navitiaStop.stopId = some f.stopPoint.id := by
    simp [StopTime.stopId, h.stopPoint_eq]
  have hnew : new.findStop f.navitiaStop.stopId f.order = some f.newSt := by
    rw [hid, h.newSt_eq]
  simp only [mergeStop, hnew, isStopEventServed, chooseStop_eq _ _ _ _ _ _ _
    h.stopPoint_eq, Option.bind_some]
  simp only [bind, Except.bind, pure, Except.pure]
  have hba :
      (st.calendar.stopEvent (!f.newSt.isStopEventDeleted .arrival)
        f.navitiaStop.utcArrivalTime (f.newSt.arrivalDelay.getD 0)) =
      f.event .arrival st.calendar := rfl
  have hbd :
      ((f.event .arrival st.calendar).2.stopEvent
        (!f.newSt.isStopEventDeleted .departure)
        f.navitiaStop.utcDepartureTime (f.newSt.departureDelay.getD 0)) =
      f.event .departure (f.event .arrival st.calendar).2 := rfl
  rw [hba, hbd]
  cases hmake :
      makeStopTimeUpdate (f.event .arrival st.calendar).1
        (f.event .departure (f.event .arrival st.calendar).2).1
        st.lastDeparture f.newSt f.stopPoint f.order with
  | error e =>
      simp [Except.map, FeedStop.baseArrival, FeedStop.baseDeparture, hmake]
  | ok resSt =>
      simp only [Except.map, FeedStop.baseArrival, FeedStop.baseDeparture,
        hmake, FeedStop.merged, FeedStop.nextCalendar, changes]
      cases db <;> rfl

/--
The loop over stops about which the feed says something computes `tryTurns`;
the stored trip update only decides whether something has changed.
-/
theorem mergeLoop_eq
    (db : Option TripUpdate) {new : NewTripUpdate} (st : MergeState)
    {items : List (Except PyException (Nat × StopTime))}
    {fs : List FeedStop}
    (h : List.Forall₂ (Resolves new) items fs) :
    mergeLoop db new st items =
      (tryTurns st.calendar st.lastDeparture fs).map
        (fun stops => (stops, st.hasChanges || stops.any (changes db))) := by
  induction h generalizing st with
  | nil =>
      simp [mergeLoop, tryTurns, Except.map]
  | @cons next f items fs hnext hrest ih =>
      simp only [mergeLoop, hnext.next_eq, bind, Except.bind,
        mergeStop_eq db st hnext, tryTurns]
      cases hmake :
          makeStopTimeUpdate (f.baseArrival st.calendar)
            (f.baseDeparture st.calendar) st.lastDeparture f.newSt f.stopPoint
            f.order with
      | error e =>
          rfl
      | ok resSt =>
          simp only [Except.map, ih]
          cases htry :
              tryTurns (f.nextCalendar st.calendar) resSt.departure fs with
          | error e =>
              rfl
          | ok stops =>
              simp [pure, Except.pure, Bool.or_assoc]

/-- A loop that does not raise has only gone through stops that do not raise. -/
theorem mergeLoop_items_ok
    {db : Option TripUpdate} {new : NewTripUpdate} {st : MergeState}
    {items : List (Except PyException (Nat × StopTime))}
    {r : List MergedStop × Bool}
    (h : mergeLoop db new st items = .ok r) :
    ∀ next ∈ items, ∃ p, next = .ok p := by
  induction items generalizing st r with
  | nil =>
      simp
  | cons next items ih =>
      obtain ⟨p, hp, hturn⟩ := Checked.bind_eq_ok.1 h
      obtain ⟨_, _, htail⟩ := Checked.bind_eq_ok.1 hturn
      obtain ⟨_, hrest, _⟩ := Checked.bind_eq_ok.1 htail
      rw [List.forall_mem_cons]
      exact ⟨⟨p, hp⟩, ih hrest⟩

/-- The departure before a place of the list, an initial one being given. -/
def departureBefore
    (last : Option Datetime) (stus : List StopTimeUpdate) :
    Nat → Option Datetime
  | 0 => last
  | i + 1 => stus[i]?.bind StopTimeUpdate.departure

/-- Each place of a run is one turn over the stop at this place. -/
theorem turns_getElem?
    (c : Calendar) (last : Option Datetime) {fs : List FeedStop}
    {i : Nat} {f : FeedStop} (h : fs[i]? = some f) :
    ∃ c', (turns c last fs)[i]? =
      some (f.turn c' (departureBefore last
        ((turns c last fs).map MergedStop.resSt) i)) := by
  induction fs generalizing c last i with
  | nil =>
      simp at h
  | cons g fs ih =>
      cases i with
      | zero =>
          simp only [List.getElem?_cons_zero, Option.some.injEq] at h
          subst h
          exact ⟨c, rfl⟩
      | succ i =>
          rw [List.getElem?_cons_succ] at h
          obtain ⟨c', hc'⟩ :=
            ih (g.nextCalendar c) (g.recorded c last).departure h
          refine ⟨c', ?_⟩
          rw [turns, List.getElem?_cons_succ, hc']
          cases i <;> rfl

@[simp] theorem turns_length
    (c : Calendar) (last : Option Datetime) (fs : List FeedStop) :
    (turns c last fs).length = fs.length := by
  induction fs generalizing c last with
  | nil =>
      rfl
  | cons f fs ih =>
      simp [turns, ih]

/-- The recorded stops keep the orders of the stops gone through. -/
theorem turns_orders
    (c : Calendar) (last : Option Datetime) (fs : List FeedStop) :
    ((turns c last fs).map MergedStop.resSt).map StopTimeUpdate.order =
      fs.map FeedStop.order := by
  induction fs generalizing c last with
  | nil =>
      rfl
  | cons f fs ih =>
      simp only [turns, List.map_cons, ih]
      rfl

section CompleteFeed

variable {db : Option TripUpdate} {new : NewTripUpdate}

theorem findStInVj_stopId
    {id : String} {vjSts : List StopTime} {s : StopTime}
    (h : findStInVj id vjSts = some s) :
    s.stopId = some id := by
  have hmatch := List.find?_some h
  simpa using hmatch

/-- A fake stop time is at the stop of the feed. -/
theorem makeFakeRealtimeStopTime_stopId
    {order : Nat} {spId : String} {newStu : StopTimeUpdate} {s : StopTime}
    (h : makeFakeRealtimeStopTime order spId newStu db = .ok s) :
    s.stopId = some newStu.stopId := by
  obtain ⟨_, _, htimes⟩ := Checked.bind_eq_ok.1 h
  obtain ⟨_, _, hutc⟩ := Checked.bind_eq_ok.1 htimes
  obtain ⟨_, _, hs⟩ := Checked.bind_eq_ok.1 hutc
  rw [Checked.pure_eq_ok] at hs
  rw [← hs]
  rfl

/-- What is at the start of a list without its first elements. -/
theorem drop_eq_cons
    {α : Type} {l rest : List α} {j : Nat} {x : α}
    (h : l.drop j = x :: rest) :
    l[j]? = some x ∧ l.drop (j + 1) = rest := by
  constructor
  · rw [← List.head?_drop, h]
    rfl
  · rw [← List.drop_drop, h]
    rfl

/-- A stop at the place of a feed's own stop is resolved to it. -/
theorem resolves_of_stopId
    (hindexed : Indexed new.stopTimeUpdates)
    {k : Nat} {newSt : StopTimeUpdate} {s : StopTime}
    (hget : new.stopTimeUpdates[k]? = some newSt)
    (hid : s.stopId = some newSt.stopId) :
    ∃ f : FeedStop, Resolves new (.ok (k, s)) f ∧
      f.order = k ∧ f.newSt = newSt ∧ f.stopPoint.id = newSt.stopId := by
  obtain ⟨sp, hsp, hspid⟩ := Option.map_eq_some_iff.1 hid
  obtain ⟨hk, hnewSt⟩ := List.getElem?_eq_some_iff.1 hget
  refine ⟨⟨k, s, sp, newSt⟩, ⟨rfl, hsp, ?_⟩, rfl, rfl, hspid⟩
  have hfind := hindexed.findStopIn_getElem k hk
  rw [hnewSt, ← hspid] at hfind
  exact hfind

/-- What the stops resolved in a complete feed satisfy, from an index on. -/
structure InFeed (new : NewTripUpdate) (j : Nat) (fs : List FeedStop) :
    Prop where
  from_le : ∀ f ∈ fs, j ≤ f.order
  newSt_eq : ∀ f ∈ fs, new.stopTimeUpdates[f.order]? = some f.newSt
  stopId_eq : ∀ f ∈ fs, f.stopPoint.id = f.newSt.stopId
  increasing : fs.Pairwise (fun f g => f.order < g.order)

theorem InFeed.nil
    (j : Nat) :
    InFeed new j [] := by
  constructor <;> simp

theorem InFeed.skip
    {j : Nat} {fs : List FeedStop} (h : InFeed new (j + 1) fs) :
    InFeed new j fs where
  from_le := fun f hf => Nat.le_of_succ_le (h.from_le f hf)
  newSt_eq := h.newSt_eq
  stopId_eq := h.stopId_eq
  increasing := h.increasing

theorem InFeed.cons
    {j : Nat} {f : FeedStop} {fs : List FeedStop}
    (h : InFeed new (j + 1) fs) (horder : f.order = j)
    (hnew : new.stopTimeUpdates[j]? = some f.newSt)
    (hid : f.stopPoint.id = f.newSt.stopId) :
    InFeed new j (f :: fs) where
  from_le := by
    rw [List.forall_mem_cons]
    exact ⟨horder.ge, h.skip.from_le⟩
  newSt_eq := by
    rw [List.forall_mem_cons, horder]
    exact ⟨hnew, h.newSt_eq⟩
  stopId_eq := by
    rw [List.forall_mem_cons]
    exact ⟨hid, h.stopId_eq⟩
  increasing := by
    rw [List.pairwise_cons]
    refine ⟨fun g hg => ?_, h.increasing⟩
    have := h.from_le g hg
    omega

/-- Whether the loop goes through a stop that the vehicle journey lacks. -/
def isKept
    (db : Option TripUpdate) (order : Nat) (newStu : StopTimeUpdate) : Bool :=
  isNewStopEventValid .arrival newStu.stopId order none db newStu
    || isNewStopEventValid .departure newStu.stopId order none db newStu

/-- The loop at a stop of the vehicle journey. -/
theorem yieldNextStopFrom_found
    {db : Option TripUpdate} {vjSts : List StopTime} {j : Nat}
    {newStu : StopTimeUpdate} {rest : List StopTimeUpdate} {vjSt : StopTime}
    (hvj : findStInVj newStu.stopId vjSts = some vjSt) :
    yieldNextStopFrom db vjSts j (newStu :: rest) =
      .ok (j, vjSt) :: yieldNextStopFrom db vjSts (j + 1) rest := by
  simp [yieldNextStopFrom, hvj]

/-- The loop at a stop outside the vehicle journey that is kept. -/
theorem yieldNextStopFrom_kept
    {db : Option TripUpdate} {vjSts : List StopTime} {j : Nat}
    {newStu : StopTimeUpdate} {rest : List StopTimeUpdate}
    (hvj : findStInVj newStu.stopId vjSts = none)
    (hkept : isKept db j newStu = true) :
    yieldNextStopFrom db vjSts j (newStu :: rest) =
      (makeFakeRealtimeStopTime j newStu.stopId newStu db).map
          (fun fake => (j, fake)) ::
        yieldNextStopFrom db vjSts (j + 1) rest := by
  unfold isKept at hkept
  simp only [yieldNextStopFrom, hvj, if_pos hkept, bind, Except.bind, pure,
    Except.pure]
  cases makeFakeRealtimeStopTime j newStu.stopId newStu db <;> rfl

/-- The loop at a stop outside the vehicle journey that is dropped. -/
theorem yieldNextStopFrom_dropped
    {db : Option TripUpdate} {vjSts : List StopTime} {j : Nat}
    {newStu : StopTimeUpdate} {rest : List StopTimeUpdate}
    (hvj : findStInVj newStu.stopId vjSts = none)
    (hkept : isKept db j newStu = false) :
    yieldNextStopFrom db vjSts j (newStu :: rest) =
      yieldNextStopFrom db vjSts (j + 1) rest := by
  unfold isKept at hkept
  simp [yieldNextStopFrom, hvj, hkept]

/-- What the loop does at a stop of a complete feed, unless it drops the stop. -/
def NextAt
    (db : Option TripUpdate) (vjSts : List StopTime) (order : Nat)
    (newStu : StopTimeUpdate) (next : Except PyException (Nat × StopTime)) :
    Prop :=
  (∃ vjSt, findStInVj newStu.stopId vjSts = some vjSt ∧
      next = .ok (order, vjSt)) ∨
    findStInVj newStu.stopId vjSts = none ∧ isKept db order newStu = true ∧
      next = (makeFakeRealtimeStopTime order newStu.stopId newStu db).map
        (fun fake => (order, fake))

/-- The loop goes on with one of the stops of the feed. -/
theorem mem_yieldNextStopFrom
    {db : Option TripUpdate} {vjSts : List StopTime} {j : Nat}
    {stus : List StopTimeUpdate} {next : Except PyException (Nat × StopTime)} :
    next ∈ yieldNextStopFrom db vjSts j stus ↔
      ∃ i newStu, stus[i]? = some newStu ∧
        NextAt db vjSts (j + i) newStu next := by
  induction stus generalizing j with
  | nil =>
      simp [yieldNextStopFrom]
  | cons newStu rest ih =>
      have hcons : (∃ i newStu', (newStu :: rest)[i]? = some newStu' ∧
            NextAt db vjSts (j + i) newStu' next) ↔
          NextAt db vjSts j newStu next ∨
            next ∈ yieldNextStopFrom db vjSts (j + 1) rest := by
        rw [ih, ← Nat.or_exists_add_one]
        simp [Nat.add_right_comm j 1, Nat.add_assoc]
      rw [hcons, NextAt]
      cases hvj : findStInVj newStu.stopId vjSts with
      | some vjSt =>
          rw [yieldNextStopFrom_found hvj, List.mem_cons]
          simp
      | none =>
          cases hkept : isKept db j newStu with
          | true =>
              rw [yieldNextStopFrom_kept hvj hkept, List.mem_cons]
              simp
          | false =>
              rw [yieldNextStopFrom_dropped hvj hkept]
              simp

/--
When nothing is raised the loop goes on, through a stop of this identifier or
leaving it out.
-/
theorem yieldNextStopFrom_cons
    {db : Option TripUpdate} {vjSts : List StopTime} {j : Nat}
    {newStu : StopTimeUpdate} {rest : List StopTimeUpdate}
    (hok : ∀ next ∈ yieldNextStopFrom db vjSts j (newStu :: rest),
      ∃ p, next = .ok p) :
    (∀ next ∈ yieldNextStopFrom db vjSts (j + 1) rest, ∃ p, next = .ok p) ∧
      (((findStInVj newStu.stopId vjSts).isSome || isKept db j newStu) = true ∧
        (∃ s : StopTime, s.stopId = some newStu.stopId ∧
          yieldNextStopFrom db vjSts j (newStu :: rest) =
            .ok (j, s) :: yieldNextStopFrom db vjSts (j + 1) rest) ∨
      ((findStInVj newStu.stopId vjSts).isSome || isKept db j newStu) = false ∧
        yieldNextStopFrom db vjSts j (newStu :: rest) =
          yieldNextStopFrom db vjSts (j + 1) rest) := by
  cases hvj : findStInVj newStu.stopId vjSts with
  | some vjSt =>
      rw [yieldNextStopFrom_found hvj] at hok ⊢
      rw [List.forall_mem_cons] at hok
      exact ⟨hok.2, Or.inl ⟨rfl, vjSt, findStInVj_stopId hvj, rfl⟩⟩
  | none =>
      cases hkept : isKept db j newStu with
      | true =>
          rw [yieldNextStopFrom_kept hvj hkept] at hok ⊢
          rw [List.forall_mem_cons] at hok
          obtain ⟨⟨p, hp⟩, hokRest⟩ := hok
          cases hfake : makeFakeRealtimeStopTime j newStu.stopId newStu db with
          | error e =>
              rw [hfake] at hp
              cases hp
          | ok fake =>
              exact ⟨hokRest, Or.inl
                ⟨rfl, fake, makeFakeRealtimeStopTime_stopId hfake, rfl⟩⟩
      | false =>
          rw [yieldNextStopFrom_dropped hvj hkept] at hok ⊢
          exact ⟨hok, Or.inr ⟨rfl, rfl⟩⟩

theorem yieldNextStopFrom_resolves
    (hindexed : Indexed new.stopTimeUpdates) (vjSts : List StopTime)
    {j : Nat} {stus : List StopTimeUpdate}
    (hdrop : new.stopTimeUpdates.drop j = stus)
    (hok : ∀ next ∈ yieldNextStopFrom db vjSts j stus, ∃ p, next = .ok p) :
    ∃ fs, List.Forall₂ (Resolves new) (yieldNextStopFrom db vjSts j stus) fs ∧
      InFeed new j fs := by
  induction stus generalizing j with
  | nil =>
      exact ⟨[], List.Forall₂.nil, InFeed.nil j⟩
  | cons newStu rest ih =>
      obtain ⟨hget, hrest⟩ := drop_eq_cons hdrop
      obtain ⟨hokRest, ⟨-, s, hs, hnext⟩ | ⟨-, hnext⟩⟩ :=
        yieldNextStopFrom_cons hok
      · obtain ⟨f, hf, horder, hnewSt, hspid⟩ :=
          resolves_of_stopId hindexed hget hs
        obtain ⟨fs, hfs, hin⟩ := ih hrest hokRest
        rw [hnext]
        refine ⟨f :: fs, List.Forall₂.cons hf hfs, hin.cons horder ?_ ?_⟩
        · rw [hget, hnewSt]
        · rw [hspid, hnewSt]
      · obtain ⟨fs, hfs, hin⟩ := ih hrest hokRest
        rw [hnext]
        exact ⟨fs, hfs, hin.skip⟩

/--
A complete feed whose loop does not raise says something about every stop the
loop goes through, at the place it has in the feed.
-/
theorem completeFeed_resolves
    (hindexed : Indexed new.stopTimeUpdates) {navitiaVj : NavitiaVj}
    {r : List MergedStop × Bool}
    (h : mergeStops navitiaVj db new true = .ok r) :
    ∃ fs,
      List.Forall₂ (Resolves new) (yieldNextStopFromTripUpdate new db) fs ∧
      InFeed new 0 fs :=
  yieldNextStopFrom_resolves hindexed new.navitiaVj.stopTimes List.drop_zero
    (mergeLoop_items_ok h)

/-- The calendar before the first stop. -/
abbrev startCalendar (vj : VehicleJourney) : Calendar :=
  (initialMergeState vj).calendar

end CompleteFeed

end Core
end Kirin
