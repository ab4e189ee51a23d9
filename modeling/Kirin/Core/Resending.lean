import Kirin.Core.HandleBatch
import Kirin.Core.PublishedStream
import Kirin.Core.ReferenceTimes
import Kirin.Core.SingleTrip

/-!
# Kirin: sending the same trip update again

A stop outside the vehicle journey takes its reference times from the stored
trip when the feed gives none, and is kept or dropped depending on what is
stored.  The stored stops carry their delays, zero when an accepted feed gives
none, and are compared with those of the feed when it comes again.

* `OutsideStable`: the stops outside the vehicle journey are resolved in the
  same way before and after the feed is stored.
* `Resendable`: the condition under which a second sending changes nothing.
* `turns_congr`: runs over stops with the same served times record the same.
* `processTripUpdate_twice`: what a stable feed leaves the second time.
* `outsideStable_of_stored`: a run that is stored as the one before is stable.
* `resending_changes_nothing`: resendable feeds change nothing, and only they do
  among those whose added events give their datetimes.
-/

namespace Kirin
namespace Core

open FeedStop

/-- The feed reduced to the stops the loop goes through. -/
def keptFeed (old : Option TripUpdate) (new : NewTripUpdate) : TripUpdate :=
  { new.toTripUpdate with
    stopTimeUpdates :=
      keptStops old new.navitiaVj.stopTimes 0 new.stopTimeUpdates }

/-- Each added event of a feed gives its datetime. -/
def DatesAdditions (new : NewTripUpdate) : Prop :=
  ∀ st ∈ new.stopTimeUpdates, ∀ e, st.isStopEventAdded e = true →
    (st.getStopEventTime e).isSome

/-- The time of day of one event of the stop that a trip holds at a place. -/
def storedClock (db : Option TripUpdate) (k : Nat) (st : StopTimeUpdate)
    (e : StopEvent) : Option TimeOfDay :=
  (db.bind (fun db => db.findStop (some st.stopId) k)).bind
    (fun o => (o.getStopEventTime e).map Datetime.time)

/-- The events of a stop that are served stay at their times of day. -/
def Unmoved (old : Option TripUpdate) (r : TripUpdate) (k : Nat)
    (st : StopTimeUpdate) : Prop :=
  ∀ e, st.isStopEventDeleted e = false →
    storedClock old k st e = storedClock (some r) k st e

/--
The stops outside the vehicle journey that are kept give their own times, or are
left at those stored for them; the dropped ones are so once the feed is stored.
-/
structure OutsideStable
    (old : Option TripUpdate) (r : TripUpdate) (new : NewTripUpdate) :
    Prop where
  steady : ∀ (k : Nat) (st : StopTimeUpdate),
    new.stopTimeUpdates[k]? = some st →
    findStInVj st.stopId new.navitiaVj.stopTimes = none →
    isKept old k st = true →
    (st.departure.isNone && st.arrival.isNone) = false ∨ Unmoved old r k st
  dropped : ∀ (k : Nat) (st : StopTimeUpdate),
    new.stopTimeUpdates[k]? = some st →
    findStInVj st.stopId new.navitiaVj.stopTimes = none →
    isKept old k st = false →
    isKept (some (keptFeed old new)) k st = false

/--
What the feed leaves resolves it as before: its stops have not changed, or the
stops outside the vehicle journey of a complete feed are stable.
-/
structure Stable
    (b : Builder) (old : Option TripUpdate) (new : NewTripUpdate) :
    Prop where
  fits : FitsBuilder b new
  stops :
    (b.mergeTripUpdates new.navitiaVj old new).returned = .ok false ∨
      ∀ r, storedAfter b old new = some r → b.isNewComplete = true →
        OutsideStable old r new

/--
A second sending changes nothing: the trip is not cancelled, the feed is stable,
and the updates that it stores carry their delays when it is accepted.
-/
structure Resendable
    (b : Builder) (old : Option TripUpdate) (new : NewTripUpdate) :
    Prop where
  status : new.status ≠ .delete
  stable : Stable b old new
  delays : (processTripUpdate b old new).linked = .ok true →
    KeptCarryDelays b old new

section Congruence

/-- Two resolutions of a stop whose served times agree. -/
structure SameTurn (f g : FeedStop) : Prop where
  order : f.order = g.order
  newSt : f.newSt = g.newSt
  stopId : f.stopPoint.id = g.stopPoint.id
  times : ∀ e, f.newSt.isStopEventDeleted e = false →
    f.navitiaStop.utcTime e = g.navitiaStop.utcTime e

theorem SameTurn.event_eq
    {f g : FeedStop} (h : SameTurn f g) (e : StopEvent) (c : Calendar) :
    f.event e c = g.event e c := by
  unfold FeedStop.event
  rw [← h.newSt]
  cases hdeleted : f.newSt.isStopEventDeleted e with
  | true =>
      rfl
  | false =>
      rw [h.times e hdeleted]

theorem SameTurn.recorded_eq
    {f g : FeedStop} (h : SameTurn f g)
    (c : Calendar) (last : Option Datetime) :
    f.recorded c last = g.recorded c last := by
  simp only [FeedStop.recorded, FeedStop.baseArrival, FeedStop.baseDeparture,
    h.event_eq, builtStop, h.newSt, h.order, h.stopId]

/-- Runs over stops whose served times agree record the same stops. -/
theorem turns_congr
    {fs gs : List FeedStop} (h : List.Forall₂ SameTurn fs gs)
    (c : Calendar) (last : Option Datetime) :
    (turns c last fs).map MergedStop.resSt =
      (turns c last gs).map MergedStop.resSt := by
  induction h generalizing c last with
  | nil =>
      rfl
  | @cons f g fs gs hfg _ ih =>
      have hcalendar : f.nextCalendar c = g.nextCalendar c := by
        simp only [FeedStop.nextCalendar, hfg.event_eq]
      have hrecorded := hfg.recorded_eq c last
      simp only [turns, List.map_cons, FeedStop.turn, FeedStop.merged,
        hrecorded, hcalendar, ih]

end Congruence

section Resolution

variable {new : NewTripUpdate}

/-- Two stops resolved at the same place with the same served times. -/
theorem sameTurn_of_resolves
    {k : Nat} {s s' : StopTime} {f g : FeedStop} {fs gs : List FeedStop}
    {newStu : StopTimeUpdate}
    (hf : Resolves new (.ok (k, s)) f) (hfs : Grounded new (f :: fs))
    (hg : Resolves new (.ok (k, s')) g) (hgs : Grounded new (g :: gs))
    (hget : new.stopTimeUpdates[k]? = some newStu)
    (htimes : ∀ e, newStu.isStopEventDeleted e = false →
      s.utcTime e = s'.utcTime e) :
    SameTurn f g := by
  obtain ⟨hforder, hfnav, hfnew, hfid⟩ := resolves_head hf hfs hget
  obtain ⟨hgorder, hgnav, hgnew, hgid⟩ := resolves_head hg hgs hget
  refine ⟨?_, ?_, ?_, fun e he => ?_⟩
  · rw [hforder, hgorder]
  · rw [hfnew, hgnew]
  · rw [hfid, hgid]
  · rw [hfnew] at he
    rw [hfnav, hgnav, htimes e he]

/-- Two fake stop times agree when the feed gives the times of the stop. -/
theorem makeFakeRealtimeStopTime_eq
    {order : Nat} {spId : String} {newStu : StopTimeUpdate}
    (h : (newStu.departure.isNone && newStu.arrival.isNone) = false)
    (db db' : Option TripUpdate) :
    makeFakeRealtimeStopTime order spId newStu db =
      makeFakeRealtimeStopTime order spId newStu db' := by
  have hfake :
      ∀ stu stu' : Option StopTimeUpdate,
        fakeDatetimes stu newStu = fakeDatetimes stu' newStu := by
    intro stu stu'
    cases stu <;> cases stu' <;> simp [fakeDatetimes, h]
  simp only [makeFakeRealtimeStopTime]
  rw [hfake (db.bind fun db => db.findStop (some spId) order)
    (db'.bind fun db => db.findStop (some spId) order)]

/-- A stop that is left at its times has the same reference times once stored. -/
theorem Unmoved.utcTime_eq
    {old : Option TripUpdate} {r : TripUpdate} {k : Nat} {st : StopTimeUpdate}
    (h : Unmoved old r k st)
    (hundated : (st.departure.isNone && st.arrival.isNone) = true)
    {s s' : StopTime}
    (hs : makeFakeRealtimeStopTime k st.stopId st old = .ok s)
    (hs' : makeFakeRealtimeStopTime k st.stopId st (some r) = .ok s')
    {e : StopEvent} (hserved : st.isStopEventDeleted e = false) :
    s.utcTime e = s'.utcTime e := by
  obtain ⟨o, ho, htimes⟩ := makeFakeRealtimeStopTime_stored hundated hs
  obtain ⟨o', ho', htimes'⟩ := makeFakeRealtimeStopTime_stored hundated hs'
  obtain ⟨t, ht, hutc⟩ := htimes e
  obtain ⟨t', ht', hutc'⟩ := htimes' e
  have hclock := h e hserved
  rw [storedClock, storedClock, ho, ho', Option.bind_some, Option.bind_some, ht,
    ht'] at hclock
  rw [hutc, hutc']
  exact hclock

/--
The loops over a feed against two stored trips go through the same stops, at the
same served times, when both keep the same stops with the same reference times.
-/
theorem yieldNextStopFrom_sameTurn
    {db db' : Option TripUpdate} {vjSts : List StopTime} {j : Nat}
    {stus : List StopTimeUpdate} {fs gs : List FeedStop}
    (hdrop : new.stopTimeUpdates.drop j = stus)
    (hkept : ∀ k st, new.stopTimeUpdates[k]? = some st →
      findStInVj st.stopId vjSts = none → isKept db' k st = isKept db k st)
    (href : ∀ k st, new.stopTimeUpdates[k]? = some st →
      findStInVj st.stopId vjSts = none → isKept db k st = true →
      ∀ s s', makeFakeRealtimeStopTime k st.stopId st db = .ok s →
        makeFakeRealtimeStopTime k st.stopId st db' = .ok s' →
        ∀ e, st.isStopEventDeleted e = false → s.utcTime e = s'.utcTime e)
    (hfs : List.Forall₂ (Resolves new) (yieldNextStopFrom db vjSts j stus) fs)
    (hgs : List.Forall₂ (Resolves new) (yieldNextStopFrom db' vjSts j stus) gs)
    (hf : Grounded new fs) (hg : Grounded new gs) :
    List.Forall₂ SameTurn fs gs := by
  induction stus generalizing j fs gs with
  | nil =>
      cases hfs
      cases hgs
      exact List.Forall₂.nil
  | cons newStu rest ih =>
      obtain ⟨hget, hrest⟩ := drop_eq_cons hdrop
      cases hvj : findStInVj newStu.stopId vjSts with
      | some vjSt =>
          rw [yieldNextStopFrom_found hvj] at hfs hgs
          cases hfs with
          | @cons _ f _ fs hff hfs =>
              cases hgs with
              | @cons _ g _ gs hgg hgs =>
                  exact List.Forall₂.cons
                    (sameTurn_of_resolves hff hf hgg hg hget
                      (fun _ _ => rfl))
                    (ih hrest hfs hgs hf.tail hg.tail)
      | none =>
          cases hk : isKept db j newStu with
          | false =>
              have hk' : isKept db' j newStu = false := by
                rw [hkept j newStu hget hvj, hk]
              rw [yieldNextStopFrom_dropped hvj hk] at hfs
              rw [yieldNextStopFrom_dropped hvj hk'] at hgs
              exact ih hrest hfs hgs hf hg
          | true =>
              have hk' : isKept db' j newStu = true := by
                rw [hkept j newStu hget hvj, hk]
              rw [yieldNextStopFrom_kept hvj hk] at hfs
              rw [yieldNextStopFrom_kept hvj hk'] at hgs
              cases hfs with
              | @cons _ f _ fs hff hfs =>
                  cases hgs with
                  | @cons _ g _ gs hgg hgs =>
                      obtain ⟨fake, hfake, hff⟩ := resolves_fake hff
                      obtain ⟨fake', hfake', hgg⟩ := resolves_fake hgg
                      exact List.Forall₂.cons
                        (sameTurn_of_resolves hff hf hgg hg hget
                          (href j newStu hget hvj hk fake fake' hfake hfake'))
                        (ih hrest hfs hgs hf.tail hg.tail)

end Resolution

section Lookup

/-- Two stops that a lookup and a validity check do not tell apart. -/
structure SameStatus (a b : StopTimeUpdate) : Prop where
  stopId : a.stopId = b.stopId
  order : a.order = b.order
  status : ∀ e, a.getStopEventStatus e = b.getStopEventStatus e

theorem findStopIn_rel
    {as bs : List StopTimeUpdate} (h : List.Forall₂ SameStatus as bs)
    (stopId : Option String) (order : Nat) :
    Option.Rel SameStatus
      (findStopIn as stopId order) (findStopIn bs stopId order) := by
  have hexact :
      Option.Rel SameStatus
        (findExact as stopId order) (findExact bs stopId order) :=
    RelatedLists.find?_rel h
      (fun a b hab => by rw [hab.stopId, hab.order])
  have hid :
      Option.Rel SameStatus (findById as stopId) (findById bs stopId) :=
    RelatedLists.find?_rel h (fun a b hab => by rw [hab.stopId])
  unfold findStopIn
  generalize findExact as stopId order = x at hexact ⊢
  generalize findExact bs stopId order = y at hexact ⊢
  cases hexact with
  | none =>
      exact hid
  | some hab =>
      exact Option.Rel.some hab

/-- Validity only depends on the statuses of the stored stops. -/
theorem isKept_congr
    {old old' : TripUpdate}
    (h : List.Forall₂ SameStatus old.stopTimeUpdates old'.stopTimeUpdates)
    (order : Nat) (newStu : StopTimeUpdate) :
    isKept (some old) order newStu = isKept (some old') order newStu := by
  have hfind := findStopIn_rel h (some newStu.stopId) order
  have hvalid :
      ∀ e, isNewStopEventValid e newStu.stopId order none (some old) newStu =
        isNewStopEventValid e newStu.stopId order none (some old') newStu := by
    intro e
    simp only [isNewStopEventValid, isStopEventServed, Option.bind_some,
      TripUpdate.findStop]
    generalize
      findStopIn old.stopTimeUpdates (some newStu.stopId) order = x at hfind ⊢
    generalize
      findStopIn old'.stopTimeUpdates (some newStu.stopId) order = y at hfind ⊢
    cases hfind with
    | none =>
        rfl
    | @some a b hab =>
        simp only [StopTimeUpdate.isStopEventDeleted, hab.status e]
  rw [isKept, isKept, hvalid, hvalid]

/-- Recorded stops have the statuses the feed gives them. -/
theorem turns_sameStatus
    {new : NewTripUpdate} (hindexed : Indexed new.stopTimeUpdates)
    {fs : List FeedStop} (hfs : Grounded new fs)
    (c : Calendar) (last : Option Datetime) :
    List.Forall₂ SameStatus ((turns c last fs).map MergedStop.resSt)
      (fs.map FeedStop.newSt) := by
  induction fs generalizing c last with
  | nil =>
      exact List.Forall₂.nil
  | cons f fs ih =>
      obtain ⟨hnew, hid⟩ := hfs f List.mem_cons_self
      refine List.Forall₂.cons ⟨hid, ?_, fun e => ?_⟩ (ih hfs.tail _ _)
      · exact (hindexed.getElem?_order hnew).symm
      · cases e <;> rfl

/-- So have the stops that the consistency leaves. -/
theorem manageConsistency_sameStatus
    {stus : List StopTimeUpdate} (hchain : Chained none stus) :
    List.Forall₂ SameStatus (manageConsistency stus).2 stus := by
  refine ((manageConsistency_filled hchain).imp ?_).flip
  rintro st out (rfl | rfl)
  · exact ⟨rfl, rfl, fun _ => rfl⟩
  · exact ⟨rfl, rfl, fun e => by cases e <;> rfl⟩

theorem SameStatus.trans
    {a b c : StopTimeUpdate} (hab : SameStatus a b) (hbc : SameStatus b c) :
    SameStatus a c :=
  ⟨hab.stopId.trans hbc.stopId, hab.order.trans hbc.order,
    fun e => (hab.status e).trans (hbc.status e)⟩

/-- A stop is kept against a list that holds it at its place. -/
theorem isKept_of_mem
    {row : TripUpdate}
    (hincreasing : row.stopTimeUpdates.Pairwise
      (fun a b => a.order < b.order))
    {st : StopTimeUpdate} (hst : st ∈ row.stopTimeUpdates) :
    isKept (some row) st.order st = true := by
  have hfind := findStopIn_of_increasing hincreasing hst
  simp [isKept, isNewStopEventValid, TripUpdate.findStop, hfind]

/-- The stops kept are those in the vehicle journey, and those that are valid. -/
theorem mem_keptStops_iff
    {db : Option TripUpdate} {vjSts : List StopTime} {j : Nat}
    {stus : List StopTimeUpdate}
    (horders : stus.map StopTimeUpdate.order = List.range' j stus.length)
    {st : StopTimeUpdate} :
    st ∈ keptStops db vjSts j stus ↔
      st ∈ stus ∧
        ((findStInVj st.stopId vjSts).isSome ∨
          isKept db st.order st = true) := by
  induction stus generalizing j with
  | nil =>
      simp [keptStops]
  | cons newStu rest ih =>
      simp only [List.map_cons, List.length_cons, List.range'_succ,
        List.cons.injEq] at horders
      obtain ⟨horder, hrest⟩ := horders
      rw [keptStops, ← horder]
      rw [← horder] at hrest
      split
      · rename_i hkept
        rw [Bool.or_eq_true] at hkept
        rw [List.mem_cons, List.mem_cons, ih hrest]
        constructor
        · rintro (rfl | hmem)
          · exact ⟨Or.inl rfl, hkept⟩
          · exact ⟨Or.inr hmem.1, hmem.2⟩
        · rintro ⟨rfl | hmem, hvalid⟩
          · exact Or.inl rfl
          · exact Or.inr ⟨hmem, hvalid⟩
      · rename_i hdropped
        rw [Bool.or_eq_true] at hdropped
        rw [List.mem_cons, ih hrest]
        constructor
        · rintro ⟨hmem, hvalid⟩
          exact ⟨Or.inr hmem, hvalid⟩
        · rintro ⟨rfl | hmem, hvalid⟩
          · exact absurd hvalid hdropped
          · exact ⟨hmem, hvalid⟩

end Lookup

section Twice

variable {b : Builder} {old : Option TripUpdate} {new : NewTripUpdate}

/-- A trip that has taken over the header of a feed has it. -/
theorem headerStored_mergeHeader
    (old : Option TripUpdate) (new : NewTripUpdate) (isNewComplete : Bool)
    (stus : List StopTimeUpdate) :
    HeaderStored isNewComplete
      { mergeHeader old new isNewComplete with stopTimeUpdates := stus }
      new := by
  refine ⟨rfl, rfl, fun htaken => ?_⟩
  simp only [mergeHeader]
  rw [if_pos htaken]

/-- The loop only reads the stops of the stored trip. -/
theorem yieldNextStopFrom_of_stops
    {old old' : TripUpdate}
    (h : old.stopTimeUpdates = old'.stopTimeUpdates)
    (vjSts : List StopTime) (j : Nat) (stus : List StopTimeUpdate) :
    yieldNextStopFrom (some old) vjSts j stus =
      yieldNextStopFrom (some old') vjSts j stus := by
  induction stus generalizing j with
  | nil =>
      rfl
  | cons newStu rest ih =>
      simp only [yieldNextStopFrom, ih, isNewStopEventValid, isStopEventServed,
        makeFakeRealtimeStopTime, Option.bind_some, TripUpdate.findStop, h]
      rfl

theorem stopsToGoThrough_of_stops
    {old old' : TripUpdate}
    (h : old.stopTimeUpdates = old'.stopTimeUpdates)
    (navitiaVj : NavitiaVj) (new : NewTripUpdate) (isNewComplete : Bool) :
    stopsToGoThrough navitiaVj (some old) new isNewComplete =
      stopsToGoThrough navitiaVj (some old') new isNewComplete := by
  simp only [stopsToGoThrough, yieldNextStopFromTripUpdate,
    yieldNextStopFrom_of_stops h]

/-- A trip that has the header of a feed and all its stops stays as it is. -/
theorem processTripUpdate_of_found
    {r : TripUpdate} (hstatus : new.status ≠ .delete)
    (hfits : FitsBuilder b new)
    (hheader : HeaderStored b.isNewComplete r new)
    (hfound : ∀ fs,
      List.Forall₂ (Resolves new)
        (stopsToGoThrough new.navitiaVj (some r) new b.isNewComplete) fs →
      InFeed new 0 fs →
      ∀ st ∈ (turns (startCalendar new.vj) none fs).map MergedStop.resSt,
        r.findStop (some st.stopId) st.order = some st) :
    (processTripUpdate b (some r) new).tripUpdate = r ∧
      (processTripUpdate b (some r) new).linked ≠ .ok true := by
  have hkept := mergeHeader_eq_iff.2 hheader
  cases hmerge :
      mergeStops new.navitiaVj (some r) new b.isNewComplete with
  | error e =>
      rw [processTripUpdate_error hstatus hmerge]
      exact ⟨hkept, by simp⟩
  | ok m =>
      rcases m with ⟨stops, hasChanges⟩
      cases hasChanges with
      | false =>
          rw [processTripUpdate_unchanged hstatus hmerge]
          exact ⟨hkept, by simp⟩
      | true =>
          rcases fitsVj_turns hfits hmerge with ⟨fs, hfs, hin, rfl, hany⟩
          rw [(changes_turns_iff hfs _ _).2 (hfound fs hfs hin)] at hany
          cases hany

/-- The stops kept have increasing orders. -/
theorem keptFeed_increasing
    (hindexed : Indexed new.stopTimeUpdates) (old : Option TripUpdate) :
    (keptFeed old new).stopTimeUpdates.Pairwise
      (fun a b => a.order < b.order) :=
  hindexed.increasing.sublist (keptStops_sublist _ _ _ _)

/-- A stop of the feed is kept when it is in the vehicle journey or valid. -/
theorem mem_keptFeed_iff
    (hindexed : Indexed new.stopTimeUpdates) {old : Option TripUpdate}
    {st : StopTimeUpdate} :
    st ∈ keptStops old new.navitiaVj.stopTimes 0 new.stopTimeUpdates ↔
      st ∈ new.stopTimeUpdates ∧
        ((findStInVj st.stopId new.navitiaVj.stopTimes).isSome ∨
          isKept old st.order st = true) :=
  mem_keptStops_iff (by rw [hindexed, List.range_eq_range'])

/-- A stop that is kept is kept against the stops kept. -/
theorem isKept_keptFeed
    (hindexed : Indexed new.stopTimeUpdates) {k : Nat} {st : StopTimeUpdate}
    (hget : new.stopTimeUpdates[k]? = some st)
    (hk : isKept old k st = true) :
    isKept (some (keptFeed old new)) k st = true := by
  have horder := hindexed.getElem?_order hget
  rw [← horder] at hk ⊢
  exact isKept_of_mem (keptFeed_increasing hindexed old)
    ((mem_keptFeed_iff hindexed).2 ⟨List.mem_of_getElem? hget, Or.inr hk⟩)

/-- Stable stops have the same reference times once the feed is stored. -/
theorem OutsideStable.reference
    {r : TripUpdate} (h : OutsideStable old r new)
    {k : Nat} {st : StopTimeUpdate} (hget : new.stopTimeUpdates[k]? = some st)
    (hvj : findStInVj st.stopId new.navitiaVj.stopTimes = none)
    (hk : isKept old k st = true) (s s' : StopTime)
    (hs : makeFakeRealtimeStopTime k st.stopId st old = .ok s)
    (hs' : makeFakeRealtimeStopTime k st.stopId st (some r) = .ok s')
    (e : StopEvent) (hserved : st.isStopEventDeleted e = false) :
    s.utcTime e = s'.utcTime e := by
  cases hundated : st.departure.isNone && st.arrival.isNone with
  | false =>
      rw [makeFakeRealtimeStopTime_eq hundated (some r) old, hs] at hs'
      cases hs'
      rfl
  | true =>
      rcases h.steady k st hget hvj hk with hdated | hunmoved
      · rw [hundated] at hdated
        cases hdated
      · exact hunmoved.utcTime_eq hundated hs hs' hserved

/-- Stable stops are kept, or dropped, as they were. -/
theorem OutsideStable.kept
    {r : TripUpdate} (hindexed : Indexed new.stopTimeUpdates)
    (h : OutsideStable old r new)
    {k : Nat} {st : StopTimeUpdate} (hget : new.stopTimeUpdates[k]? = some st)
    (hvj : findStInVj st.stopId new.navitiaVj.stopTimes = none) :
    isKept (some (keptFeed old new)) k st = isKept old k st := by
  cases hk : isKept old k st with
  | false =>
      exact h.dropped k st hget hvj hk
  | true =>
      exact isKept_keptFeed hindexed hget hk

section Again

variable {fs gs : List FeedStop} {r : TripUpdate}
variable (hindexed : Indexed new.stopTimeUpdates)
variable (hr : List.Forall₂ SameStatus r.stopTimeUpdates
  (recordedStops new fs))
variable (hfs : List.Forall₂ (Resolves new)
  (stopsToGoThrough new.navitiaVj old new b.isNewComplete) fs)
variable (hin : InFeed new 0 fs)
variable (hgs : List.Forall₂ (Resolves new)
  (stopsToGoThrough new.navitiaVj (some r) new b.isNewComplete) gs)
variable (hgin : InFeed new 0 gs)

include hindexed hr hfs hin in
/-- Once a complete feed is stored, its stops are kept as against the feed. -/
theorem isKept_stored
    (hcomplete : b.isNewComplete = true) (k : Nat) (st : StopTimeUpdate) :
    isKept (some r) k st = isKept (some (keptFeed old new)) k st := by
  rw [hcomplete] at hfs
  have hmap := map_newSt_eq_keptStops List.drop_zero hfs hin.grounded
  have hrecorded := turns_sameStatus hindexed hin.grounded
    (startCalendar new.vj) none
  rw [hmap] at hrecorded
  have hstatus : List.Forall₂ SameStatus r.stopTimeUpdates
      (keptFeed old new).stopTimeUpdates :=
    RelatedLists.forall₂_trans (fun _ _ _ h h' => h.trans h') hr hrecorded
  exact isKept_congr hstatus k st

include hindexed hr hfs hin hgs hgin in
/-- Once a feed is stored, its stops are resolved as they were before. -/
theorem turns_resend
    (hstable : b.isNewComplete = true → OutsideStable old r new) :
    recordedStops new gs = recordedStops new fs := by
  cases hcomplete : b.isNewComplete with
  | false =>
      rw [hcomplete] at hfs hgs
      rw [resolves_list_unique hgs hfs]
  | true =>
      have hstored := isKept_stored hindexed hr hfs hin hcomplete
      rw [hcomplete] at hfs hgs
      have hstable := hstable hcomplete
      have hsame : List.Forall₂ SameTurn fs gs :=
        yieldNextStopFrom_sameTurn List.drop_zero
          (fun k st hget hvj => by
            rw [hstored k st, hstable.kept hindexed hget hvj])
          (fun k st hget hvj hk => hstable.reference hget hvj hk) hfs hgs
          hin.grounded hgin.grounded
      exact (turns_congr hsame _ _).symm

include hindexed hr hfs hin hgs hgin in
/-- A stop dropped by the first run is dropped by a second run that is stored. -/
theorem dropped_of_stored
    (hcomplete : b.isNewComplete = true)
    (hstored : ∀ st ∈ recordedStops new gs, StoredAs r st)
    {k : Nat} {st : StopTimeUpdate} (hget : new.stopTimeUpdates[k]? = some st)
    (hvj : findStInVj st.stopId new.navitiaVj.stopTimes = none)
    (hdropped : isKept old k st = false) :
    isKept (some (keptFeed old new)) k st = false := by
  by_contra hkept
  rw [Bool.not_eq_false, ← isKept_stored hindexed hr hfs hin hcomplete]
    at hkept
  have horder := hindexed.getElem?_order hget
  rw [hcomplete] at hfs hgs
  have hmap := map_newSt_eq_keptStops List.drop_zero hfs hin.grounded
  -- the second run goes through the stop, at its place
  obtain ⟨g, hg, hgorder, rfl, -⟩ :=
    exists_outside_turn hgs hgin.grounded hget hvj hkept
  have horders : ∀ hs : List FeedStop,
      (recordedStops new hs).map StopTimeUpdate.order =
        hs.map FeedStop.order :=
    turns_orders _ _
  have hrecorded : g.order ∈ (recordedStops new gs).map StopTimeUpdate.order := by
    rw [horders]
    exact List.mem_map_of_mem hg
  obtain ⟨recorded, hmem, hrecordedOrder⟩ := List.mem_map.1 hrecorded
  have hfirst := (hstored recorded hmem).order_mem
  rw [hrecordedOrder, RelatedLists.map_eq_map_iff.2
    (hr.imp (fun _ _ h => h.order)), horders] at hfirst
  -- so that the first one has gone through it too
  obtain ⟨f, hf, hforder⟩ := List.mem_map.1 hfirst
  have hfget := hin.newSt_eq f hf
  rw [hforder, hgin.newSt_eq g hg, Option.some.injEq] at hfget
  have hfmem : g.newSt ∈ fs.map FeedStop.newSt :=
    List.mem_map.2 ⟨f, hf, hfget.symm⟩
  rw [hmap, mem_keptFeed_iff hindexed, hvj, horder, hdropped] at hfmem
  simp at hfmem

include hindexed hr hfs hin hgs hgin in
/--
The stops outside the vehicle journey are stable when what is stored is what
both runs record.
-/
theorem outsideStable_of_stored
    (hcomplete : b.isNewComplete = true) (hadditions : DatesAdditions new)
    (hrun : tryTurns (startCalendar new.vj) none fs =
      .ok (turns (startCalendar new.vj) none fs))
    (hrun' : tryTurns (startCalendar new.vj) none gs =
      .ok (turns (startCalendar new.vj) none gs))
    (hstored : ∀ st ∈ recordedStops new fs, StoredAs r st)
    (hstored' : ∀ st ∈ recordedStops new gs, StoredAs r st) :
    OutsideStable old r new := by
  refine ⟨fun k st hget hvj hk => ?_, fun k st hget hvj hdropped =>
    dropped_of_stored hindexed hr hfs hin hgs hgin hcomplete hstored' hget hvj
      hdropped⟩
  cases hundated : st.departure.isNone && st.arrival.isNone with
  | false =>
      exact Or.inl rfl
  | true =>
      have hk' : isKept (some r) k st = true := by
        rw [isKept_stored hindexed hr hfs hin hcomplete]
        exact isKept_keptFeed hindexed hget hk
      rw [hcomplete] at hfs hgs
      obtain ⟨f, hf, hforder, hfnew, hfid, hfake⟩ :=
        exists_outside_turn hfs hin.grounded hget hvj hk
      obtain ⟨g, hg, hgorder, hgnew, hgid, hfake'⟩ :=
        exists_outside_turn hgs hgin.grounded hget hvj hk'
      obtain ⟨o, ho, htimes⟩ := makeFakeRealtimeStopTime_stored hundated hfake
      obtain ⟨o', ho', htimes'⟩ :=
        makeFakeRealtimeStopTime_stored hundated hfake'
      refine Or.inr (fun e hserved => ?_)
      obtain ⟨t, ht, hutc⟩ := htimes e
      obtain ⟨t', ht', hutc'⟩ := htimes' e
      have hadded : f.newSt.isStopEventAdded e = false := by
        rw [hfnew]
        by_contra hadded
        rw [Bool.not_eq_false] at hadded
        have htime := hadditions st (List.mem_of_getElem? hget) e hadded
        simp only [Bool.and_eq_true, Option.isNone_iff_eq_none] at hundated
        cases e <;>
          simp [StopTimeUpdate.getStopEventTime, hundated] at htime
      have hclock := reference_unique hrun hstored hrun' hstored' hf hg
        (by rw [hforder, hgorder]) (by rw [hfid, hgid]) (by rw [hfnew, hgnew])
        hadded (by rw [hfnew, hserved]) hutc hutc'
      rw [storedClock, storedClock, ho, ho', Option.bind_some,
        Option.bind_some, ht, ht', Option.map_some, Option.map_some, hclock]

end Again

/-- A feed whose stops had not changed changes nothing the second time. -/
theorem processTripUpdate_twice_unchanged
    {o : TripUpdate} (hstatus : new.status ≠ .delete)
    (hfits : FitsBuilder b new) {fs : List FeedStop}
    (hfs : List.Forall₂ (Resolves new)
      (stopsToGoThrough new.navitiaVj (some o) new b.isNewComplete) fs)
    (hany : (turns (startCalendar new.vj) none fs).any (changes (some o)) =
      false)
    {r : TripUpdate} (hr : r = mergeHeader (some o) new b.isNewComplete) :
    (processTripUpdate b (some r) new).tripUpdate = r ∧
      (processTripUpdate b (some r) new).linked ≠ .ok true := by
  subst hr
  refine processTripUpdate_of_found hstatus hfits
    (headerStored_mergeHeader (some o) new b.isNewComplete o.stopTimeUpdates) ?_
  intro gs hgs _
  have hitems :=
    stopsToGoThrough_of_stops
      (show (mergeHeader (some o) new b.isNewComplete).stopTimeUpdates =
        o.stopTimeUpdates from rfl)
      new.navitiaVj new b.isNewComplete
  rw [← hitems] at hfs
  rw [resolves_list_unique hgs hfs]
  exact (changes_turns_iff hfs _ _).1 hany

/-- What a feed leaves once its stops have changed. -/
def changedRow (b : Builder) (old : Option TripUpdate) (new : NewTripUpdate)
    (fs : List FeedStop) : TripUpdate :=
  { mergeHeader old new b.isNewComplete with
    stopTimeUpdates := (manageConsistency (recordedStops new fs)).2 }

theorem processTripUpdate_changedRow
    (hstatus : new.status ≠ .delete) {fs : List FeedStop}
    (hin : InFeed new 0 fs)
    (h : mergeStops new.navitiaVj old new b.isNewComplete =
      .ok (turns (startCalendar new.vj) none fs, true)) :
    processTripUpdate b old new =
      { tripUpdate := changedRow b old new fs
        linked := .ok (manageConsistency (recordedStops new fs)).1 } := by
  rw [processTripUpdate_changed hstatus h, reloadStops_managed hin]
  rfl

theorem changedRow_sameStatus
    (b : Builder) (old : Option TripUpdate) (new : NewTripUpdate)
    (fs : List FeedStop) :
    List.Forall₂ SameStatus (changedRow b old new fs).stopTimeUpdates
      (recordedStops new fs) :=
  manageConsistency_sameStatus (turns_chained _ none fs)

/-- The stops of an accepted run are found again when their delays are there. -/
theorem changedRow_found_iff
    {fs : List FeedStop} (hin : InFeed new 0 fs)
    (haccepted : (manageConsistency (recordedStops new fs)).1 = true) :
    (∀ st ∈ recordedStops new fs,
        (changedRow b old new fs).findStop (some st.stopId) st.order =
          some st) ↔
      ∀ st ∈ recordedStops new fs, HasDelays st := by
  have hfilled : (changedRow b old new fs).stopTimeUpdates =
      (recordedStops new fs).map fillDelays :=
    (manageConsistency_accepted (turns_chained (startCalendar new.vj) none fs)
      (Prod.ext haccepted rfl)).2.2
  constructor
  · intro hfound st hst
    have hmem := findStopIn_mem (hfound st hst)
    rw [hfilled] at hmem
    obtain ⟨own, -, rfl⟩ := List.mem_map.1 hmem
    exact ⟨rfl, rfl⟩
  · intro hdelays st hst
    have hstops : (changedRow b old new fs).stopTimeUpdates =
        recordedStops new fs := by
      rw [hfilled, List.map_congr_left
        (fun st hst => fillDelays_eq_iff.2 (hdelays st hst)), List.map_id']
    rw [TripUpdate.findStop, hstops]
    exact findStopIn_of_increasing (hin.turns_increasing _ _) hst

/--
A feed whose recorded stops are stored leaves them, and is accepted again only if
it was, with an update without its delay.
-/
theorem processTripUpdate_twice_changed
    (hstatus : new.status ≠ .delete) (hfits : FitsBuilder b new)
    {fs : List FeedStop}
    (hstable : b.isNewComplete = true →
      OutsideStable old (changedRow b old new fs) new)
    (hfs : List.Forall₂ (Resolves new)
      (stopsToGoThrough new.navitiaVj old new b.isNewComplete) fs)
    (hin : InFeed new 0 fs) :
    (processTripUpdate b (some (changedRow b old new fs)) new).tripUpdate =
        changedRow b old new fs ∧
      ∀ again,
        (processTripUpdate b (some (changedRow b old new fs)) new).linked =
          .ok again →
        (again = true ↔
          (manageConsistency (recordedStops new fs)).1 = true ∧
            ¬ KeptCarryDelays b old new) := by
  have hheader : mergeHeader (some (changedRow b old new fs)) new
      b.isNewComplete = changedRow b old new fs :=
    mergeHeader_eq_iff.2 (headerStored_mergeHeader old new b.isNewComplete _)
  have hdelays : KeptCarryDelays b old new ↔
      ∀ st ∈ recordedStops new fs, HasDelays st := by
    rw [keptCarryDelays_iff hfits hfs hin]
    exact (turns_hasDelays_iff _ _).symm
  cases hmerge : mergeStops new.navitiaVj (some (changedRow b old new fs)) new
      b.isNewComplete with
  | error e =>
      rw [processTripUpdate_error hstatus hmerge]
      exact ⟨hheader, by rintro again ⟨⟩⟩
  | ok m =>
      obtain ⟨stops, hasChanges⟩ := m
      obtain ⟨gs, hgs, hgin, rfl, hany⟩ := fitsVj_turns hfits hmerge
      have hsame : recordedStops new gs = recordedStops new fs :=
        turns_resend hfits.indexed (changedRow_sameStatus b old new fs) hfs hin
          hgs hgin hstable
      have hfound : hasChanges = false ↔
          ∀ st ∈ recordedStops new fs,
            (changedRow b old new fs).findStop (some st.stopId) st.order =
              some st := by
        rw [hany, changes_turns_iff hgs, ← hsame]
        rfl
      cases hasChanges with
      | false =>
          rw [processTripUpdate_unchanged hstatus hmerge]
          refine ⟨hheader, ?_⟩
          rintro again ⟨⟩
          simp only [Bool.false_eq_true, false_iff, not_and, not_not]
          intro haccepted
          rw [hdelays, ← changedRow_found_iff hin haccepted]
          exact hfound.1 rfl
      | true =>
          rw [processTripUpdate_changedRow hstatus hgin hmerge, changedRow,
            hheader, hsame]
          refine ⟨rfl, ?_⟩
          rintro again ⟨⟩
          refine ⟨fun haccepted => ⟨haccepted, fun hall => ?_⟩, And.left⟩
          rw [hdelays, ← changedRow_found_iff hin haccepted, ← hfound] at hall
          cases hall

/-- The stops recorded by a run are stored in the row that it leaves. -/
theorem changedRow_storedAs
    {fs : List FeedStop} (hin : InFeed new 0 fs) {st : StopTimeUpdate}
    (hst : st ∈ recordedStops new fs) :
    StoredAs (changedRow b old new fs) st :=
  storedAs_managed (turns_chained _ none fs) (hin.turns_increasing _ _) rfl hst

/--
The stops outside the vehicle journey are stable when the second sending leaves
the row and does not accept it.
-/
theorem outsideStable_of_kept
    (hstatus : new.status ≠ .delete) (hfits : FitsBuilder b new)
    {fs : List FeedStop}
    (hfs : List.Forall₂ (Resolves new)
      (stopsToGoThrough new.navitiaVj old new b.isNewComplete) fs)
    (hin : InFeed new 0 fs)
    (hrun : tryTurns (startCalendar new.vj) none fs =
      .ok (turns (startCalendar new.vj) none fs))
    (hcomplete : b.isNewComplete = true) (hadditions : DatesAdditions new)
    (hsecond :
      (processTripUpdate b (some (changedRow b old new fs)) new).linked =
        .ok false)
    (hkept :
      (processTripUpdate b (some (changedRow b old new fs)) new).tripUpdate =
        changedRow b old new fs) :
    OutsideStable old (changedRow b old new fs) new := by
  cases hmerge : mergeStops new.navitiaVj (some (changedRow b old new fs)) new
      b.isNewComplete with
  | error e =>
      rw [processTripUpdate_error hstatus hmerge] at hsecond
      cases hsecond
  | ok m =>
      obtain ⟨stops, hasChanges⟩ := m
      obtain ⟨gs, hgs, hgin, rfl, hany⟩ := fitsVj_turns hfits hmerge
      refine outsideStable_of_stored hfits.indexed
        (changedRow_sameStatus b old new fs) hfs hin hgs hgin hcomplete
        hadditions hrun (tryTurns_of_mergeStops hgs hmerge)
        (fun st hst => changedRow_storedAs hin hst) ?_
      intro st hst
      cases hasChanges with
      | false =>
          exact ⟨st, (changes_turns_iff hgs _ _).1 hany.symm st hst,
            Or.inl rfl⟩
      | true =>
          -- the row that is left has the stops of the second run
          rw [processTripUpdate_changedRow hstatus hgin hmerge] at hkept
          rw [← hkept]
          exact changedRow_storedAs hgin hst

theorem eq_of_storedAfter
    {r : TripUpdate} (h : storedAfter b old new = some r) :
    (processTripUpdate b old new).tripUpdate = r := by
  unfold storedAfter at h
  split at h
  · exact Option.some.inj h
  · cases h

/--
A stable feed leaves its row the second time, and is accepted again only if it
was, with an update without its delay.
-/
theorem processTripUpdate_twice
    (hstatus : new.status ≠ .delete) (hstable : Stable b old new)
    {accepted : Bool}
    (hfirst : (processTripUpdate b old new).linked = .ok accepted)
    {r : TripUpdate} (hr : storedAfter b old new = some r) :
    (processTripUpdate b (some r) new).tripUpdate = r ∧
      ∀ again, (processTripUpdate b (some r) new).linked = .ok again →
        (again = true ↔ accepted = true ∧ ¬ KeptCarryDelays b old new) := by
  obtain ⟨hfits, hstops⟩ := hstable
  have hrow := eq_of_storedAfter hr
  cases hmerge : mergeStops new.navitiaVj old new b.isNewComplete with
  | error e =>
      rw [processTripUpdate_error hstatus hmerge] at hfirst
      cases hfirst
  | ok m =>
      obtain ⟨stops, hasChanges⟩ := m
      obtain ⟨fs, hfs, hin, rfl, hany⟩ := fitsVj_turns hfits hmerge
      cases hasChanges with
      | false =>
          rw [processTripUpdate_unchanged hstatus hmerge] at hfirst hrow
          cases hfirst
          cases old with
          | none =>
              simp [storedAfter, processTripUpdate_unchanged hstatus hmerge]
                at hr
          | some o =>
              obtain ⟨hkept, hunlinked⟩ := processTripUpdate_twice_unchanged
                hstatus hfits hfs hany.symm hrow.symm
              refine ⟨hkept, fun again hagain => ?_⟩
              rw [hagain, ne_eq, Except.ok.injEq] at hunlinked
              simp [hunlinked]
      | true =>
          have hchanged := processTripUpdate_changedRow hstatus hin hmerge
          rw [hchanged] at hfirst hrow
          cases hfirst
          subst hrow
          rcases hstops with hnone | hstable
          · rw [Builder.mergeTripUpdates, merge_of_stops hstatus hmerge]
              at hnone
            cases hnone
          · exact processTripUpdate_twice_changed hstatus hfits
              (hstable _ hr) hfs hin

end Twice

section Handle

variable {b : Builder} {brokerUp : Bool} {db : Db} {rtu : RealTimeUpdate}
variable {new : NewTripUpdate}

theorem distinctTrips_singleton
    (new : NewTripUpdate) :
    DistinctTrips [new] := by
  simp [DistinctTrips]

/-- A call whose trip is left as it is and not linked has no effect. -/
theorem handle_kept
    (hstored : storedAfter b (findByDatedVj db.tripUpdates new.vj) new =
      findByDatedVj db.tripUpdates new.vj)
    (hunlinked :
      (processTripUpdate b (findByDatedVj db.tripUpdates new.vj) new).linked ≠
        .ok true)
    (hfresh : ∀ id, (rtu.id, id) ∉ db.associations) :
    (handle b brokerUp db rtu [new]).db.tripUpdates = db.tripUpdates ∧
      ∀ p, (handle b brokerUp db rtu [new]).published = some p →
        p.entities = [] := by
  refine ⟨handle_unchanged hstored, fun p hp => ?_⟩
  have hlinks : (handleTripUpdate b db.session new).1.links = [] := by
    rw [handleTripUpdate_links]
    exact if_neg hunlinked
  obtain ⟨r, hok⟩ := outcome_of_published hp
  obtain ⟨s, db1, entities, hloop, hcommit, hpb, hpub⟩ := handle_ok hok
  rw [hpub] at hp
  cases hp
  rw [handleLoop_single] at hloop
  rw [hloop] at hlinks
  have hnone : db1.tripUpdatesOf rtu = [] := by
    rw [tripUpdatesOf_eq hcommit hfresh, hlinks]
    simp
  rw [hnone] at hpb
  cases hpb
  rfl

/-- A call that returns has stored its row, and published it if it is linked. -/
theorem handle_single_ok
    {r : RealTimeUpdate} (h : (handle b brokerUp db rtu [new]).outcome = .ok r)
    (hfresh : ∀ id, (rtu.id, id) ∉ db.associations) :
    ∃ accepted,
      (processTripUpdate b (findByDatedVj db.tripUpdates new.vj) new).linked =
          .ok accepted ∧
        findByDatedVj (handle b brokerUp db rtu [new]).db.tripUpdates new.vj =
          storedAfter b (findByDatedVj db.tripUpdates new.vj) new ∧
        (accepted = true →
          ∃ p, (handle b brokerUp db rtu [new]).published = some p ∧
            p.entities ≠ []) := by
  obtain ⟨s, db1, entities, hloop, hcommit, hpb, hpub⟩ := handle_ok h
  obtain ⟨accepted, hnormal⟩ :=
    (handleLoop_distinct db.uniqueVj db.uniqueDatedVj
      (distinctTrips_singleton new) hloop).normal new List.mem_cons_self
  have hnormal :
      (processTripUpdate b (findByDatedVj db.tripUpdates new.vj) new).linked =
        .ok accepted := hnormal
  have hrow := findByDatedVj_committed (distinctTrips_singleton new) hloop
    hcommit List.mem_cons_self
  refine ⟨accepted, hnormal, ?_, ?_⟩
  · rw [(handle_committed hloop hcommit).1, ← (dbCommit_ok hcommit).1, hrow]
  · rintro rfl
    refine ⟨_, hpub, fun hnil => ?_⟩
    rw [storedAfter_linked hnormal] at hrow
    have hlink := (mem_links_iff (distinctTrips_singleton new) hloop hcommit
      List.mem_cons_self hrow).2 hnormal
    have hmem := (tripUpdatesOf_fresh hcommit hfresh _).2
      ⟨findByDatedVj_mem hrow, hlink⟩
    obtain ⟨e, he, -⟩ :=
      RelatedLists.exists_of_mem_left (convertToGtfsrt_ok hpb) hmem
    simp only at hnil
    rw [hnil] at he
    cases he

/-- A call that leaves nothing stored has not accepted its trip. -/
theorem storedAfter_eq_none
    {old : Option TripUpdate} (h : storedAfter b old new = none) :
    old = none ∧ (processTripUpdate b old new).linked ≠ .ok true := by
  unfold storedAfter at h
  split at h
  · cases h
  · rename_i hno
    rw [not_or, Option.not_isSome_iff_eq_none] at hno
    exact hno

/-- A feed is resendable when its second call leaves the row and accepts none. -/
theorem resendable_of_kept
    {old : Option TripUpdate} (hfits : FitsBuilder b new)
    (hadditions : b.isNewComplete = true → DatesAdditions new)
    {accepted again : Bool}
    (hfirst : (processTripUpdate b old new).linked = .ok accepted)
    (hsecond : (processTripUpdate b (storedAfter b old new) new).linked =
      .ok again)
    (hkept : storedAfter b (storedAfter b old new) new =
      storedAfter b old new)
    (hunlinked : again = false) :
    Resendable b old new := by
  subst hunlinked
  have hstatus : new.status ≠ .delete := by
    intro hdelete
    rw [processTripUpdate_cancelled hdelete] at hsecond
    cases hsecond
  cases hstored : storedAfter b old new with
  | none =>
      refine ⟨hstatus, ⟨hfits, Or.inr (fun r hr => ?_)⟩, fun hlinked => ?_⟩
      · rw [hstored] at hr
        cases hr
      · exact absurd hlinked (storedAfter_eq_none hstored).2
  | some r =>
      rw [hstored] at hsecond hkept
      rw [storedAfter_some, Option.some.injEq] at hkept
      have hrow := eq_of_storedAfter hstored
      cases hmerge : mergeStops new.navitiaVj old new b.isNewComplete with
      | error e =>
          rw [processTripUpdate_error hstatus hmerge] at hfirst
          cases hfirst
      | ok m =>
          obtain ⟨stops, hasChanges⟩ := m
          obtain ⟨fs, hfs, hin, rfl, -⟩ := fitsVj_turns hfits hmerge
          cases hasChanges with
          | false =>
              refine ⟨hstatus, ⟨hfits, Or.inl ?_⟩, fun hlinked => ?_⟩
              · rw [Builder.mergeTripUpdates, merge_of_stops hstatus hmerge]
              · rw [processTripUpdate_unchanged hstatus hmerge] at hlinked
                cases hlinked
          | true =>
              rw [processTripUpdate_changedRow hstatus hin hmerge] at hrow
              simp only at hrow
              rw [← hrow] at hsecond hkept
              have hstable : Stable b old new := by
                refine ⟨hfits, Or.inr (fun r' hr' hcomplete => ?_)⟩
                rw [hstored, ← hrow] at hr'
                cases hr'
                exact outsideStable_of_kept hstatus hfits hfs hin
                  (tryTurns_of_mergeStops hfs hmerge) hcomplete
                  (hadditions hcomplete) hsecond hkept
              rw [hrow] at hsecond
              refine ⟨hstatus, hstable, fun hlinked => ?_⟩
              have htwice := (processTripUpdate_twice hstatus hstable hlinked
                hstored).2 false hsecond
              simpa using htwice

/--
Handling a resendable trip update again leaves the stored rows as they are and
publishes no entity.  Of the feeds that connectors build, whose added events give
their datetimes, only the resendable ones do so when the second call returns.
-/
theorem resending_changes_nothing
    {brokerUp' : Bool} {rtu' r : RealTimeUpdate}
    (hfirst : (handle b brokerUp db rtu [new]).outcome = .ok r)
    (hfresh : ∀ id, (rtu.id, id) ∉ db.associations)
    (hfresh' : ∀ id,
      (rtu'.id, id) ∉ (handle b brokerUp db rtu [new]).db.associations) :
    (Resendable b (findByDatedVj db.tripUpdates new.vj) new →
      (handle b brokerUp' (handle b brokerUp db rtu [new]).db rtu'
            [new]).db.tripUpdates =
          (handle b brokerUp db rtu [new]).db.tripUpdates ∧
        ∀ p, (handle b brokerUp' (handle b brokerUp db rtu [new]).db rtu'
            [new]).published = some p →
          p.entities = []) ∧
      (FitsBuilder b new →
        (b.isNewComplete = true → DatesAdditions new) →
        (∃ r', (handle b brokerUp' (handle b brokerUp db rtu [new]).db rtu'
            [new]).outcome = .ok r') →
        ((handle b brokerUp' (handle b brokerUp db rtu [new]).db rtu'
              [new]).db.tripUpdates =
            (handle b brokerUp db rtu [new]).db.tripUpdates ∧
          ∀ p, (handle b brokerUp' (handle b brokerUp db rtu [new]).db rtu'
              [new]).published = some p →
            p.entities = []) →
        Resendable b (findByDatedVj db.tripUpdates new.vj) new) := by
  obtain ⟨accepted, hnormal, hrow, -⟩ := handle_single_ok hfirst hfresh
  constructor
  · intro hres
    apply handle_kept _ _ hfresh'
    · rw [hrow]
      cases hstored :
          storedAfter b (findByDatedVj db.tripUpdates new.vj) new with
      | none =>
          obtain ⟨hnone, hunlinked⟩ := storedAfter_eq_none hstored
          rw [hnone] at hstored
          exact hstored
      | some stored =>
          rw [storedAfter_some, (processTripUpdate_twice hres.status hres.stable
            hnormal hstored).1]
    · rw [hrow]
      cases hstored :
          storedAfter b (findByDatedVj db.tripUpdates new.vj) new with
      | none =>
          obtain ⟨hnone, hunlinked⟩ := storedAfter_eq_none hstored
          rw [hnone] at hunlinked
          exact hunlinked
      | some stored =>
          intro hlinked
          obtain ⟨rfl, hlate⟩ := ((processTripUpdate_twice hres.status
            hres.stable hnormal hstored).2 true hlinked).1 rfl
          exact hlate (hres.delays hnormal)
  · rintro hfits hadditions ⟨r', hsecond⟩ ⟨hrows, hnothing⟩
    obtain ⟨again, hnormal', hrow', hpublished⟩ :=
      handle_single_ok hsecond hfresh'
    rw [hrows, hrow] at hrow'
    rw [hrow] at hnormal'
    refine resendable_of_kept hfits hadditions hnormal hnormal' hrow'.symm ?_
    cases again with
    | false =>
        rfl
    | true =>
        obtain ⟨p, hp, hentities⟩ := hpublished rfl
        exact absurd (hnothing p hp) hentities

end Handle

namespace Sample

/-- The feed on three stops with a stop added between the first two. -/
def addedStop : NewTripUpdate :=
  { onTime with
    stopTimeUpdates :=
      [unchanged "sp:a" 0,
        { unchanged "sp:x" 1 with
          arrival := some (clock 8 2), arrivalStatus := .add
          departure := some (clock 8 2), departureStatus := .add },
        unchanged "sp:b" 2, unchanged "sp:c" 3] }

/-- The departure from the added stop is one minute late. -/
def delayedAddedStop : NewTripUpdate :=
  { addedStop with
    stopTimeUpdates :=
      [unchanged "sp:a" 0,
        { unchanged "sp:x" 1 with
          departureDelay := some (60 * second), departureStatus := .update },
        unchanged "sp:b" 2, unchanged "sp:c" 3] }

/-- The database once the added stop is stored, then delayed. -/
def addedStopDb : Db :=
  (handle cots true emptyDb (received "1") [addedStop]).db

def delayedAddedStopDb : Db :=
  (handle cots true addedStopDb (received "2") [delayedAddedStop]).db

/-- All the stops of the feed are in the vehicle journey. -/
theorem onTime_inside
    {k : Nat} {st : StopTimeUpdate}
    (hst : onTime.stopTimeUpdates[k]? = some st) :
    findStInVj st.stopId onTime.navitiaVj.stopTimes ≠ none := by
  have hfound : ∀ st ∈ onTime.stopTimeUpdates,
      findStInVj st.stopId onTime.navitiaVj.stopTimes ≠ none := by
    decide
  exact hfound st (List.mem_of_getElem? hst)

theorem onTime_resendable :
    Resendable cots none onTime where
  status := by decide
  stable := by
    refine ⟨⟨by decide, by decide⟩, Or.inr (fun _ _ _ => ⟨?_, ?_⟩)⟩
    · intro k st hst hnone
      exact absurd hnone (onTime_inside hst)
    · intro k st hst hnone
      exact absurd hnone (onTime_inside hst)
  delays := fun _ => by decide

end Sample

theorem resending_changes_nothing_onTime :
    (handle Sample.cots true Sample.onTimeDb (Sample.received "2")
          [Sample.onTime]).db.tripUpdates =
        Sample.onTimeDb.tripUpdates ∧
      ∀ p, (handle Sample.cots true Sample.onTimeDb (Sample.received "2")
          [Sample.onTime]).published = some p →
        p.entities = [] :=
  (resending_changes_nothing
    (show (handle Sample.cots true Sample.emptyDb (Sample.received "1")
        [Sample.onTime]).outcome = .ok (Sample.received "1") by decide)
    (by
      intro id
      simp [Sample.emptyDb])
    (by
      intro id
      have hassoc : Sample.onTimeDb.associations = [("1", "7b1a")] := by
        decide
      change ("2", id) ∉ Sample.onTimeDb.associations
      simp [hassoc])).1 Sample.onTime_resendable

/-- A delay on an added stop grows and is published each time it is sent. -/
theorem resending_shifts_delayedAddedStop :
    (handle Sample.cots true Sample.addedStopDb (Sample.received "2")
          [Sample.delayedAddedStop]).outcome = .ok (Sample.received "2") ∧
      Sample.delayedAddedStopDb.tripUpdates.map
        (fun tu => tu.stopTimeUpdates.map StopTimeUpdate.departure) =
      [[some (Sample.clock 8 0), some (Sample.clock 8 3),
        some (Sample.clock 8 6), some (Sample.clock 8 20)]] ∧
      (handle Sample.cots true Sample.delayedAddedStopDb (Sample.received "3")
          [Sample.delayedAddedStop]).db.tripUpdates.map
        (fun tu => tu.stopTimeUpdates.map StopTimeUpdate.departure) =
      [[some (Sample.clock 8 0), some (Sample.clock 8 4),
        some (Sample.clock 8 6), some (Sample.clock 8 20)]] ∧
      (handle Sample.cots true Sample.delayedAddedStopDb (Sample.received "3")
          [Sample.delayedAddedStop]).published.map
        (fun p => p.entities.map Entity.id) = some ["7b1a"] := by
  decide

end Core
end Kirin
