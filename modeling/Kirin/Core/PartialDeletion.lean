import Kirin.Core.CompleteReplacement
import Kirin.Core.CalendarRules

/-!
# Kirin: complete feeds that delete some events

A complete feed lists the stops of the vehicle journey and leaves or deletes
each of their events.  Only the events it keeps make the calendar advance, so
they are dated right when no midnight is lost with the deleted ones.

* `Calendar.At.targets_eq_iff`: the merge aims at the base datetimes exactly
  when the clocks are read right and the gaps left are below one day.
* `exists_passages`: what such a feed says, stop by stop.
* `KeepsCalendar`: what the calendar needs to survive the deletions.
* `deletions_published_iff`: the kept events are published at their base
  datetimes exactly then.
-/

namespace Kirin
namespace Core

/-- An event that is skipped, or left at its base datetime. -/
def Passage.KeptOrSkipped : Passage → Prop
  | .skipped | .scheduled _ _ => True
  | _ => False

/-- An event whose clock is read right. -/
def Passage.ReadRight : Passage → Prop
  | .scheduled r b => r = Datetime.time b
  | _ => True

/-- Less than a day passes between two consecutive datetimes. -/
abbrev GapsBelowDay (ts : List Datetime) : Prop :=
  ts.IsChain (fun t t' => t' - t < day)

section Calendar

variable {c : Calendar} {t : Datetime}

variable {ps : List Passage} (hps : ∀ p ∈ ps, p.KeptOrSkipped)
include hps

/-- The calendar never goes back. -/
theorem Calendar.At.targets_inOrder
    (h : c.At t 0) :
    InOrder (some t) (targets c ps) := by
  induction ps generalizing c t with
  | nil =>
      simp [InOrder, targets]
  | cons p ps ih =>
      rw [List.forall_mem_cons] at hps
      cases p with
      | skipped =>
          simpa [InOrder, targets] using ih hps.2 h
      | untimed =>
          cases hps.1
      | added r b =>
          cases hps.1
      | scheduled r b =>
          rw [targets, h.target, InOrder]
          exact List.IsChain.cons_cons (le_nextAt t r) (ih hps.2 (h.after r b))

theorem targets_start_inOrder
    (start : Date) :
    InOrder none (targets (Calendar.atStart start) ps) := by
  induction ps with
  | nil =>
      simp [InOrder, targets]
  | cons p ps ih =>
      rw [List.forall_mem_cons] at hps
      cases p with
      | skipped =>
          simpa [InOrder, targets] using ih hps.2
      | untimed =>
          cases hps.1
      | added r b =>
          cases hps.1
      | scheduled r b =>
          exact (Calendar.atStart_after start r b).targets_inOrder hps.2

/--
After an event, the merge aims at the base datetimes exactly when their clocks
are read right and less than a day passes between two of them.
-/
theorem Calendar.At.targets_eq_iff
    (h : c.At t 0) (horder : InOrder (some t) (ps.map Passage.wanted)) :
    targets c ps = ps.map Passage.wanted ↔
      (∀ p ∈ ps, p.ReadRight) ∧
        GapsBelowDay (t :: (ps.map Passage.wanted).reduceOption) := by
  induction ps generalizing c t with
  | nil =>
      simp [targets]
  | cons p ps ih =>
      rw [List.forall_mem_cons] at hps ⊢
      obtain ⟨hle, hrest⟩ := horder.head
      cases p with
      | skipped =>
          have hskip := ih hps.2 h hrest
          simpa [targets, Passage.wanted, Passage.ReadRight] using hskip
      | untimed =>
          cases hps.1
      | added r b =>
          cases hps.1
      | scheduled r b =>
          have htb : t ≤ b := max_eq_right_iff.1 (hle b rfl)
          have hfloor : floorAfter (some t) (some b) = some b := by
            simp [floorAfter, max_eq_right htb]
          rw [Passage.wanted, hfloor] at hrest
          have hsplit :
              ((Passage.scheduled r b).ReadRight ∧ ∀ p ∈ ps, p.ReadRight) ∧
                  GapsBelowDay (t :: b :: (ps.map Passage.wanted).reduceOption) ↔
                nextAt t r = b ∧ (∀ p ∈ ps, p.ReadRight) ∧
                  GapsBelowDay (b :: (ps.map Passage.wanted).reduceOption) := by
            rw [nextAt_eq_iff htb, GapsBelowDay, List.isChain_cons_cons]
            exact and_and_and_comm
          rw [targets, h.target, List.map_cons, Passage.wanted,
            List.reduceOption_cons_of_some, hsplit, List.cons.injEq,
            Option.some.injEq]
          refine and_congr_right (fun hnext => ?_)
          subst hnext
          exact ih hps.2 (h.after r (nextAt t r)) hrest

/-- So does it from the start of a trip whose first event is on its date. -/
theorem targets_start_eq_iff
    (start : Date) (horder : InOrder none (ps.map Passage.wanted)) :
    targets (Calendar.atStart start) ps = ps.map Passage.wanted ↔
      (∀ p ∈ ps, p.ReadRight) ∧
        (∀ t ∈ (ps.map Passage.wanted).reduceOption.head?,
          Datetime.date t = start) ∧
        GapsBelowDay (ps.map Passage.wanted).reduceOption := by
  induction ps with
  | nil =>
      simp [targets]
  | cons p ps ih =>
      rw [List.forall_mem_cons] at hps ⊢
      obtain ⟨-, hrest⟩ := horder.head
      cases p with
      | skipped =>
          have hskip := ih hps.2 hrest
          simpa [targets, Passage.wanted, Passage.ReadRight] using hskip
      | untimed =>
          cases hps.1
      | added r b =>
          cases hps.1
      | scheduled r b =>
          have htarget :
              (Calendar.atStart start).target (.scheduled r b) =
                some (combine start r) := rfl
          rw [targets, htarget, List.map_cons, Passage.wanted,
            List.reduceOption_cons_of_some, List.cons.injEq,
            Option.some.injEq, combine_eq_iff, List.head?_cons]
          simp only [Option.mem_def, Option.some.injEq, forall_eq',
            Passage.ReadRight]
          have htail :
              start = Datetime.date b ∧ r = Datetime.time b →
              (targets ((Calendar.atStart start).after (.scheduled r b)) ps =
                  ps.map Passage.wanted ↔
                (∀ p ∈ ps, p.ReadRight) ∧
                  GapsBelowDay
                    (b :: (ps.map Passage.wanted).reduceOption)) := by
            intro hb
            have hat := Calendar.atStart_after start r b
            rw [(combine_eq_iff start r b).2 hb] at hat
            exact hat.targets_eq_iff hps.2 hrest
          constructor
          · rintro ⟨hb, htargets⟩
            rcases (htail hb).1 htargets with ⟨hright, hgaps⟩
            exact ⟨⟨hb.2, hright⟩, hb.1.symm, hgaps⟩
          · rintro ⟨⟨hr, hright⟩, hdate, hgaps⟩
            exact ⟨⟨hdate.symm, hr⟩,
              (htail ⟨hdate.symm, hr⟩).2 ⟨hright, hgaps⟩⟩

end Calendar

/-- An event left at its base datetime, without delay, or deleted. -/
def LeftOrDeleted (st : StopTimeUpdate) (e : StopEvent) : Prop :=
  st.isStopEventDeleted e = true ∨
    st.getStopEventStatus e = .none ∧ (st.getStopEventDelay e).getD 0 = 0

instance (st : StopTimeUpdate) (e : StopEvent) :
    Decidable (LeftOrDeleted st e) :=
  inferInstanceAs (Decidable (_ ∨ _))

/-- The base datetimes of the events of a stop that are not deleted. -/
def keptTimes (x : Events Datetime) (st : StopTimeUpdate) :
    Events (Option Datetime) where
  arrival :=
    if st.isStopEventDeleted .arrival then none else some x.arrival
  departure :=
    if st.isStopEventDeleted .departure then none else some x.departure

theorem keptTimes_get
    (x : Events Datetime) (st : StopTimeUpdate) (e : StopEvent) :
    (keptTimes x st).get e =
      if st.isStopEventDeleted e then none else some (x.get e) := by
  cases e <;> rfl

/-- The clocks read for the events of a stop that are not deleted. -/
def ReadsOwnClock
    (vjSts : List StopTime) (x : Events Datetime) (st : StopTimeUpdate) :
    Prop :=
  ∀ e, st.isStopEventDeleted e = false →
    (findStInVj st.stopId vjSts).bind (fun s => s.utcTime e) =
      some (Datetime.time (x.get e))

/-- What the feed says about an event, given the stop time it is read from. -/
def passageOf
    (s : StopTime) (x : Events Datetime) (st : StopTimeUpdate)
    (e : StopEvent) : Passage :=
  if st.isStopEventDeleted e then .skipped
  else
    match s.utcTime e with
    | some r => .scheduled r (x.get e)
    | none => .untimed

section Passages

variable {s : StopTime} {x : Events Datetime} {st : StopTimeUpdate}
variable {e : StopEvent}

theorem wanted_passageOf
    (hread : (s.utcTime e).isSome) :
    (passageOf s x st e).wanted = (keptTimes x st).get e := by
  obtain ⟨r, hr⟩ := Option.isSome_iff_exists.1 hread
  rw [passageOf, keptTimes_get, hr]
  split <;> rfl

theorem keptOrSkipped_passageOf
    (hread : (s.utcTime e).isSome) :
    (passageOf s x st e).KeptOrSkipped := by
  obtain ⟨r, hr⟩ := Option.isSome_iff_exists.1 hread
  rw [passageOf, hr]
  split <;> trivial

theorem readRight_passageOf
    (hread : (s.utcTime e).isSome) :
    (passageOf s x st e).ReadRight ↔
      (st.isStopEventDeleted e = false →
        s.utcTime e = some (Datetime.time (x.get e))) := by
  obtain ⟨r, hr⟩ := Option.isSome_iff_exists.1 hread
  rw [passageOf, hr]
  cases st.isStopEventDeleted e <;> simp [Passage.ReadRight]

theorem says_passageOf
    {f : FeedStop} (hst : LeftOrDeleted f.newSt e) :
    f.Says e (passageOf f.navitiaStop x f.newSt e) := by
  unfold passageOf
  split
  · assumption
  · rename_i hkept
    rcases hst with hdeleted | ⟨hstatus, hdelay⟩
    · exact absurd hdeleted hkept
    · cases hr : f.navitiaStop.utcTime e with
      | none =>
          exact ⟨hstatus, hdelay, hr⟩
      | some r =>
          exact ⟨hstatus, hdelay, hr⟩

/-- What the feed says about the two events of a stop. -/
def passagesOf (s : StopTime) (x : Events Datetime) (st : StopTimeUpdate) :
    Events Passage where
  arrival := passageOf s x st .arrival
  departure := passageOf s x st .departure

theorem passagesOf_get
    (s : StopTime) (x : Events Datetime) (st : StopTimeUpdate)
    (e : StopEvent) :
    (passagesOf s x st).get e = passageOf s x st e := by
  cases e <;> rfl

theorem map_wanted_passagesOf
    (hread : ∀ e, (s.utcTime e).isSome) :
    (passagesOf s x st).map Passage.wanted = keptTimes x st := by
  have ha :
      (passageOf s x st .arrival).wanted = (keptTimes x st).arrival :=
    wanted_passageOf (hread .arrival)
  have hd :
      (passageOf s x st .departure).wanted = (keptTimes x st).departure :=
    wanted_passageOf (hread .departure)
  exact congrArg₂ Events.mk ha hd

end Passages

section Feed

variable {vjSts : List StopTime}

/-- A stop of the run is that of the feed, read from the vehicle journey. -/
structure ReadFrom (vjSts : List StopTime) (f : FeedStop) (st : StopTimeUpdate) :
    Prop where
  newSt : f.newSt = st
  found : findStInVj st.stopId vjSts = some f.navitiaStop

/-- The stops of a feed on the vehicle journey are read from there. -/
theorem scheduledStops_read
    (j : Nat) {stus : List StopTimeUpdate}
    (hfound : ∀ st ∈ stus, (findStInVj st.stopId vjSts).isSome) :
    List.Forall₂ (ReadFrom vjSts) (scheduledStops vjSts j stus) stus := by
  induction stus generalizing j with
  | nil =>
      exact List.Forall₂.nil
  | cons st rest ih =>
      rw [List.forall_mem_cons] at hfound
      obtain ⟨vjSt, hvj⟩ := Option.isSome_iff_exists.1 hfound.1
      obtain ⟨sp, hsp, -⟩ :=
        Option.map_eq_some_iff.1 (findStInVj_stopId hvj)
      simp only [scheduledStops, hvj, hsp]
      exact List.Forall₂.cons ⟨rfl, hvj⟩ (ih (j + 1) hfound.2)

theorem map_newSt_of_read
    {fs : List FeedStop} {stus : List StopTimeUpdate}
    (hread : List.Forall₂ (ReadFrom vjSts) fs stus) :
    fs.map FeedStop.newSt = stus := by
  rw [← List.map_id stus, RelatedLists.map_eq_map_iff]
  exact hread.imp (fun _ _ hst => hst.newSt)

/-- What a feed that only deletes events says, stop by stop. -/
theorem exists_passages
    (hread : ∀ s ∈ vjSts, ∀ e, (s.utcTime e).isSome)
    {fs : List FeedStop} {stus : List StopTimeUpdate}
    (hfs : List.Forall₂ (ReadFrom vjSts) fs stus)
    {base : List (Events Datetime)} (hlen : base.length = stus.length)
    (hevents : ∀ st ∈ stus, ∀ e, LeftOrDeleted st e) :
    ∃ ps,
      List.Forall₂ (fun f p => ∀ e, f.Says e (p.get e)) fs ps ∧
      ps.map (Events.map Passage.wanted) =
        List.zipWith keptTimes base stus ∧
      (∀ p ∈ Events.list ps, p.KeptOrSkipped) ∧
      ((∀ p ∈ Events.list ps, p.ReadRight) ↔
        List.Forall₂ (ReadsOwnClock vjSts) base stus) := by
  induction hfs generalizing base with
  | nil =>
      cases base with
      | nil =>
          exact ⟨[], List.Forall₂.nil, rfl, by simp [Events.list],
            by simp [Events.list]⟩
      | cons x base =>
          cases hlen
  | @cons f st fs stus hf hrest ih =>
      cases base with
      | nil =>
          cases hlen
      | cons x base =>
          rw [List.forall_mem_cons] at hevents
          obtain ⟨ps, hsaid, hwanted, hkept, hright⟩ :=
            ih (Nat.succ.inj hlen) hevents.2
          rcases hf with ⟨rfl, hfind⟩
          have hreads := hread f.navitiaStop (List.mem_of_find?_eq_some hfind)
          have hown :
              (∀ e, (passageOf f.navitiaStop x f.newSt e).ReadRight) ↔
                ReadsOwnClock vjSts x f.newSt := by
            refine forall_congr' (fun e => ?_)
            rw [readRight_passageOf (hreads e), hfind]
            exact Iff.rfl
          refine ⟨passagesOf f.navitiaStop x f.newSt :: ps,
            List.Forall₂.cons ?_ hsaid, ?_, ?_, ?_⟩
          · intro e
            rw [passagesOf_get]
            exact says_passageOf (hevents.1 e)
          · rw [List.map_cons, map_wanted_passagesOf hreads, hwanted]
            rfl
          · simp only [Events.list, List.forall_mem_cons]
            exact ⟨keptOrSkipped_passageOf (hreads .arrival),
              keptOrSkipped_passageOf (hreads .departure), hkept⟩
          · simp only [Events.list, List.forall_mem_cons, passagesOf]
            rw [hright, List.forall₂_cons, ← hown, StopEvent.forall_iff,
              and_assoc]

end Feed

/-- What the calendar needs to survive the deletions of a complete feed. -/
structure KeepsCalendar
    (start : Date) (vjSts : List StopTime) (base : List (Events Datetime))
    (stus : List StopTimeUpdate) : Prop where
  origin : ∃ st, stus.head? = some st ∧
    ∃ e, st.isStopEventDeleted e = false
  ownClocks : List.Forall₂ (ReadsOwnClock vjSts) base stus
  firstKept : ∀ t ∈ (Events.list
    (List.zipWith keptTimes base stus)).reduceOption.head?,
    Datetime.date t = start
  gaps : GapsBelowDay
    (Events.list (List.zipWith keptTimes base stus)).reduceOption

/-- The kept datetimes are some of those of the timetable. -/
theorem keptTimes_sublist
    (base : List (Events Datetime)) (stus : List StopTimeUpdate) :
    (Events.list (List.zipWith keptTimes base stus)).reduceOption.Sublist
      (Events.list base) := by
  induction base generalizing stus with
  | nil =>
      simp [Events.list]
  | cons x base ih =>
      cases stus with
      | nil =>
          simp [Events.list]
      | cons st stus =>
          simp only [List.zipWith_cons_cons, Events.list, keptTimes]
          have hrest := ih stus
          cases st.isStopEventDeleted .arrival <;>
            cases st.isStopEventDeleted .departure
          · exact (hrest.cons_cons x.departure).cons_cons x.arrival
          · exact (hrest.cons x.departure).cons_cons x.arrival
          · exact (hrest.cons_cons x.departure).cons x.arrival
          · exact (hrest.cons x.departure).cons x.arrival

theorem keptTimes_inOrder
    {start : Date} {vjSts : List StopTime} {base : List (Events Datetime)}
    (h : Timetable start vjSts base) (stus : List StopTimeUpdate) :
    InOrder none (Events.list (List.zipWith keptTimes base stus)) := by
  have hchain : (Events.list base).IsChain (· ≤ ·) :=
    h.chain.imp (fun _ _ hle => hle.1)
  rw [List.isChain_iff_pairwise] at hchain
  rw [InOrder, Option.toList_none, List.nil_append]
  exact (hchain.sublist (keptTimes_sublist base stus)).isChain

theorem LeftOrDeleted.carriesDelays
    {st : StopTimeUpdate} (h : ∀ e, LeftOrDeleted st e) :
    CarriesDelays st := by
  intro e hupdate
  rcases h e with hdeleted | ⟨hstatus, -⟩
  · simp [StopTimeUpdate.isStopEventDeleted, hupdate,
      ModificationType.isDeleted] at hdeleted
  · rw [hupdate] at hstatus
    cases hstatus

/-- The stops of the vehicle journey are found there. -/
theorem findStInVj_isSome
    {vjSts : List StopTime} {stus : List StopTimeUpdate}
    (h : List.Forall₂ (fun s st => s.stopId = some st.stopId) vjSts stus) :
    ∀ st ∈ stus, (findStInVj st.stopId vjSts).isSome := by
  intro st hst
  obtain ⟨s, hs, hid⟩ := RelatedLists.exists_of_mem_right h hst
  rw [findStInVj, List.find?_isSome]
  exact ⟨s, hs, by simp [hid]⟩

/-- The stop times of a timetable have their two times. -/
theorem Timetable.utcTime_isSome
    {start : Date} {vjSts : List StopTime} {base : List (Events Datetime)}
    (h : Timetable start vjSts base) :
    ∀ s ∈ vjSts, ∀ e, (s.utcTime e).isSome := by
  intro s hs e
  obtain ⟨x, -, hclock⟩ := RelatedLists.exists_of_mem_left h.clocks hs
  simp [hclock e]

/-- The first recorded stop has times unless both of its events are deleted. -/
theorem recorded_origin_iff
    {fs : List FeedStop} (hne : fs ≠ []) {ps : List (Events Passage)}
    (hsaid : List.Forall₂ (fun f p => ∀ e, f.Says e (p.get e)) fs ps)
    {base : List (Events Datetime)}
    (hwanted : ps.map (Events.map Passage.wanted) =
      List.zipWith keptTimes base (fs.map FeedStop.newSt))
    (c : Calendar) :
    (∀ st ∈ ((turns c none fs).map MergedStop.resSt).head?,
        st.arrival.isSome) ↔
      ∃ st, (fs.map FeedStop.newSt).head? = some st ∧
        ∃ e, st.isStopEventDeleted e = false := by
  cases hsaid with
  | nil =>
      exact absurd rfl hne
  | @cons f p fs ps hf hrest =>
      cases base with
      | nil =>
          cases hwanted
      | cons x base =>
          simp only [List.map_cons, List.zipWith_cons_cons,
            List.cons.injEq] at hwanted
          have hkept :
              (∃ e, (p.get e).wanted.isSome) ↔
                ∃ e, f.newSt.isStopEventDeleted e = false := by
            refine exists_congr (fun e => ?_)
            rw [← Events.get_map Passage.wanted, hwanted.1, keptTimes_get]
            cases f.newSt.isStopEventDeleted e <;> simp
          have hfirst := FeedStop.recorded_arrival_isSome_iff hf c
          rw [hkept] at hfirst
          simpa [turns, FeedStop.turn, FeedStop.merged] using hfirst

section Deletions

variable {b : Builder} {new : NewTripUpdate} {base : List (Events Datetime)}
variable {fs : List FeedStop}

/-- A feed without any stop is not accepted. -/
theorem processTripUpdate_nil
    (hstatus : new.status ≠ .delete)
    (hfs : List.Forall₂ (FeedStop.Resolves new)
      (stopsToGoThrough new.navitiaVj none new b.isNewComplete) []) :
    (processTripUpdate b none new).linked = .ok false := by
  have hrun := mergeStops_eq hfs
  rw [processTripUpdate_unchanged hstatus hrun]

/-- The run over the stops of such a feed is accepted, with its datetimes. -/
theorem deletions_run_iff
    (hne : fs ≠ [])
    (hindexed : Indexed
      ((turns (startCalendar new.vj) none fs).map MergedStop.resSt))
    (hread : List.Forall₂ (ReadFrom new.navitiaVj.stopTimes) fs
      new.stopTimeUpdates)
    (hbase : Timetable new.vj.getCirculationDate new.navitiaVj.stopTimes base)
    (hlen : base.length = new.stopTimeUpdates.length)
    (hevents : ∀ st ∈ new.stopTimeUpdates, ∀ e, LeftOrDeleted st e) :
    ((manageConsistency
          ((turns (startCalendar new.vj) none fs).map
            MergedStop.resSt)).1 = true ∧
        List.Forall₂ RecordedOnTime
          (List.zipWith keptTimes base new.stopTimeUpdates)
          ((turns (startCalendar new.vj) none fs).map MergedStop.resSt)) ↔
      KeepsCalendar new.vj.getCirculationDate new.navitiaVj.stopTimes base
        new.stopTimeUpdates := by
  obtain ⟨ps, hsaid, hwanted, hkept, hright⟩ :=
    exists_passages hbase.utcTime_isSome hread hlen hevents
  have hall := map_newSt_of_read hread
  have hlist :
      (Events.list ps).map Passage.wanted =
        Events.list (List.zipWith keptTimes base new.stopTimeUpdates) := by
    rw [← Events.list_map, hwanted]
  have horder : InOrder none ((Events.list ps).map Passage.wanted) := by
    rw [hlist]
    exact keptTimes_inOrder hbase new.stopTimeUpdates
  have hforward :
      InOrder none (targets (startCalendar new.vj) (Events.list ps)) :=
    targets_start_inOrder hkept new.vj.getCirculationDate
  have hcalendar :
      targets (startCalendar new.vj) (Events.list ps) =
        (Events.list ps).map Passage.wanted ↔ _ :=
    targets_start_eq_iff hkept new.vj.getCirculationDate horder
  have horigin :=
    recorded_origin_iff hne hsaid (hall ▸ hwanted) (startCalendar new.vj)
  rw [hall] at horigin
  rw [manageConsistency_accepts_iff (turns_chained _ _ _) hindexed, horigin,
    ← hwanted, recordedOnTime_iff hsaid hforward horder, hcalendar, hright,
    hlist]
  constructor
  · rintro ⟨hfirst, hclocks, hdate, hgaps⟩
    exact ⟨hfirst, hclocks, hdate, hgaps⟩
  · rintro ⟨hfirst, hclocks, hdate, hgaps⟩
    exact ⟨hfirst, hclocks, hdate, hgaps⟩

/--
A complete feed that leaves or deletes each event is accepted, with every kept
event published at its base datetime without delay, exactly when the deletions
keep the calendar.
-/
theorem deletions_published_iff
    (hb : b.isNewComplete = true) (hstatus : new.status ≠ .delete)
    (hindexed : Indexed new.stopTimeUpdates)
    (hstops : List.Forall₂ (fun s st => s.stopId = some st.stopId)
      new.navitiaVj.stopTimes new.stopTimeUpdates)
    (hbase : Timetable new.vj.getCirculationDate new.navitiaVj.stopTimes base)
    (hevents : ∀ st ∈ new.stopTimeUpdates, ∀ e, LeftOrDeleted st e) :
    ((processTripUpdate b none new).linked = .ok true ∧
        List.Forall₂ RecordedOnTime
          (List.zipWith keptTimes base new.stopTimeUpdates)
          (processTripUpdate b none new).tripUpdate.stopTimeUpdates) ↔
      KeepsCalendar new.vj.getCirculationDate new.navitiaVj.stopTimes base
        new.stopTimeUpdates := by
  have hfound := findStInVj_isSome hstops
  obtain ⟨hfs, hin⟩ :=
    scheduledStops_resolves none new.navitiaVj.stopTimes hindexed
      List.drop_zero hfound
  have hread := scheduledStops_read 0 hfound
  have hlen : base.length = new.stopTimeUpdates.length := by
    rw [← hbase.clocks.length_eq, hstops.length_eq]
  have hdelays : FeedCarriesDelays new :=
    fun st hst => LeftOrDeleted.carriesDelays (hevents st hst)
  have hgo :
      stopsToGoThrough new.navitiaVj none new b.isNewComplete =
        yieldNextStopFrom none new.navitiaVj.stopTimes 0
          new.stopTimeUpdates := by
    rw [hb]
    rfl
  rw [← hgo] at hfs
  generalize scheduledStops new.navitiaVj.stopTimes 0 new.stopTimeUpdates = fs
    at hfs hin hread
  by_cases hne : fs = []
  · subst hne
    have hnil : new.stopTimeUpdates = [] := List.forall₂_nil_left_iff.1 hread
    rw [processTripUpdate_nil hstatus hfs]
    refine iff_of_false (by simp) (fun h => ?_)
    obtain ⟨st, hst, -⟩ := h.origin
    simp [hnil] at hst
  · have hrecorded :=
      hin.turns_indexed hindexed (map_newSt_of_read hread)
        (startCalendar new.vj) none
    rw [processTripUpdate_fresh hstatus hdelays hfs hin hne, Except.ok.injEq]
    exact deletions_run_iff hne hrecorded hread hbase hlen hevents

end Deletions

namespace Sample

/-- A stop whose two events a feed deletes. -/
def deleted (id : String) (order : Nat) : StopTimeUpdate :=
  { unchanged id order with
    arrivalStatus := .delete
    departureStatus := .delete }

/-- A feed on three stops that deletes the second one. -/
def shortened : NewTripUpdate :=
  { onTime with
    stopTimeUpdates :=
      [unchanged "sp:a" 0, deleted "sp:b" 1, unchanged "sp:c" 2] }

/-- The datetimes of the three stops. -/
def threeStopsBase : List (Events Datetime) :=
  [⟨clock 8 0, clock 8 0⟩, ⟨clock 8 5, clock 8 6⟩, ⟨clock 8 20, clock 8 20⟩]

/-- A trip that reaches its last stop more than a day after it left the first. -/
def overnightBase : List (Events Datetime) :=
  [⟨clock 8 0, clock 8 0⟩, ⟨clock 20 0, clock 20 0⟩,
    ⟨clock 33 0, clock 33 0⟩]

/-- A feed on this trip that deletes the stop of the evening. -/
def overnight : NewTripUpdate :=
  feed (clock 8 0)
    [stopTime "sp:a" (clock 8 0) (clock 8 0),
      stopTime "sp:b" (clock 20 0) (clock 20 0),
      stopTime "sp:c" (clock 33 0) (clock 33 0)]
    .update
    [unchanged "sp:a" 0, deleted "sp:b" 1, unchanged "sp:c" 2]

theorem threeStops_timetable :
    Timetable onTime.vj.getCirculationDate threeStops threeStopsBase := by
  constructor <;> decide

theorem overnight_timetable :
    Timetable overnight.vj.getCirculationDate overnight.navitiaVj.stopTimes
      overnightBase := by
  constructor <;> decide

end Sample

theorem deletions_published_iff_shortened :
    ((processTripUpdate Sample.cots none Sample.shortened).linked =
          .ok true ∧
        List.Forall₂ RecordedOnTime
          (List.zipWith keptTimes Sample.threeStopsBase
            Sample.shortened.stopTimeUpdates)
          (processTripUpdate Sample.cots none
            Sample.shortened).tripUpdate.stopTimeUpdates) ↔
      KeepsCalendar Sample.shortened.vj.getCirculationDate
        Sample.shortened.navitiaVj.stopTimes Sample.threeStopsBase
        Sample.shortened.stopTimeUpdates :=
  deletions_published_iff rfl (by decide) (by decide) (by decide)
    Sample.threeStops_timetable (by decide)

/-- The last stop of the overnight trip is published one day too early. -/
theorem deletions_misdate_overnight :
    Sample.overnight.status ≠ .delete ∧
      (∃ st ∈ Sample.overnight.stopTimeUpdates, ∃ e,
        st.isStopEventDeleted e = false) ∧
      Indexed Sample.overnight.stopTimeUpdates ∧
      List.Forall₂ (fun s st => s.stopId = some st.stopId)
        Sample.overnight.navitiaVj.stopTimes
        Sample.overnight.stopTimeUpdates ∧
      Timetable Sample.overnight.vj.getCirculationDate
        Sample.overnight.navitiaVj.stopTimes Sample.overnightBase ∧
      (∀ st ∈ Sample.overnight.stopTimeUpdates, ∀ e, LeftOrDeleted st e) ∧
      (processTripUpdate Sample.cots none Sample.overnight).linked =
        .ok true ∧
      ¬ List.Forall₂ RecordedOnTime
        (List.zipWith keptTimes Sample.overnightBase
          Sample.overnight.stopTimeUpdates)
        (processTripUpdate Sample.cots none
          Sample.overnight).tripUpdate.stopTimeUpdates :=
  ⟨by decide, by decide, by decide, by decide, Sample.overnight_timetable,
    by decide⟩

end Core
end Kirin
