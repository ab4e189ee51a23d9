import Kirin.Core.FeedRun

/-!
# Kirin: the stops of a feed that the merge keeps

A complete feed may list stops outside the vehicle journey, which the loop of
the merge goes through or leaves out.  What is recorded depends on the stops it
goes through only, and so do the texts that are stored.

* `stopsKept`: the stops of a feed that the merge keeps.
* `newSt_eq_stopsKept`: they are those that the run of the feed goes through.
* `feedRow`: a row with the header of a feed and the stops it keeps.
* `processed_textsFit_iff`: the row left for a trip has the texts of that row.
-/

namespace Kirin
namespace Core

open FeedStop

/-- The stops of a complete feed the loop goes through. -/
def keptStops (db : Option TripUpdate) (vjSts : List StopTime) :
    Nat → List StopTimeUpdate → List StopTimeUpdate
  | _, [] => []
  | order, newStu :: rest =>
      let next := keptStops db vjSts (order + 1) rest
      if (findStInVj newStu.stopId vjSts).isSome || isKept db order newStu then
        newStu :: next
      else next

/-- The stops of a feed that the merge keeps. -/
def stopsKept (b : Builder) (old : Option TripUpdate) (new : NewTripUpdate) :
    List StopTimeUpdate :=
  if b.isNewComplete then
    keptStops old new.navitiaVj.stopTimes 0 new.stopTimeUpdates
  else new.stopTimeUpdates

theorem keptStops_sublist
    (db : Option TripUpdate) (vjSts : List StopTime) (j : Nat)
    (stus : List StopTimeUpdate) :
    (keptStops db vjSts j stus).Sublist stus := by
  induction stus generalizing j with
  | nil =>
      exact List.Sublist.slnil
  | cons newStu rest ih =>
      rw [keptStops]
      split
      · exact (ih (j + 1)).cons_cons newStu
      · exact (ih (j + 1)).cons newStu

theorem stopsKept_sublist
    (b : Builder) (old : Option TripUpdate) (new : NewTripUpdate) :
    (stopsKept b old new).Sublist new.stopTimeUpdates := by
  unfold stopsKept
  split
  · exact keptStops_sublist _ _ _ _
  · exact List.Sublist.refl _

section Resolution

variable {new : NewTripUpdate}

/-- A stop of the loop is resolved in one way only. -/
theorem resolves_unique
    {next : Except PyException (Nat × StopTime)} {f g : FeedStop}
    (hf : Resolves new next f) (hg : Resolves new next g) :
    f = g := by
  rcases f with ⟨order, nav, sp, newSt⟩
  rcases g with ⟨order', nav', sp', newSt'⟩
  have hnext := hf.next_eq.symm.trans hg.next_eq
  simp only [Except.ok.injEq, Prod.mk.injEq] at hnext
  rcases hnext with ⟨rfl, rfl⟩
  have hsp := hf.stopPoint_eq.symm.trans hg.stopPoint_eq
  simp only [Option.some.injEq] at hsp
  subst hsp
  have hnew := hf.newSt_eq.symm.trans hg.newSt_eq
  simp only [Option.some.injEq] at hnew
  rw [hnew]

theorem resolves_list_unique
    {items : List (Except PyException (Nat × StopTime))}
    {fs gs : List FeedStop}
    (hfs : List.Forall₂ (Resolves new) items fs)
    (hgs : List.Forall₂ (Resolves new) items gs) :
    fs = gs := by
  induction hfs generalizing gs with
  | nil =>
      cases hgs
      rfl
  | cons hf _ ih =>
      cases hgs with
      | cons hg hgs =>
          rw [resolves_unique hf hg, ih hgs]

/-- The stops resolved are those of the feed, at their place. -/
def Grounded (new : NewTripUpdate) (fs : List FeedStop) : Prop :=
  ∀ f ∈ fs, new.stopTimeUpdates[f.order]? = some f.newSt ∧
    f.stopPoint.id = f.newSt.stopId

theorem InFeed.grounded
    {j : Nat} {fs : List FeedStop} (h : InFeed new j fs) :
    Grounded new fs :=
  fun f hf => ⟨h.newSt_eq f hf, h.stopId_eq f hf⟩

theorem Grounded.tail
    {f : FeedStop} {fs : List FeedStop} (h : Grounded new (f :: fs)) :
    Grounded new fs :=
  fun g hg => h g (List.mem_cons_of_mem f hg)

/-- What a stop of the loop says about the stop resolved for it. -/
theorem resolves_head
    {k : Nat} {s : StopTime} {f : FeedStop} {fs : List FeedStop}
    {newStu : StopTimeUpdate}
    (hf : Resolves new (.ok (k, s)) f) (hfs : Grounded new (f :: fs))
    (hget : new.stopTimeUpdates[k]? = some newStu) :
    f.order = k ∧ f.navitiaStop = s ∧ f.newSt = newStu ∧
      f.stopPoint.id = newStu.stopId := by
  have hnext := hf.next_eq
  simp only [Except.ok.injEq, Prod.mk.injEq] at hnext
  obtain ⟨hnew, hid⟩ := hfs f List.mem_cons_self
  rw [← hnext.1, hget, Option.some.injEq] at hnew
  exact ⟨hnext.1.symm, hnext.2.symm, hnew.symm, by rw [hid, ← hnew]⟩

/-- A fake stop time that is resolved has been made. -/
theorem resolves_fake
    {db : Option TripUpdate} {j : Nat} {newStu : StopTimeUpdate}
    {f : FeedStop}
    (h : Resolves new
      ((makeFakeRealtimeStopTime j newStu.stopId newStu db).map
        (fun fake => (j, fake))) f) :
    ∃ fake, makeFakeRealtimeStopTime j newStu.stopId newStu db = .ok fake ∧
      Resolves new (.ok (j, fake)) f := by
  cases hfake : makeFakeRealtimeStopTime j newStu.stopId newStu db with
  | error e =>
      rw [hfake] at h
      have := h.next_eq
      cases this
  | ok fake =>
      rw [hfake] at h
      exact ⟨fake, rfl, h⟩

/-- The stops resolved for a complete feed are those the loop keeps. -/
theorem map_newSt_eq_keptStops
    {db : Option TripUpdate} {vjSts : List StopTime} {j : Nat}
    {stus : List StopTimeUpdate} {fs : List FeedStop}
    (hdrop : new.stopTimeUpdates.drop j = stus)
    (hfs : List.Forall₂ (Resolves new) (yieldNextStopFrom db vjSts j stus) fs)
    (hf : Grounded new fs) :
    fs.map FeedStop.newSt = keptStops db vjSts j stus := by
  induction stus generalizing j fs with
  | nil =>
      cases hfs
      rfl
  | cons newStu rest ih =>
      obtain ⟨hget, hrest⟩ := drop_eq_cons hdrop
      cases hvj : findStInVj newStu.stopId vjSts with
      | some vjSt =>
          rw [yieldNextStopFrom_found hvj] at hfs
          cases hfs with
          | @cons _ f _ fs hff hfs =>
              obtain ⟨-, -, fnew, -⟩ := resolves_head hff hf hget
              simp [keptStops, hvj, fnew, ih hrest hfs hf.tail]
      | none =>
          cases hk : isKept db j newStu with
          | false =>
              rw [yieldNextStopFrom_dropped hvj hk] at hfs
              simp [keptStops, hvj, hk, ih hrest hfs hf]
          | true =>
              rw [yieldNextStopFrom_kept hvj hk] at hfs
              cases hfs with
              | @cons _ f _ fs hff hfs =>
                  obtain ⟨fake, -, hff⟩ := resolves_fake hff
                  obtain ⟨-, -, fnew, -⟩ := resolves_head hff hf hget
                  simp [keptStops, hvj, hk, fnew, ih hrest hfs hf.tail]

end Resolution

/-- The stops recorded for the run of a feed. -/
def recordedStops (new : NewTripUpdate) (fs : List FeedStop) :
    List StopTimeUpdate :=
  (turns (startCalendar new.vj) none fs).map MergedStop.resSt

section Run

variable {b : Builder} {old : Option TripUpdate} {new : NewTripUpdate}
variable {fs : List FeedStop}

/-- The run of a feed goes through the stops that the merge keeps. -/
theorem newSt_eq_stopsKept
    (hfits : FitsBuilder b new)
    (hfs : List.Forall₂ (Resolves new)
      (stopsToGoThrough new.navitiaVj old new b.isNewComplete) fs)
    (hin : InFeed new 0 fs) :
    fs.map FeedStop.newSt = stopsKept b old new := by
  unfold stopsKept
  cases hcomplete : b.isNewComplete with
  | true =>
      rw [hcomplete] at hfs
      exact map_newSt_eq_keptStops List.drop_zero hfs hin.grounded
  | false =>
      obtain ⟨gs, hgs, -, -, hnew⟩ := baseSchedule_resolves hfits.indexed
        List.drop_zero (hfits.stops hcomplete)
      have hgs' : List.Forall₂ (Resolves new)
          (stopsToGoThrough new.navitiaVj old new b.isNewComplete) gs := by
        rw [hcomplete]
        simpa [stopsToGoThrough, yieldNextStopFromBaseScheduleVj, numbered]
          using hgs
      rw [resolves_list_unique hfs hgs']
      exact hnew

/-- The updates of the stops that the merge keeps carry their delays. -/
def KeptCarryDelays (b : Builder) (old : Option TripUpdate)
    (new : NewTripUpdate) : Prop :=
  ∀ st ∈ stopsKept b old new, CarriesDelays st

instance (b : Builder) (old : Option TripUpdate) (new : NewTripUpdate) :
    Decidable (KeptCarryDelays b old new) :=
  inferInstanceAs (Decidable (∀ st ∈ stopsKept b old new, CarriesDelays st))

/-- So do those of the stops that the run goes through. -/
theorem keptCarryDelays_iff
    (hfits : FitsBuilder b new)
    (hfs : List.Forall₂ (Resolves new)
      (stopsToGoThrough new.navitiaVj old new b.isNewComplete) fs)
    (hin : InFeed new 0 fs) :
    KeptCarryDelays b old new ↔ ∀ f ∈ fs, CarriesDelays f.newSt := by
  rw [KeptCarryDelays, ← newSt_eq_stopsKept hfits hfs hin,
    List.forall_mem_map]

end Run

section Texts

/-- The texts of a row are those of its header and those of its stops. -/
theorem textsFit_iff
    {tu : TripUpdate} :
    TextsFit tu ↔
      (∀ text ∈ tu.headerTexts, hasNul text = false) ∧
        ∀ texts ∈ tu.stopTimeUpdates.map StopTimeUpdate.texts,
          ∀ text ∈ texts, hasNul text = false := by
  simp only [TextsFit, TripUpdate.texts, List.mem_append, List.mem_flatMap,
    List.forall_mem_map]
  constructor
  · intro h
    exact ⟨fun text htext => h text (Or.inl htext),
      fun st hst text htext => h text (Or.inr ⟨st, hst, htext⟩)⟩
  · rintro ⟨hheader, hstops⟩ text (htext | ⟨st, hst, htext⟩)
    · exact hheader text htext
    · exact hstops st hst text htext

/-- The recorded stops have the texts of those of the feed. -/
theorem turns_texts
    (c : Calendar) (last : Option Datetime) {fs : List FeedStop}
    (hids : ∀ f ∈ fs, f.stopPoint.id = f.newSt.stopId) :
    ((turns c last fs).map MergedStop.resSt).map StopTimeUpdate.texts =
      (fs.map FeedStop.newSt).map StopTimeUpdate.texts := by
  induction fs generalizing c last with
  | nil =>
      rfl
  | cons f fs ih =>
      rw [List.forall_mem_cons] at hids
      have hfirst : (f.turn c last).resSt.texts = f.newSt.texts := by
        simp [FeedStop.turn, FeedStop.merged, FeedStop.recorded, builtStop,
          StopTimeUpdate.texts, hids.1]
      simp only [turns, List.map_cons, hfirst, ih _ _ hids.2]

/-- The consistency keeps the texts of the stops it adjusts. -/
theorem manageConsistency_texts
    {stus : List StopTimeUpdate} (hchain : Chained none stus) :
    (manageConsistency stus).2.map StopTimeUpdate.texts =
      stus.map StopTimeUpdate.texts :=
  manageConsistency_map (fun _ => rfl) hchain

/-- The consistency keeps the orders: its stops are read back as they are. -/
theorem reloadStops_managed
    {new : NewTripUpdate} {fs : List FeedStop} {j : Nat}
    (hin : InFeed new j fs) (c : Calendar) :
    reloadStops
        (manageConsistency ((turns c none fs).map MergedStop.resSt)).2 =
      (manageConsistency ((turns c none fs).map MergedStop.resSt)).2 :=
  reloadStops_of_increasing
    (manageConsistency_increasing (turns_chained c none fs)
      (hin.turns_increasing c none))

/-- The row of a trip with the header of a feed and the stops that it keeps. -/
def feedRow (b : Builder) (old : Option TripUpdate) (new : NewTripUpdate) :
    TripUpdate :=
  { mergeHeader old new b.isNewComplete with
    stopTimeUpdates :=
      if new.status = .delete then [] else stopsKept b old new }

variable {b : Builder} {old : Option TripUpdate} {new : NewTripUpdate}

/-- The row left for a trip has the texts of the header and of the stops kept. -/
theorem processed_textsFit_iff
    (hfits : FitsBuilder b new) (hold : ∀ row ∈ old, TextsFit row)
    {accepted : Bool}
    (hlinked : (processTripUpdate b old new).linked = .ok accepted)
    (hstored : old.isSome ∨ accepted = true) :
    TextsFit (processTripUpdate b old new).tripUpdate ↔
      TextsFit (feedRow b old new) := by
  by_cases hstatus : new.status = .delete
  · rw [processTripUpdate_cancelled hstatus, feedRow, if_pos hstatus]
  cases hstops : mergeStops new.navitiaVj old new b.isNewComplete with
  | error e =>
      rw [processTripUpdate_error hstatus hstops] at hlinked
      cases hlinked
  | ok r =>
      obtain ⟨stops, changed⟩ := r
      obtain ⟨fs, hfs, hin, rfl, hany⟩ := fitsVj_turns hfits hstops
      have hkept := newSt_eq_stopsKept hfits hfs hin
      have htexts := turns_texts (startCalendar new.vj) none hin.stopId_eq
      rw [hkept] at htexts
      rw [feedRow, if_neg hstatus, textsFit_iff, textsFit_iff]
      cases changed with
      | true =>
          rw [processTripUpdate_changed hstatus hstops]
          refine and_congr Iff.rfl ?_
          rw [reloadStops_managed hin,
            manageConsistency_texts (turns_chained _ none fs), htexts]
      | false =>
          rw [processTripUpdate_unchanged hstatus hstops] at hlinked ⊢
          cases hlinked
          refine and_congr Iff.rfl ?_
          obtain ⟨row, rfl⟩ :=
            Option.isSome_iff_exists.1 (hstored.resolve_right (by simp))
          have hrow := (textsFit_iff.1 (hold row rfl)).2
          refine iff_of_true hrow ?_
          -- nothing has changed, so that the stops kept are stored ones
          rw [← htexts, List.forall_mem_map]
          intro st hst
          have hfound := (changes_turns_iff hfs _ _).1 hany.symm st hst
          exact hrow _ (List.mem_map_of_mem (findStopIn_mem hfound))

end Texts

end Core
end Kirin
