import Kirin.Cots.AddedTrain
import Mathlib.Data.List.TakeWhile

/-!
# Kirin: the recognition of an added COTS train by its number

An added train is stored under each of the numbers `headsigns` reads in
`numeroCourse`, and looked for under `numeroCourse` itself.

* `PlainNumber`: a number without leading zero and without parity.
* `mem_headsigns_iff`: a train is one of its own numbers exactly when its number
  is plain.
* `added_train_recognised_iff`: a train that has just been added is recognised
  exactly when its number is plain, its last arrival is not more than one hour
  before its first departure, and the trip that was found before, if any, was
  deleted and started then.
-/

namespace Kirin
namespace Cots

open Kirin.Core

/-- A number without leading zero and without parity. -/
def PlainNumber (n : String) : Prop :=
  n.toList.head? ≠ some '0' ∧ '/' ∉ n.toList

instance (n : String) : Decidable (PlainNumber n) :=
  inferInstanceAs (Decidable (_ ∧ _))

section Numbers

variable {n : String}

/-- A plain number is its only number. -/
theorem headsigns_of_plain
    (h : PlainNumber n) :
    headsigns n = [n] := by
  have hzeros : n.toList.dropWhile (fun c => c == '0') = n.toList := by
    cases hlist : n.toList with
    | nil =>
        rfl
    | cons c rest =>
        have hc := h.1
        rw [hlist] at hc
        have hne : c ≠ '0' := by
          simpa using hc
        simp [hne]
  simp only [headsigns, hzeros, if_neg h.2, String.ofList_toList]

/-- A plain number is the single number of its train. -/
theorem singleNumber_of_plain
    (hplain : PlainNumber n) :
    SingleNumber n n := by
  intro h hh
  rw [headsigns_of_plain hplain] at hh
  exact List.mem_singleton.1 hh

/-- The numbers read around a parity are shorter than the whole. -/
theorem length_around_parity
    {h : List Char} (hslash : '/' ∈ h) :
    (h.takeWhile (fun c => c != '/')).length +
        ((h.dropWhile (fun c => c != '/')).drop 1).length <
      h.length := by
  have hsplit := congrArg List.length
    (List.takeWhile_append_dropWhile (p := fun c => c != '/') (l := h))
  have hrest : h.dropWhile (fun c => c != '/') ≠ [] := by
    intro hnil
    have hall := List.dropWhile_eq_nil_iff.1 hnil '/' hslash
    simp at hall
  have hpos := List.length_pos_iff.2 hrest
  rw [List.length_append] at hsplit
  rw [List.length_drop]
  omega

theorem length_cutLast_le
    (l : List Char) (k : Nat) :
    (cutLast l k).length ≤ l.length := by
  unfold cutLast
  split
  · exact Nat.zero_le _
  · rw [List.length_take]
    omega

/-- A train is one of its own numbers exactly when its number is plain. -/
theorem mem_headsigns_iff :
    n ∈ headsigns n ↔ PlainNumber n := by
  constructor
  · intro hmem
    have hle := List.length_dropWhile_le (fun c => c == '0') n.toList
    simp only [headsigns] at hmem
    split at hmem
    · rename_i hslash
      have hlt := length_around_parity hslash
      have hcut := length_cutLast_le
        ((n.toList.dropWhile (fun c => c == '0')).takeWhile
          (fun c => c != '/'))
        (((n.toList.dropWhile (fun c => c == '0')).dropWhile
          (fun c => c != '/')).drop 1).length
      -- both numbers are too short to be the whole one
      rcases List.mem_cons.1 hmem with heq | hmem
      · have hlength := congrArg (fun s => s.toList.length) heq
        simp only [String.toList_ofList] at hlength
        omega
      · have hlength := congrArg (fun s => s.toList.length)
          (List.mem_singleton.1 hmem)
        simp only [String.toList_ofList, List.length_append] at hlength
        omega
    · rename_i hslash
      have hzeros := congrArg String.toList (List.mem_singleton.1 hmem)
      rw [String.toList_ofList] at hzeros
      rw [← hzeros] at hslash
      refine ⟨fun hhead => ?_, hslash⟩
      cases hlist : n.toList with
      | nil =>
          rw [hlist] at hhead
          cases hhead
      | cons c rest =>
          rw [hlist] at hhead hzeros
          cases hhead
          have hlength := congrArg List.length hzeros
          have hshort := List.length_dropWhile_le (fun c => c == '0') rest
          simp only [beq_self_eq_true, List.dropWhile_cons_of_pos,
            List.length_cons] at hlength
          omega
  · intro hplain
    rw [headsigns_of_plain hplain]
    exact List.mem_singleton.2 rfl

end Numbers

/--
The next feed finds the trip of the trip updates given, which is added: it is
recognised, and an addition is refused.
-/
def Recognised
    (rows : List TripUpdate) (ts : List NewTripUpdate) (v : DictVersion)
    (n : String) (pdps : List Pdp) (vjStart vjEnd : Datetime) : Prop :=
  (∃ row, findTripAddedInDb rows n vjStart vjEnd = some row ∧
      ∃ t ∈ ts, row.vj.datedKey = t.vj.datedKey) ∧
    (v.statutOperationnel ≠ some .ajoutee →
      getActionOnTrip rows n v pdps = .ok .previouslyAdded) ∧
    (v.statutOperationnel = some .ajoutee →
      ∃ detail, getActionOnTrip rows n v pdps =
        .error (.invalidArguments detail))

/-- The trip found before an addition, if any, is deleted and starts with it. -/
def DeletedBefore (rows : List TripUpdate) (n : String)
    (vjStart vjEnd : Datetime) : Prop :=
  ∀ old, findTripAddedInDb rows n vjStart vjEnd = some old →
    old.status = .delete ∧ old.vj.startTimestamp = vjStart

section Find

variable {rows : List TripUpdate} {n : String}
variable {vjStart vjEnd : Datetime} {v : DictVersion} {pdps : List Pdp}

/-- The answers to the next feed say that the stored trip is added. -/
theorem recognised_answers_iff
    (hspans : Spans pdps vjStart vjEnd) {row : TripUpdate}
    (hrow : findTripAddedInDb rows n vjStart vjEnd = some row) :
    ((v.statutOperationnel ≠ some .ajoutee →
        getActionOnTrip rows n v pdps = .ok .previouslyAdded) ∧
      (v.statutOperationnel = some .ajoutee →
        ∃ detail, getActionOnTrip rows n v pdps =
          .error (.invalidArguments detail))) ↔
      row.status = .add := by
  rw [getActionOnTrip_of_spans hspans, hrow]
  simp only [actionOnStored]
  constructor
  · rintro ⟨hother, hadds⟩
    by_cases hajoutee : v.statutOperationnel = some .ajoutee
    · obtain ⟨detail, h⟩ := hadds hajoutee
      by_contra hne
      simp only [hajoutee, hne, and_false, if_false, ne_eq, not_true_eq_false,
        false_and, true_and] at h
      split at h <;> cases h
    · have h := hother hajoutee
      by_contra hne
      simp only [hajoutee, hne, false_and, if_false, ne_eq, not_false_eq_true,
        true_and] at h
      split at h <;> cases h
  · intro hadd
    constructor
    · intro hajoutee
      simp [hajoutee, hadd]
    · intro hajoutee
      simp only [hajoutee, hadd]
      exact ⟨_, rfl⟩

end Find

/-- What an addition that is accepted does, by the trip that is found before. -/
theorem action_of_ajoutee
    {n : String} {stored : Option TripUpdate} {action : ActionOnTrip}
    (h : actionOnStored n (some .ajoutee) stored = .ok action) :
    (action = .firstTimeAdded ∧ ∀ old ∈ stored, old.status = .delete) ∨
      (action = .notAdded ∧
        ∃ old ∈ stored, old.status ≠ .delete ∧ old.status ≠ .add) := by
  cases stored with
  | none =>
      cases h
      exact Or.inl ⟨rfl, fun old hold => nomatch hold⟩
  | some old =>
      cases hstatus : old.status with
      | add =>
          simp only [actionOnStored, hstatus] at h
          cases h
      | delete =>
          simp only [actionOnStored, hstatus] at h
          cases h
          refine Or.inl ⟨rfl, fun old' hold => ?_⟩
          cases hold
          exact hstatus
      | _ =>
          simp only [actionOnStored, hstatus] at h
          cases h
          refine Or.inr ⟨rfl, old, rfl, ?_, ?_⟩ <;> simp [hstatus]

section Added

variable {c : String} {db : Db} {f : Feed} {v v' : DictVersion} {n : String}
variable {pdps pdps' : List Pdp} {vjStart vjEnd : Datetime}
variable {ts : List NewTripUpdate}

/-- The trip updates of an addition of a train are added at its departure. -/
theorem added_of_firstTimeAdded
    (hreads : Reads f.raw v n pdps) (hajoutee : v.statutOperationnel = some .ajoutee)
    (hadds : Adds db.tripUpdates v n pdps .firstTimeAdded vjStart vjEnd)
    (hbuild : f.build c db.tripUpdates = .ok ts) :
    ∀ t ∈ ts, t.status = .add ∧
      ∃ h ∈ headsigns n, t.vj.datedKey = (trainIdFormat h, vjStart) := by
  intro t ht
  obtain ⟨found, hfound, hmade⟩ := RelatedLists.exists_of_mem_right
    (buildTripUpdates_added hreads hadds hbuild) ht
  obtain ⟨h, hh, rfl⟩ := mem_foldl_putVj hfound
  refine ⟨hmade.added ?_ hadds.added, h, hh, hmade.datedKey⟩
  rw [hajoutee]
  simp

/-- The trip updates of an addition that is taken as a modification. -/
theorem updated_of_notAdded
    (hreads : Reads f.raw v n pdps) (hajoutee : v.statutOperationnel = some .ajoutee)
    (haction : getActionOnTrip db.tripUpdates n v pdps = .ok .notAdded)
    (hbuild : f.build c db.tripUpdates = .ok ts) :
    ∀ t ∈ ts, t.status = .update := by
  intro t ht
  obtain ⟨action, vjs, haction', hts⟩ := build_ok hreads hbuild
  rw [haction] at haction'
  cases haction'
  obtain ⟨found, -, hmade⟩ := RelatedLists.exists_of_mem_right hts ht
  refine hmade.updated ?_ rfl
  rw [hajoutee]
  simp

/-- A recognised trip is one that a plain number has just added. -/
theorem plain_of_recognised
    (hreads : Reads f.raw v n pdps) (hspans : Spans pdps vjStart vjEnd)
    (hajoutee : v.statutOperationnel = some .ajoutee)
    (hbuild : f.build c db.tripUpdates = .ok ts) {row : TripUpdate}
    (hrow : findTripAddedInDb (step c db f).tripUpdates n vjStart vjEnd =
      some row)
    (hadd : row.status = .add) :
    PlainNumber n ∧ vjStart ≤ vjEnd + sncfSearchMargin ∧
      DeletedBefore db.tripUpdates n vjStart vjEnd := by
  obtain ⟨action, vjs, haction, -⟩ := build_ok hreads hbuild
  have hknown := haction
  rw [getActionOnTrip_of_spans hspans, hajoutee] at hknown
  obtain ⟨hmem, hid, hwindow⟩ := findTripAddedInDb_some hrow
  rcases receive_touched hbuild hmem with hold | ⟨t, ht, hstatus, hkey⟩
  · cases hfind : findTripAddedInDb db.tripUpdates n vjStart vjEnd with
    | none =>
        exact absurd hwindow (findTripAddedInDb_none hfind hold hid)
    | some old =>
        have heq : row = old := KeyedStore.eq_of_key_eq db.uniqueVj hold
          (findTripAddedInDb_some hfind).1
          (congrArg VehicleJourney.id (vj_of_found hfind hrow))
        rw [hfind] at hknown
        rcases action_of_ajoutee hknown with ⟨-, hdeleted⟩ | ⟨-, old', hold', -, hne⟩
        · rw [← heq] at hdeleted
          have := hdeleted row rfl
          rw [hadd] at this
          cases this
        · cases hold'
          exact absurd (heq ▸ hadd) hne
  · rcases action_of_ajoutee hknown with ⟨rfl, hdeleted⟩ | ⟨rfl, -⟩
    · have hadds : Adds db.tripUpdates v n pdps .firstTimeAdded vjStart
          vjEnd := ⟨hspans, by rw [hajoutee]; exact hknown, by simp⟩
      obtain ⟨-, h, hh, hkey'⟩ :=
        added_of_firstTimeAdded hreads hajoutee hadds hbuild t ht
      have hdated : row.vj.datedKey = (trainIdFormat h, vjStart) :=
        hkey.trans hkey'
      have hheadsign : row.vj.navitiaTripId = trainIdFormat h :=
        congrArg Prod.fst hdated
      have hstart : row.vj.startTimestamp = vjStart := congrArg Prod.snd hdated
      rw [hid] at hheadsign
      obtain rfl := trainIdFormat_inj hheadsign
      refine ⟨mem_headsigns_iff.1 hh, hstart ▸ hwindow.2, fun old hold => ?_⟩
      exact ⟨hdeleted old hold, by rw [← vj_of_found hold hrow, hstart]⟩
    · have := updated_of_notAdded hreads hajoutee haction hbuild t ht
      rw [← hstatus, hadd] at this
      cases this

/-- The trip that is found after an addition is the one that is added. -/
theorem datedKey_of_found
    {t : NewTripUpdate} (hbuild : f.build c db.tripUpdates = .ok [t])
    (hkey : t.vj.datedKey = (trainIdFormat n, vjStart))
    (hdeleted : DeletedBefore db.tripUpdates n vjStart vjEnd) {row : TripUpdate}
    (hrow : findTripAddedInDb (step c db f).tripUpdates n vjStart vjEnd =
      some row) :
    row.vj.datedKey = (trainIdFormat n, vjStart) := by
  obtain ⟨hmem, hid, hwindow⟩ := findTripAddedInDb_some hrow
  cases hbefore : findTripAddedInDb db.tripUpdates n vjStart vjEnd with
  | none =>
      rcases receive_touched hbuild hmem with hold | ⟨t', ht', -, hkey'⟩
      · exact absurd hwindow (findTripAddedInDb_none hbefore hold hid)
      · obtain rfl := List.mem_singleton.1 ht'
        exact hkey'.trans hkey
  | some old =>
      have hsame := vj_of_found hbefore hrow
      exact Prod.ext hid (hsame ▸ (hdeleted old hbefore).2)

/-- The trip that a plain number adds at a departure is the one found after. -/
theorem added_of_plain
    (hreads : Reads f.raw v n pdps) (hspans : Spans pdps vjStart vjEnd)
    (hajoutee : v.statutOperationnel = some .ajoutee)
    (hbuild : f.build c db.tripUpdates = .ok ts) (hnew : Unlinked db f.rtu)
    (hstored : (step c db f).tripUpdatesOf f.rtu ≠ [])
    (hplain : PlainNumber n) (hwindow : vjStart ≤ vjEnd + sncfSearchMargin)
    (hdeleted : DeletedBefore db.tripUpdates n vjStart vjEnd) :
    ∃ row, findTripAddedInDb (step c db f).tripUpdates n vjStart vjEnd =
        some row ∧
      row.status = .add ∧ ∃ t ∈ ts, row.vj.datedKey = t.vj.datedKey := by
  obtain ⟨action, vjs, haction, -⟩ := build_ok hreads hbuild
  rw [getActionOnTrip_of_spans hspans, hajoutee] at haction
  rcases action_of_ajoutee haction with ⟨rfl, -⟩ | ⟨-, old, hold, hne, -⟩
  · have hadds : Adds db.tripUpdates v n pdps .firstTimeAdded vjStart
        vjEnd := ⟨hspans, by rw [hajoutee]; exact haction, by simp⟩
    have hts := buildTripUpdates_added hreads hadds hbuild
    rw [headsigns_of_plain hplain] at hts
    obtain ⟨t, rfl⟩ : ∃ t, ts = [t] :=
      List.length_eq_one_iff.1 hts.length_eq.symm
    obtain ⟨hadd, h, hh, hkey⟩ :=
      added_of_firstTimeAdded hreads hajoutee hadds hbuild t
        List.mem_cons_self
    rw [headsigns_of_plain hplain, List.mem_singleton] at hh
    subst hh
    -- the row that is left for the trip is in the window
    have hmem := receive_linked hbuild hnew hstored
    generalize hleft : (processTripUpdate (builder c)
      (findByDatedVj db.tripUpdates t.vj) t).tripUpdate = left at hmem
    have hleftStatus : left.status = .add := by
      rw [← hleft, processTripUpdate_header.1, hadd]
    have hleftKey : left.vj.datedKey = (trainIdFormat h, vjStart) := by
      rw [← hleft, processTripUpdate_datedKey, hkey]
    have hleftWindow : InWindow vjStart vjEnd left.vj :=
      inWindow_of_start hwindow (congrArg Prod.snd hleftKey)
    cases hfind : findTripAddedInDb (step c db f).tripUpdates h vjStart vjEnd with
    | none =>
        exact absurd hleftWindow
          (findTripAddedInDb_none hfind hmem (congrArg Prod.fst hleftKey))
    | some row =>
        have hrow := (findTripAddedInDb_some hfind).1
        have hrowKey := datedKey_of_found hbuild hkey hdeleted hfind
        obtain rfl : row = left :=
          KeyedStore.eq_of_key_eq (step c db f).uniqueDatedVj hrow hmem
            (hrowKey.trans hleftKey.symm)
        exact ⟨row, rfl, hleftStatus, t, List.mem_cons_self,
          hrowKey.trans hkey.symm⟩
  · exact absurd (hdeleted old hold).1 hne

end Added

/--
A train that has just been added is recognised by the next feed of the same
period exactly when its number is plain, its last arrival is not more than one
hour before its first departure, and the trip found before was deleted and
started then.
-/
theorem added_train_recognised_iff
    {c : String} {db : Db} {f : Feed} {v v' : DictVersion} {n : String}
    {pdps pdps' : List Pdp} {vjStart vjEnd : Datetime}
    {ts : List NewTripUpdate}
    (hreads : Reads f.raw v n pdps) (hspans : Spans pdps vjStart vjEnd)
    (hajoutee : v.statutOperationnel = some .ajoutee)
    (hbuild : f.build c db.tripUpdates = .ok ts) (hnew : Unlinked db f.rtu)
    (hstored : (step c db f).tripUpdatesOf f.rtu ≠ [])
    (hspans' : Spans pdps' vjStart vjEnd) :
    Recognised (step c db f).tripUpdates ts v' n pdps' vjStart vjEnd ↔
      PlainNumber n ∧ vjStart ≤ vjEnd + sncfSearchMargin ∧
        DeletedBefore db.tripUpdates n vjStart vjEnd := by
  constructor
  · rintro ⟨⟨row, hrow, -⟩, hanswers⟩
    exact plain_of_recognised hreads hspans hajoutee hbuild hrow
      ((recognised_answers_iff hspans' hrow).1 hanswers)
  · rintro ⟨hplain, hwindow, hdeleted⟩
    obtain ⟨row, hrow, hadd, hkey⟩ :=
      added_of_plain hreads hspans hajoutee hbuild hnew hstored hplain hwindow
        hdeleted
    exact ⟨⟨row, hrow, hkey⟩, (recognised_answers_iff hspans' hrow).2 hadd⟩

namespace Sample

/-- A train is added at eight, under the given number. -/
def addition (number : String) : Feed :=
  received "1" number .ajoutee (points (Core.Sample.clock 8 0))

/-- The points that are read in the additions and in the next feeds. -/
def readPoints : List Pdp :=
  retrieveInterestingPdp (points (Core.Sample.clock 8 0))

/-- What is stored once a train is added under the given number. -/
def afterAddition (number : String) : Db :=
  step "realtime.cots" Core.Sample.emptyDb (addition number)

end Sample

theorem added_train_recognised_iff_plain :
    ∃ ts, (Sample.addition "8000").build "realtime.cots"
        Core.Sample.emptyDb.tripUpdates = .ok ts ∧
      Recognised (Sample.afterAddition "8000").tripUpdates ts
        (Sample.version "8000" .perturbee []) "8000" Sample.readPoints
        (Core.Sample.clock 8 0) (Core.Sample.clock 10 0) := by
  have hspans : Spans Sample.readPoints (Core.Sample.clock 8 0)
      (Core.Sample.clock 10 0) :=
    ⟨by decide, by decide⟩
  have hok : ((Sample.addition "8000").build "realtime.cots"
      Core.Sample.emptyDb.tripUpdates).isOk = true := by
    decide
  cases hbuild : (Sample.addition "8000").build "realtime.cots"
      Core.Sample.emptyDb.tripUpdates with
  | error e =>
      rw [hbuild] at hok
      cases hok
  | ok ts =>
      refine ⟨ts, rfl, (added_train_recognised_iff
        (Sample.reads_received "1" "8000" _ _) hspans rfl hbuild (by decide)
        (by decide) hspans).2 ⟨by decide, by decide, ?_⟩⟩
      intro old hold
      cases hold

/-- An addition under a number with leading zeros is stored, and not found. -/
theorem added_train_unrecognised_leadingZeros :
    (Sample.afterAddition "008000").tripUpdatesOf
        (Sample.addition "008000").rtu ≠ [] ∧
      getActionOnTrip (Sample.afterAddition "008000").tripUpdates "008000"
        (Sample.version "008000" .perturbee (Sample.points
          (Core.Sample.clock 8 0))) Sample.readPoints =
        .ok .notAdded ∧
      getActionOnTrip (Sample.afterAddition "008000").tripUpdates "008000"
        (Sample.version "008000" .ajoutee (Sample.points
          (Core.Sample.clock 8 0))) Sample.readPoints =
        .ok .firstTimeAdded := by
  decide

end Cots
end Kirin
