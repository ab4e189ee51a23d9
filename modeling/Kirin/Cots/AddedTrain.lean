import Kirin.Core.FeedLocality
import Kirin.Core.TouchedRows
import Kirin.Cots.BuilderRules

/-!
# Kirin: a feed on a train that navitia does not know

What becomes of the stored trips when a COTS feed is received, for a train that
navitia does not know and that has a single number.

* `LeavesTrips`, `Writable`: a feed that changes no trip, or can be written.
* `OfTrain`, `InWindow`: the trips of a train, around the period of a feed.
* `build_single`: such a feed is rejected, has nothing, or adds one trip.
* `receive_rejected`, `receive_empty`: a feed that changes no trip.
* `receive_some`, `receive_none`: a feed that finds its trip, or does not.
-/

namespace Kirin
namespace Cots

open Kirin.Core

def builder (contributorId : String) : Builder where
  contributorId := contributorId
  connector := .cots

/-- A feed that is received, with the identifiers and answers it will get. -/
structure Feed where
  rtu : RealTimeUpdate
  raw : RawData
  services : Services
  newId : String → String
  network : Network

/-- The trip updates that are built from a feed. -/
def Feed.build (c : String) (rows : List TripUpdate) (f : Feed) :
    Except PyException (List NewTripUpdate) :=
  buildTripUpdates f.services c f.newId rows f.raw

/-- The processing of a feed. -/
def receive (c : String) (db : Db) (f : Feed) : HandleResult :=
  wrapBuildFeed (builder c) f.network db f.rtu
    (fun rows =>
      (f.build c rows).map (fun ts => { error := none, tripUpdates := ts }))

/-- The database once a feed is processed. -/
def step (c : String) (db : Db) (f : Feed) : Db :=
  (receive c db f).db

/-- A feed changes nothing in the stored trips. -/
structure LeavesTrips (c : String) (db : Db) (f : Feed) : Prop where
  rows : (receive c db f).db.tripUpdates = db.tripUpdates
  links : (receive c db f).db.associations = db.associations
  published : (receive c db f).published = none

/-- What a feed leaves for its trip can be written, if Redis answers. -/
structure Writable
    (c : String) (f : Feed) (old : Option TripUpdate) (t : NewTripUpdate) :
    Prop where
  texts : TextsFit (processTripUpdate (builder c) old t).tripUpdate
  error : f.rtu.ErrorFits
  redis : f.network.redisUp = true

/-- A vehicle journey is stored under a number of a train. -/
def OfTrain (n : String) (vj : VehicleJourney) : Prop :=
  vj.navitiaTripId = trainIdFormat n ∨
    ∃ h ∈ headsigns n, vj.navitiaTripId = trainIdFormat h

instance (n : String) (vj : VehicleJourney) : Decidable (OfTrain n vj) :=
  inferInstanceAs (Decidable (_ ∨ _))

/-- A vehicle journey starts within the period that a feed searches. -/
def InWindow (vjStart vjEnd : Datetime) (vj : VehicleJourney) : Prop :=
  vjStart - sncfSearchMargin ≤ vj.startTimestamp ∧
    vj.startTimestamp ≤ vjEnd + sncfSearchMargin

instance (vjStart vjEnd : Datetime) (vj : VehicleJourney) :
    Decidable (InWindow vjStart vjEnd vj) :=
  inferInstanceAs (Decidable (_ ∧ _))

/-- A trip at the departure of a feed starts within the period it searches. -/
theorem inWindow_of_start
    {vjStart vjEnd : Datetime} {vj : VehicleJourney}
    (hwindow : vjStart ≤ vjEnd + sncfSearchMargin)
    (hstart : vj.startTimestamp = vjStart) :
    InWindow vjStart vjEnd vj := by
  have hmargin : 0 ≤ sncfSearchMargin := by
    decide
  rw [InWindow, hstart]
  exact ⟨Int.sub_le_self vjStart hmargin, hwindow⟩

/-- The numbers of a train are all the same one. -/
def SingleNumber (n h : String) : Prop :=
  ∀ n' ∈ headsigns n, n' = h

instance (n h : String) : Decidable (SingleNumber n h) :=
  inferInstanceAs (Decidable (∀ n' ∈ headsigns n, n' = h))

/-- Different numbers make different identifiers of trips. -/
theorem trainIdFormat_inj
    {n n' : String} (h : trainIdFormat n = trainIdFormat n') :
    n = n' := by
  have hlist := congrArg String.toList h
  simp only [trainIdFormat, String.toList_append, List.append_cancel_left_eq]
    at hlist
  exact String.toList_inj.1 hlist

section Find

variable {rows : List TripUpdate} {n : String} {vjStart vjEnd : Datetime}
variable {stored : TripUpdate}

/-- The stored trip of a train is one of its trips, around the period. -/
theorem findTripAddedInDb_some
    (h : findTripAddedInDb rows n vjStart vjEnd = some stored) :
    stored ∈ rows ∧ stored.vj.navitiaTripId = trainIdFormat n ∧
      InWindow vjStart vjEnd stored.vj := by
  have hmatch := List.find?_some h
  simp only [Bool.and_eq_true, beq_iff_eq, decide_eq_true_eq] at hmatch
  exact ⟨List.mem_of_find?_eq_some h, hmatch.1.1, hmatch.1.2, hmatch.2⟩

theorem findTripAddedInDb_none
    (h : findTripAddedInDb rows n vjStart vjEnd = none)
    {row : TripUpdate} (hrow : row ∈ rows)
    (hid : row.vj.navitiaTripId = trainIdFormat n) :
    ¬ InWindow vjStart vjEnd row.vj := by
  intro hwindow
  have hno := List.find?_eq_none.1 h row hrow
  simp [hid, hwindow.1, hwindow.2] at hno

/-- A trip at the departure of a feed is not stored when none is found. -/
theorem findByDatedVj_eq_none_of_absent
    (hnone : findTripAddedInDb rows n vjStart vjEnd = none)
    (hwindow : vjStart ≤ vjEnd + sncfSearchMargin) {vj : VehicleJourney}
    (hkey : vj.datedKey = (trainIdFormat n, vjStart)) :
    findByDatedVj rows vj = none := by
  cases hfind : findByDatedVj rows vj with
  | none => rfl
  | some old =>
      have hold := (findByDatedVj_key hfind).trans hkey
      exact absurd (inWindow_of_start hwindow (congrArg Prod.snd hold))
        (findTripAddedInDb_none hnone (findByDatedVj_mem hfind)
          (congrArg Prod.fst hold))

/-- The search only reads the vehicle journeys of the rows. -/
theorem findTripAddedInDb_map
    (rows : List TripUpdate) (n : String) (vjStart vjEnd : Datetime) :
    (findTripAddedInDb rows n vjStart vjEnd).map TripUpdate.vj =
      (rows.map TripUpdate.vj).find? (fun vj =>
        vj.navitiaTripId == trainIdFormat n
          && decide (vjStart - sncfSearchMargin ≤ vj.startTimestamp)
          && decide (vj.startTimestamp ≤ vjEnd + sncfSearchMargin)) := by
  rw [List.find?_map]
  rfl

/-- A trip found before new rows are added is found after. -/
theorem findTripAddedInDb_concat
    {rows' : List TripUpdate} {created : List VehicleJourney}
    (hvjs : rows'.map TripUpdate.vj = rows.map TripUpdate.vj ++ created)
    (hold : findTripAddedInDb rows n vjStart vjEnd = some stored) :
    ∃ row, findTripAddedInDb rows' n vjStart vjEnd = some row ∧
      row.vj = stored.vj := by
  have hfound := findTripAddedInDb_map rows n vjStart vjEnd
  have hfound' := findTripAddedInDb_map rows' n vjStart vjEnd
  rw [hold] at hfound
  rw [hvjs, List.find?_append, ← hfound] at hfound'
  obtain ⟨row, hrow, heq⟩ := Option.map_eq_some_iff.1 hfound'
  exact ⟨row, hrow, heq⟩

/-- A trip that is added in the period is found, when there was none. -/
theorem findTripAddedInDb_append
    (hnone : findTripAddedInDb rows n vjStart vjEnd = none)
    {row : TripUpdate} (hid : row.vj.navitiaTripId = trainIdFormat n)
    (hwindow : InWindow vjStart vjEnd row.vj) :
    findTripAddedInDb (rows ++ [row]) n vjStart vjEnd = some row := by
  rw [findTripAddedInDb, TripUpdate.findVjByPeriod] at hnone ⊢
  rw [List.find?_append, hnone, Option.none_or]
  apply List.find?_cons_of_pos
  simp [hid, hwindow.1, hwindow.2]

/-- A trip that is overwritten is found with what is left of it. -/
theorem findTripAddedInDb_replaceRow
    (hnodup : (rows.map (fun row => row.vj.id)).Nodup)
    (hfind : findTripAddedInDb rows n vjStart vjEnd = some stored)
    {row : TripUpdate} (hvj : row.vj = stored.vj) :
    findTripAddedInDb (replaceRow rows row) n vjStart vjEnd = some row := by
  have hstored := (findTripAddedInDb_some hfind).1
  have hkey := congrArg VehicleJourney.id hvj
  have hvjs : (replaceRow rows row).map TripUpdate.vj =
      rows.map TripUpdate.vj ++ [] := by
    rw [List.append_nil]
    exact KeyedStore.replace_map hnodup hstored hkey hvj
  obtain ⟨row', hrow', heq⟩ := findTripAddedInDb_concat hvjs hfind
  rw [hrow']
  -- both rows have the identifier of the trip
  have hnodup' : ((replaceRow rows row).map (fun row => row.vj.id)).Nodup := by
    rw [show (replaceRow rows row).map (fun row => row.vj.id) =
      rows.map (fun row => row.vj.id) from
        KeyedStore.replace_map hnodup hstored hkey hkey]
    exact hnodup
  exact congrArg some (KeyedStore.eq_of_key_eq hnodup'
    (findTripAddedInDb_some hrow').1 (KeyedStore.mem_replace hstored hkey)
    (congrArg VehicleJourney.id (heq.trans hvj.symm)))

end Find

section Build

variable {c : String} {rows : List TripUpdate} {f : Feed}
variable {v : DictVersion} {n h : String} {pdps : List Pdp}
variable {ts : List NewTripUpdate}

/-- The trip updates of a feed are made from what it reads and its action. -/
theorem build_ok
    (hreads : Reads f.raw v n pdps) (hbuild : f.build c rows = .ok ts) :
    ∃ action vjs, getActionOnTrip rows n v pdps = .ok action ∧
      List.Forall₂ (MadeFrom c v · action ·) vjs ts := by
  obtain ⟨v', n', pdps', action, vjs, hreads', haction, -, hts⟩ :=
    buildTripUpdates_ok hbuild
  obtain ⟨rfl, rfl, rfl⟩ := hreads.unique hreads'
  exact ⟨action, vjs, haction, hts⟩

/-- A feed that does not add its train has no trip update. -/
theorem build_notAdded
    (hreads : Reads f.raw v n pdps) (hunknown : UnknownTo f.services n)
    (haction : getActionOnTrip rows n v pdps = .ok .notAdded)
    (hbuild : f.build c rows = .ok ts) :
    ts = [] := by
  rcases buildTripUpdates_unknown hreads hunknown hbuild with
    hnone | ⟨action, vjStart, vjEnd, hadds, -⟩
  · exact hnone.2
  · rw [getActionOnTrip_of_spans hadds.spans, hadds.known] at haction
    cases haction
    exact absurd rfl hadds.added

/-- A feed on a train with a single number has nothing, or adds one trip. -/
theorem build_single
    (hreads : Reads f.raw v n pdps) (hunknown : UnknownTo f.services n)
    (hsingle : SingleNumber n h) (hbuild : f.build c rows = .ok ts) :
    (getActionOnTrip rows n v pdps = .ok .notAdded ∧ ts = []) ∨
      ∃ action vjStart vjEnd t, Adds rows v n pdps action vjStart vjEnd ∧
        ts = [t] ∧ MadeFrom c v (addedVj f.newId vjStart h) action t := by
  refine (buildTripUpdates_unknown hreads hunknown hbuild).imp_right ?_
  rintro ⟨action, vjStart, vjEnd, hadds, hts⟩
  rw [foldl_putVj_single f.newId vjStart hsingle (headsigns_ne_nil n)] at hts
  cases hts with
  | cons hmade hrest =>
      cases hrest
      exact ⟨action, vjStart, vjEnd, _, hadds, rfl, hmade⟩

/-- A feed that is taken as an addition adds one trip. -/
theorem build_adds
    {action : ActionOnTrip} {vjStart vjEnd : Datetime}
    (hreads : Reads f.raw v n pdps) (hunknown : UnknownTo f.services n)
    (hsingle : SingleNumber n h) (hspans : Spans pdps vjStart vjEnd)
    (haction : getActionOnTrip rows n v pdps = .ok action)
    (hadded : action ≠ .notAdded) (hbuild : f.build c rows = .ok ts) :
    ∃ t, ts = [t] ∧ MadeFrom c v (addedVj f.newId vjStart h) action t := by
  rcases build_single hreads hunknown hsingle hbuild with
    ⟨hnot, -⟩ | ⟨action', vjStart', vjEnd', t, hadds, hts, hmade⟩
  · rw [haction] at hnot
    cases hnot
    exact absurd rfl hadded
  · obtain ⟨rfl, rfl⟩ := hspans.unique hadds.spans
    rw [getActionOnTrip_of_spans hspans, hadds.known] at haction
    cases haction
    exact ⟨t, hts, hmade⟩

/-- A feed whose action is refused is rejected, without any other text. -/
theorem build_refused
    (hreads : Reads f.raw v n pdps) {detail : String}
    (haction : getActionOnTrip rows n v pdps =
      .error (.invalidArguments detail))
    (htext : hasNul detail = false) :
    ∃ detail', f.build c rows = .error (.invalidArguments detail') ∧
      hasNul detail' = false := by
  obtain ⟨listPdp, hl, rfl⟩ := hreads.points
  by_cases hshort : (retrieveInterestingPdp listPdp).length < 2
  · refine ⟨"invalid json, \"listePointDeParcours\" has less than 2 valid " ++
      "stop_times in json elt", ?_, by decide⟩
    simp only [Feed.build, buildTripUpdates, hreads.version, hreads.number, hl,
      getValue, bind, Except.bind, if_pos hshort]
    rfl
  · refine ⟨detail, ?_, htext⟩
    simp only [Feed.build, buildTripUpdates, hreads.version, hreads.number, hl,
      getValue, bind, Except.bind, if_neg hshort, haction]

end Build

section Receive

variable {c : String} {db : Db} {f : Feed} {t : NewTripUpdate}
variable {old : TripUpdate} {e : PyException}

theorem receive_outcome
    (c : String) (db : Db) (f : Feed) :
    FeedOutcome (builder c) f.network (db.saveRtu f.rtu) f.rtu
      ((f.build c db.tripUpdates).map
        (fun ts => { error := none, tripUpdates := ts })) (receive c db f) :=
  wrapBuildFeed_outcome (builder c) f.network db f.rtu (fun rows =>
    (f.build c rows).map (fun ts => { error := none, tripUpdates := ts }))

/-- A feed that cannot be built raises and changes no trip. -/
theorem receive_rejected
    (hbuild : f.build c db.tripUpdates = .error e) :
    (receive c db f).outcome.isOk = false ∧ LeavesTrips c db f := by
  have houtcome := receive_outcome c db f
  rw [hbuild] at houtcome
  cases houtcome with
  | rejected e hbuilt hexit =>
      obtain ⟨hrows, hlinks, hpublished, houtcome, -⟩ := hexit.unchanged
      exact ⟨houtcome, hrows, hlinks, hpublished⟩
  | interrupted built s e hbuilt hloop hexit =>
      cases hbuilt
  | returned built s hbuilt hloop hexit =>
      cases hbuilt

/-- A feed that is invalid raises its error when the driver takes it. -/
theorem receive_invalid
    {detail : String}
    (hbuild : f.build c db.tripUpdates = .error (.invalidArguments detail))
    (htext : hasNul detail = false) :
    (receive c db f).outcome = .error (.invalidArguments detail) := by
  have houtcome := receive_outcome c db f
  rw [hbuild] at houtcome
  cases houtcome with
  | rejected e hbuilt hexit =>
      cases hbuilt
      exact hexit.outcome_of_invalid rfl (by simp [errorOf,
        RtuError.takenByDriver, htext])
  | interrupted built s e hbuilt hloop hexit =>
      cases hbuilt
  | returned built s hbuilt hloop hexit =>
      cases hbuilt

/-- A feed without any trip update changes no trip. -/
theorem receive_empty
    (hbuild : f.build c db.tripUpdates = .ok []) :
    (receive c db f).db.tripUpdates = db.tripUpdates := by
  have houtcome := receive_outcome c db f
  rw [hbuild] at houtcome
  rcases houtcome.rows with hsame | ⟨built, s, r, hbuilt, hloop, hrows, -⟩
  · exact hsame.1
  · cases hbuilt
    cases hloop
    exact hrows.trans (List.append_nil _)

/-- A feed with one trip update commits the session it leaves, or nothing. -/
theorem receive_single
    (hbuild : f.build c db.tripUpdates = .ok [t]) :
    (receive c db f).db.tripUpdates = db.tripUpdates ∨
      (receive c db f).db.tripUpdates =
        (handleTripUpdate (builder c) db.session t).1.allRows := by
  have houtcome := receive_outcome c db f
  rw [hbuild] at houtcome
  rcases houtcome.rows with hsame | ⟨built, s, r, hbuilt, hloop, hrows, -⟩
  · exact Or.inl hsame.1
  · cases hbuilt
    rw [handleLoop_single] at hloop
    refine Or.inr (hrows.trans ?_)
    exact congrArg (fun p => p.1.allRows) hloop.symm

/-- A feed that finds its trip overwrites it, unless it cannot be written. -/
theorem receive_some
    (hbuild : f.build c db.tripUpdates = .ok [t])
    (hnew : Unlinked db f.rtu)
    (heffect : EffectInDatabase t.toTripUpdate)
    (hfind : findByDatedVj db.tripUpdates t.vj = some old) :
    (receive c db f).db.tripUpdates =
        replaceRow db.tripUpdates
          (processTripUpdate (builder c) (some old) t).tripUpdate ∨
      ¬ Writable c f (some old) t ∧ (receive c db f).outcome.isOk = false ∧
        LeavesTrips c db f := by
  have houtcome := receive_outcome c db f
  rw [hbuild] at houtcome
  rcases houtcome.rows_cases with
    ⟨hrows, hlinks, hunclean⟩ | ⟨built, s, r, hbuilt, hloop, hrows, -⟩
  · have hdirty := hunclean _ rfl
    obtain ⟨hraises, hpublished⟩ := houtcome.of_unclean hdirty
    refine Or.inr ⟨fun hwritable => hdirty ?_, hraises, hrows, hlinks, hpublished⟩
    refine houtcome.clean_of_fits hwritable.redis ?_
    rw [handleLoop_single]
    have hnew' : Unlinked (db.saveRtu f.rtu) f.rtu := hnew
    refine fitsDatabase_single hnew'
      (fun hnone => absurd (hfind.symm.trans hnone) nofun) heffect ?_
      hwritable.error
    intro row hrow
    rw [show findByDatedVj (db.saveRtu f.rtu).tripUpdates t.vj = some old
      from hfind, storedAfter_some, Option.mem_some_iff] at hrow
    exact hrow ▸ hwritable.texts
  · cases hbuilt
    rw [handleLoop_single] at hloop
    have hs : s = (handleTripUpdate (builder c) db.session t).1 :=
      (congrArg Prod.fst hloop).symm
    rw [hrows, hs]
    exact Or.inl (allRows_of_some hfind)

/-- A feed that does not find its trip adds a row for it, or none. -/
theorem receive_none
    (hbuild : f.build c db.tripUpdates = .ok [t])
    (hfind : findByDatedVj db.tripUpdates t.vj = none) :
    (receive c db f).db.tripUpdates = db.tripUpdates ∨
      (receive c db f).db.tripUpdates =
        db.tripUpdates ++
          [(processTripUpdate (builder c) none t).tripUpdate] := by
  refine (receive_single hbuild).elim Or.inl (fun hrows => ?_)
  rw [allRows_of_none hfind] at hrows
  split at hrows
  · exact Or.inr hrows
  · exact Or.inl (hrows.trans (List.append_nil _))

/-- A feed touches the rows of its trip updates only. -/
theorem receive_touched
    {ts : List NewTripUpdate} (hbuild : f.build c db.tripUpdates = .ok ts)
    {row : TripUpdate} (hrow : row ∈ (step c db f).tripUpdates) :
    row ∈ db.tripUpdates ∨ ∃ t ∈ ts, TouchedBy row t := by
  have houtcome := receive_outcome c db f
  rw [hbuild] at houtcome
  exact houtcome.touched hrow

/-- A feed keeps the vehicle journeys of the stored rows, and their places. -/
theorem receive_vj
    (c : String) (db : Db) (f : Feed) :
    ∃ created, (step c db f).tripUpdates.map TripUpdate.vj =
      db.tripUpdates.map TripUpdate.vj ++ created :=
  (receive_outcome c db f).rows_vj

/-- A trip that is found before a feed is found after it. -/
theorem vj_of_found
    {n : String} {vjStart vjEnd : Datetime} {row : TripUpdate}
    (hold : findTripAddedInDb db.tripUpdates n vjStart vjEnd = some old)
    (hrow : findTripAddedInDb (step c db f).tripUpdates n vjStart vjEnd =
      some row) :
    row.vj = old.vj := by
  obtain ⟨created, hvjs⟩ := receive_vj c db f
  obtain ⟨row', hrow', heq⟩ := findTripAddedInDb_concat hvjs hold
  obtain rfl : row = row' := Option.some.inj (hrow.symm.trans hrow')
  exact heq

/-- A feed with one trip update that is linked has stored what is left for it. -/
theorem receive_linked
    (hbuild : f.build c db.tripUpdates = .ok [t])
    (hnew : Unlinked db f.rtu)
    (hstored : (step c db f).tripUpdatesOf f.rtu ≠ []) :
    (processTripUpdate (builder c) (findByDatedVj db.tripUpdates t.vj)
      t).tripUpdate ∈ (step c db f).tripUpdates := by
  have houtcome := receive_outcome c db f
  rw [hbuild] at houtcome
  obtain ⟨row, hrow⟩ := List.exists_mem_of_ne_nil _ hstored
  have hlink : (f.rtu.id, row.vj.id) ∈ (receive c db f).db.associations := by
    simpa [step] using (List.mem_filter.1 hrow).2
  rcases houtcome.rows with hsame | ⟨built, s, r, hbuilt, hloop, hrows, hlinks⟩
  · rw [hsame.2] at hlink
    exact absurd hlink (hnew row.vj.id)
  · cases hbuilt
    rw [handleLoop_single] at hloop
    have hs : s = (handleTripUpdate (builder c) db.session t).1 :=
      (congrArg Prod.fst hloop).symm
    have hlinked : (processTripUpdate (builder c)
        (findByDatedVj db.session.rows t.vj) t).linked = .ok true := by
      by_contra hnot
      have hnone := handleTripUpdate_links (builder c) db.session t
      rw [if_neg hnot, ← hs] at hnone
      rw [hlinks, hnone] at hlink
      exact hnew row.vj.id (by simpa [Db.session] using hlink)
    have hmem := mem_allRows_of_linked hlinked
    rw [← hs, ← hrows] at hmem
    exact hmem

end Receive

namespace Sample

/-- A feed on a train that navitia does not know. -/
def received (id number : String) (status : TripStatus) (pdps : List Pdp) :
    Feed where
  rtu := Core.Sample.received id
  raw := .json (some (some (version number status pdps)))
  services := services
  newId := fun navitiaId => id ++ ":" ++ navitiaId
  network := .up

/-- What is read in such a feed. -/
theorem reads_received
    (id number : String) (status : TripStatus) (pdps : List Pdp) :
    Reads (received id number status pdps).raw (version number status pdps)
      number (retrieveInterestingPdp pdps) where
  version := rfl
  number := rfl
  points := ⟨pdps, rfl, rfl⟩

theorem unknownTo_services
    (number : String) :
    UnknownTo services number := by
  intro h _ since until' vjs hvjs
  cases hvjs
  rfl

end Sample

end Cots
end Kirin
