import Kirin.Core.FeedLocality
import Kirin.Core.TouchedRows
import Kirin.Library.Runs
import Kirin.Piv.BuilderRules

/-!
# Kirin: the PIV worker

This module follows `process_message` of `kirin/command/piv_worker.py`.  Every
message of the queue goes through `wrapBuild` with the same builder and the same
session, whatever became of the previous ones: an exception is logged and the
message is acknowledged.  The raw text of a message is stored first, with what
the session still holds.  A session that has failed to commit raises whenever it
is used.

* `buildTripUpdates_single`: a message that can be built gives one trip update.
* `Harmless`: a message whose raw text and whose error can be stored, and that
  leaves the trip it is about as it is stored.
* `harmless_unchanged`: such a message changes no trip update and leaves the
  session clean.
* `failures_isolated`: in a run whose messages are harmless when they raise, the
  outcome of each message is the one it has after the messages that returned.
-/

namespace Kirin
namespace Piv

open Kirin.Core

def builder (contributorId : String) : Builder where
  contributorId := contributorId
  connector := .piv

/--
A message of the queue, with its text once parsed, and the identifiers and the
answers it will get.
-/
structure Message where
  id : String
  vjId : String
  raw : String
  body : RawData
  services : Services
  network : Network

/-- The `RealTimeUpdate` of a message. -/
def makeRtUpdate (contributorId : String) (m : Message) : RealTimeUpdate where
  id := m.id
  connector := .piv
  status := .ok
  error := none
  contributorId := contributorId

/-- The session of the process between two messages. -/
inductive ProcessSession
  | clean
  /-- Modifications are still to be committed, with the feed they come from. -/
  | pending (s : Session) (rtu : RealTimeUpdate)
  /-- A commit failed, and nothing rolls it back. -/
  | failed
deriving DecidableEq, Repr

/-- The database, and the session of the process. -/
structure Worker where
  db : Db
  session : ProcessSession

namespace Worker

/-- The next commit also writes what the session holds. -/
def commitPending (w : Worker) : Except PyException Db :=
  match w.session with
  | .clean => .ok w.db
  | .pending s rtu => dbCommit w.db s rtu
  | .failed => .error .invalidRequestError

/--
What becomes of a message.  Its text is stored by the same commit as what the
session still holds.
-/
def wrapBuild (c : String) (w : Worker) (m : Message) : HandleResult :=
  match w.commitPending with
  | .error e =>
      { db := w.db, published := none, session := .failed, outcome := .error e }
  | .ok db =>
      if hasNul m.raw then
        { db := w.db, published := none, session := .failed
          outcome := .error
            (if m.network.redisUp then .valueError else .connectionError) }
      else
        wrapBuildFeed (builder c) m.network db (makeRtUpdate c m)
          (fun _ =>
            (buildTripUpdates m.services c m.vjId m.body).map
              (fun ts => { error := none, tripUpdates := ts }))

/-- The session of the process after a feed: one without changes is clean. -/
def sessionAfter (rtu : RealTimeUpdate) (result : HandleResult) :
    ProcessSession :=
  match result.session with
  | .clean => .clean
  | .dirty s => if s = result.db.session then .clean else .pending s rtu
  | .failed => .failed

/-- The worker once a message is acknowledged. -/
def processMessage (c : String) (w : Worker) (m : Message) : Worker where
  db := (w.wrapBuild c m).db
  session := sessionAfter (makeRtUpdate c m) (w.wrapBuild c m)

/-- Whether a message does not raise. -/
def returns (c : String) (w : Worker) (m : Message) : Bool :=
  (w.wrapBuild c m).outcome.isOk

/-- The worker after the messages of a list. -/
def run (c : String) (w : Worker) (ms : List Message) : Worker :=
  ms.foldl (processMessage c) w

/-- The messages of a list that do not raise. -/
def returned (c : String) (w : Worker) (ms : List Message) : List Message :=
  Runs.kept (processMessage c) (returns c) w ms

/-- The messages of a list that raise. -/
def failed (c : String) (w : Worker) (ms : List Message) : List Message :=
  Runs.dropped (processMessage c) (returns c) w ms

end Worker

open Worker

/-- The same outcome, but for what is stored for some feeds. -/
structure SameOutcome (failures : List String) (result result' : HandleResult) :
    Prop where
  outcome : result.outcome = result'.outcome
  published : result.published = result'.published
  tripUpdates : result.db.tripUpdates = result'.db.tripUpdates
  realTimeUpdates : ∀ row, row.id ∉ failures →
    (row ∈ result.db.realTimeUpdates ↔ row ∈ result'.db.realTimeUpdates)
  links : ∀ p, p.1 ∉ failures →
    (p ∈ result.db.associations ↔ p ∈ result'.db.associations)

/--
Each message has the outcome it would have if the messages before it that raised
had not been received.
-/
def FailuresIsolated (c : String) (w : Worker) (ms : List Message) : Prop :=
  ∀ before m after, ms = before ++ m :: after →
    SameOutcome ((failed c w before).map Message.id)
      ((run c w before).wrapBuild c m)
      ((run c w (returned c w before)).wrapBuild c m)

/-- The identifier of a message is a new one. -/
def NewMessage (w : Worker) (m : Message) : Prop :=
  (∀ row ∈ w.db.realTimeUpdates, row.id ≠ m.id) ∧
    ∀ vjId, (m.id, vjId) ∉ w.db.associations

instance (w : Worker) (m : Message) : Decidable (NewMessage w m) :=
  decidable_of_iff
    ((∀ row ∈ w.db.realTimeUpdates, row.id ≠ m.id) ∧
      m.id ∉ w.db.associations.map Prod.fst)
    (by simp [NewMessage])

/-- The error of a feed that cannot be built leaves the session clean. -/
def LeavesClean (network : Network) (e : PyException) : Prop :=
  (errorOf e).takenByDriver = true ∨
    isInvalidInputException e = false ∧ network.redisUp = false

instance (network : Network) (e : PyException) :
    Decidable (LeavesClean network e) :=
  inferInstanceAs (Decidable (_ ∨ _))

/--
A message whose raw text can be stored, and whose trip updates cannot be built,
with an error that can be stored, or leave the trip it is about as it is stored.
-/
def Harmless (c : String) (w : Worker) (m : Message) : Prop :=
  hasNul m.raw = false ∧
    match buildTripUpdates m.services c m.vjId m.body with
    | .error e => LeavesClean m.network e
    | .ok ts => ∀ t ∈ ts,
        storedAfter (builder c) (findByDatedVj w.db.tripUpdates t.vj) t =
          findByDatedVj w.db.tripUpdates t.vj

instance (c : String) (w : Worker) (m : Message) : Decidable (Harmless c w m) :=
  match h : buildTripUpdates m.services c m.vjId m.body with
  | .error e =>
      decidable_of_iff (hasNul m.raw = false ∧ LeavesClean m.network e)
        (by simp [Harmless, h])
  | .ok ts =>
      decidable_of_iff (hasNul m.raw = false ∧ ∀ t ∈ ts,
        storedAfter (builder c) (findByDatedVj w.db.tripUpdates t.vj) t =
          findByDatedVj w.db.tripUpdates t.vj)
        (by simp [Harmless, h])

/-- A message that can be built gives one trip update. -/
theorem buildTripUpdates_single
    {services : Services} {contributorId newId : String} {raw : RawData}
    {ts : List NewTripUpdate}
    (h : buildTripUpdates services contributorId newId raw = .ok ts) :
    ∃ t, ts = [t] := by
  obtain ⟨train, found, t, hts, -⟩ := buildTripUpdates_ok h
  exact ⟨t, hts⟩

section Message

variable {c : String} {w : Worker} {m : Message}

theorem wrapBuild_eq
    (hclean : w.session = .clean) (hraw : hasNul m.raw = false) :
    w.wrapBuild c m =
      wrapBuildFeed (builder c) m.network w.db (makeRtUpdate c m)
        (fun _ =>
          (buildTripUpdates m.services c m.vjId m.body).map
            (fun ts => { error := none, tripUpdates := ts })) := by
  simp [Worker.wrapBuild, Worker.commitPending, hclean, hraw]

/-- A message whose raw text is refused stores nothing. -/
theorem wrapBuild_refused
    (hclean : w.session = .clean) (hraw : hasNul m.raw = true) :
    w.wrapBuild c m =
      { db := w.db, published := none, session := .failed
        outcome := .error
          (if m.network.redisUp then .valueError else .connectionError) } := by
  simp [Worker.wrapBuild, Worker.commitPending, hclean, hraw]

theorem wrapBuild_outcome
    (hclean : w.session = .clean) (hraw : hasNul m.raw = false) :
    FeedOutcome (builder c) m.network (w.db.saveRtu (makeRtUpdate c m))
      (makeRtUpdate c m)
      ((buildTripUpdates m.services c m.vjId m.body).map
        (fun ts => { error := none, tripUpdates := ts }))
      (w.wrapBuild c m) := by
  rw [wrapBuild_eq hclean hraw]
  exact wrapBuildFeed_outcome (builder c) m.network w.db (makeRtUpdate c m)
    (fun _ => (buildTripUpdates m.services c m.vjId m.body).map
      (fun ts => { error := none, tripUpdates := ts }))

/-- A trip update that leaves the stored trip as it is leaves the session so. -/
theorem handleLoop_unchanged
    {b : Builder} {db : Db} {t : NewTripUpdate} {s : Session}
    {r : Except PyException Unit}
    (h : storedAfter b (findByDatedVj db.tripUpdates t.vj) t =
      findByDatedVj db.tripUpdates t.vj)
    (hloop : handleLoop b db.session [t] = (s, r)) :
    s.allRows = db.tripUpdates ∧ s.links.Nodup ∧
      (∀ e, r = .error e → s = db.session) := by
  rw [handleLoop_single] at hloop
  have hs : s = (handleTripUpdate b db.session t).1 :=
    (congrArg Prod.fst hloop).symm
  have hr : r = (handleTripUpdate b db.session t).2 :=
    (congrArg Prod.snd hloop).symm
  have hrows := handleTripUpdate_unchanged h
  rw [← hs] at hrows
  refine ⟨hrows, hs ▸ links_single b db t, fun e he => ?_⟩
  -- a merge that raises creates and links nothing
  have hraised : (processTripUpdate b (findByDatedVj db.session.rows t.vj)
      t).linked ≠ .ok true := by
    intro hlinked
    rw [hr, handleTripUpdate_outcome, hlinked] at he
    cases he
  have hcreated : s.created = [] := by
    rw [hs, handleTripUpdate_created, if_neg]
    · rfl
    · rintro ⟨hnone, hlinked⟩
      rw [hnone] at hraised
      exact hraised hlinked
  have hlinks : s.links = [] := by
    rw [hs, handleTripUpdate_links, if_neg hraised]
    rfl
  rw [Session.allRows, hcreated, List.append_nil] at hrows
  exact Session.ext hrows hcreated hlinks

/-- A harmless message changes no trip update and leaves the session clean. -/
theorem harmless_unchanged
    (hclean : w.session = .clean) (hnew : NewMessage w m)
    (h : Harmless c w m) :
    (processMessage c w m).session = .clean ∧
      (w.wrapBuild c m).db.tripUpdates = w.db.tripUpdates := by
  obtain ⟨hraw, hbuild⟩ := h
  have houtcome := wrapBuild_outcome (c := c) hclean hraw
  have hfresh : ∀ vjId, ((makeRtUpdate c m).id, vjId) ∉ w.db.associations :=
    hnew.2
  cases hts : buildTripUpdates m.services c m.vjId m.body with
  | error e =>
      rw [hts] at houtcome hbuild
      have hleaves : LeavesClean m.network e := hbuild
      cases houtcome with
      | rejected e' hbuilt hexit =>
          cases hbuilt
          refine ⟨?_, hexit.unchanged.1⟩
          simp only [processMessage]
          generalize w.wrapBuild c m = result at hexit ⊢
          cases hexit with
          | recorded hforgotten htaken =>
              rfl
          | unforgotten hvalid hredis =>
              rfl
          | refused hforgotten hrefused =>
              rcases hleaves with htaken | ⟨hvalid, hredis⟩
              · rw [hrefused] at htaken
                cases htaken
              · rw [hvalid, hredis] at hforgotten
                simp at hforgotten
      | interrupted built s e' hbuilt hloop hexit =>
          cases hbuilt
      | returned built s hbuilt hloop hexit =>
          cases hbuilt
  | ok ts =>
      rw [hts] at houtcome hbuild
      obtain ⟨t, rfl⟩ := buildTripUpdates_single hts
      have hkeeps := hbuild t List.mem_cons_self
      have hfits : ∀ {s : Session} {rtu : RealTimeUpdate},
          s.allRows = w.db.tripUpdates → s.links.Nodup → rtu.id = m.id →
          rtu.ErrorFits →
          FitsDatabase (w.db.saveRtu (makeRtUpdate c m)) rtu s :=
        fun hrows hlinks hid herror =>
          fitsDatabase_of_rows hrows
            (nodup_associations (fun vjId => hid ▸ hfresh vjId) hlinks) herror
      cases houtcome with
      | rejected e hbuilt hexit =>
          cases hbuilt
      | interrupted built s e hbuilt hloop hexit =>
          cases hbuilt
          obtain ⟨hrows, hlinks, hsame⟩ := handleLoop_unchanged hkeeps hloop
          have htaken := (errorOf_takenByDriver (handleLoop_crashes hloop)).1
          simp only [processMessage]
          generalize w.wrapBuild c m = result at hexit ⊢
          cases hexit with
          | pending hredis =>
              -- nothing is left to be committed
              have hs : s = (w.db.saveRtu (makeRtUpdate c m)).session :=
                hsame e rfl
              simp [sessionAfter, hs]
          | committed db1 hredis hcommit =>
              exact ⟨rfl, (dbCommit_ok hcommit).1.trans hrows⟩
          | lost e' hredis hcommit =>
              exact absurd
                (hfits hrows hlinks rfl (setRtuStatusKo_errorFits.2 htaken))
                (not_fitsDatabase_of_error hcommit)
      | returned built s hbuilt hloop hexit =>
          cases hbuilt
          obtain ⟨hrows, hlinks, -⟩ := handleLoop_unchanged hkeeps hloop
          have hsession : (w.wrapBuild c m).session = .clean :=
            hexit.session.2.2 (hfits hrows hlinks rfl (by
              simp [RealTimeUpdate.ErrorFits, BuiltFeed.mark, makeRtUpdate]))
          refine ⟨by simp [processMessage, sessionAfter, hsession], ?_⟩
          rcases hexit.rows with ⟨-, -, hunclean⟩ | ⟨hleft, -⟩
          · exact absurd hsession hunclean
          · exact hleft.trans hrows

end Message

/--
The same trip updates in two workers, the first of which also holds what is
stored for some feeds.
-/
structure Aside (failures : List String) (w w' : Worker) : Prop where
  clean : w.session = .clean
  clean' : w'.session = .clean
  tripUpdates : w.db.tripUpdates = w'.db.tripUpdates
  kept : ∀ row ∈ w'.db.realTimeUpdates, row ∈ w.db.realTimeUpdates
  others : ∀ row ∈ w.db.realTimeUpdates,
    row ∈ w'.db.realTimeUpdates ∨ row.id ∈ failures
  keptLinks : ∀ p ∈ w'.db.associations, p ∈ w.db.associations
  otherLinks : ∀ p ∈ w.db.associations,
    p ∈ w'.db.associations ∨ p.1 ∈ failures

section Aside

variable {c : String} {failures : List String} {w w' : Worker} {m : Message}

theorem Aside.refl
    (hclean : w.session = .clean) :
    Aside failures w w where
  clean := hclean
  clean' := hclean
  tripUpdates := rfl
  kept := fun _ h => h
  others := fun _ h => Or.inl h
  keptLinks := fun _ h => h
  otherLinks := fun _ h => Or.inl h

/-- A new message whose text is stored has the same effect in both workers. -/
theorem Aside.sameEffect
    (h : Aside failures w w') (hnew : NewMessage w m)
    (hraw : hasNul m.raw = false) :
    SameEffect w.db w'.db m.id (w.wrapBuild c m) (w'.wrapBuild c m) := by
  have hunlinked : Unlinked w.db (makeRtUpdate c m) := hnew.2
  have hunlinked' : Unlinked w'.db (makeRtUpdate c m) :=
    fun vjId hmem => hnew.2 vjId (h.keptLinks _ hmem)
  rw [wrapBuild_eq h.clean hraw, wrapBuild_eq h.clean' hraw]
  exact wrapBuildFeed_sameEffect h.tripUpdates hunlinked hunlinked' _

/-- After the same effect, both databases differ by the same feeds. -/
theorem Aside.sameOutcome
    {result result' : HandleResult}
    (h : Aside failures w w')
    (heffect : SameEffect w.db w'.db m.id result result') :
    SameOutcome failures result result' where
  outcome := heffect.outcome
  published := heffect.published
  tripUpdates := heffect.change.rows
  realTimeUpdates := by
    intro row hrow
    obtain ⟨stored, -, hstores, hstores'⟩ := heffect.change.stored
    rw [hstores row, hstores' row]
    constructor
    · rintro (heq | ⟨hmem, hne⟩)
      · exact Or.inl heq
      · exact Or.inr ⟨(h.others row hmem).resolve_right hrow, hne⟩
    · rintro (heq | ⟨hmem, hne⟩)
      · exact Or.inl heq
      · exact Or.inr ⟨h.kept row hmem, hne⟩
  links := by
    intro p hp
    obtain ⟨links, -, hlinks, hlinks'⟩ := heffect.change.links
    rw [hlinks, hlinks', List.mem_append, List.mem_append]
    constructor
    · rintro (hold | hadded)
      · exact Or.inl ((h.otherLinks p hold).resolve_right hp)
      · exact Or.inr hadded
    · rintro (hold | hadded)
      · exact Or.inl (h.keptLinks p hold)
      · exact Or.inr hadded

/-- A new message has the same outcome in both workers. -/
theorem Aside.sameMessage
    (h : Aside failures w w') (hnew : NewMessage w m) :
    SameOutcome failures (w.wrapBuild c m) (w'.wrapBuild c m) := by
  cases hraw : hasNul m.raw with
  | false =>
      exact h.sameOutcome (h.sameEffect hnew hraw)
  | true =>
      rw [wrapBuild_refused h.clean hraw, wrapBuild_refused h.clean' hraw]
      exact
        { outcome := rfl
          published := rfl
          tripUpdates := h.tripUpdates
          realTimeUpdates := fun row hrow =>
            ⟨fun hmem => (h.others row hmem).resolve_right hrow, h.kept row⟩
          links := fun p hp =>
            ⟨fun hmem => (h.otherLinks p hmem).resolve_right hp,
              h.keptLinks p⟩ }

/-- The text of a message that returns has been stored. -/
theorem hasNul_of_returns
    (hclean : w.session = .clean) (hreturns : returns c w m = true) :
    hasNul m.raw = false := by
  by_contra hraw
  rw [Bool.not_eq_false] at hraw
  rw [returns, wrapBuild_refused hclean hraw] at hreturns
  cases hreturns

/-- A message that returns keeps the difference of the workers. -/
theorem Aside.returned
    (h : Aside failures w w') (hnew : NewMessage w m)
    (hreturns : returns c w m = true) :
    Aside failures (processMessage c w m) (processMessage c w' m) := by
  have hraw := hasNul_of_returns h.clean hreturns
  have heffect := h.sameEffect (c := c) hnew hraw
  have hsame := h.sameOutcome heffect
  have hsession : (w.wrapBuild c m).session = .clean :=
    (wrapBuild_outcome h.clean hraw).clean_of_ok hreturns
  obtain ⟨stored, hid, hstores, hstores'⟩ := heffect.change.stored
  obtain ⟨links, -, hlinks, hlinks'⟩ := heffect.change.links
  constructor
  · simp [processMessage, sessionAfter, hsession]
  · simp [processMessage, sessionAfter, ← heffect.session, hsession]
  · exact hsame.tripUpdates
  · intro row hrow
    rcases (hstores' row).1 hrow with heq | ⟨hmem, hne⟩
    · exact (hstores row).2 (Or.inl heq)
    · exact (hstores row).2 (Or.inr ⟨h.kept row hmem, hne⟩)
  · intro row hrow
    rcases (hstores row).1 hrow with heq | ⟨hmem, hne⟩
    · exact Or.inl ((hstores' row).2 (Or.inl heq))
    · refine (h.others row hmem).imp_left (fun hmem' => ?_)
      exact (hstores' row).2 (Or.inr ⟨hmem', hne⟩)
  · intro p hp
    simp only [processMessage, hlinks, hlinks', List.mem_append] at hp ⊢
    exact hp.imp_left (h.keptLinks p)
  · intro p hp
    simp only [processMessage, hlinks, hlinks', List.mem_append] at hp ⊢
    rcases hp with hold | hadded
    · exact (h.otherLinks p hold).imp_left Or.inl
    · exact Or.inl (Or.inr hadded)

/-- A harmless message that raises only adds to what is stored aside. -/
theorem Aside.failed
    (h : Aside failures w w') (hnew : NewMessage w m)
    (hharmless : Harmless c w m) (hfailed : m.id ∈ failures) :
    Aside failures (processMessage c w m) w' := by
  have hrefl : Aside failures w w := Aside.refl h.clean
  have heffect := hrefl.sameEffect (c := c) hnew hharmless.1
  obtain ⟨hsession, hrows⟩ := harmless_unchanged h.clean hnew hharmless
  obtain ⟨stored, hid, hstores, -⟩ := heffect.change.stored
  obtain ⟨links, hof, hlinks, -⟩ := heffect.change.links
  constructor
  · exact hsession
  · exact h.clean'
  · exact hrows.trans h.tripUpdates
  · intro row hrow
    have hmem := h.kept row hrow
    refine (hstores row).2 (Or.inr ⟨hmem, ?_⟩)
    rw [hid]
    exact hnew.1 row hmem
  · intro row hrow
    rcases (hstores row).1 hrow with rfl | ⟨hmem, -⟩
    · exact Or.inr (hid ▸ hfailed)
    · exact h.others row hmem
  · intro p hp
    simp only [processMessage, hlinks, List.mem_append]
    exact Or.inl (h.keptLinks p hp)
  · intro p hp
    simp only [processMessage, hlinks, List.mem_append] at hp
    rcases hp with hold | hadded
    · exact h.otherLinks p hold
    · exact Or.inr (hof p hadded ▸ hfailed)

end Aside

/--
In a run whose messages have new identifiers and are harmless when they raise,
the failures are isolated.
-/
theorem failures_isolated
    {c : String} {w : Worker} {ms : List Message}
    (hclean : w.session = .clean)
    (hnew : Runs.Along (processMessage c) NewMessage w ms)
    (hharmless : Runs.Along (processMessage c)
      (fun w m => returns c w m = false → Harmless c w m) w ms) :
    FailuresIsolated c w ms := by
  rintro before m after rfl
  obtain ⟨hnewBefore, hnewAfter⟩ := Runs.along_append.1 hnew
  have hfailed : Runs.Along (processMessage c)
      (fun w' m' => returns c w' m' = false → m' ∈ failed c w before)
      w before :=
    Runs.along_dropped.2 (fun m' hm' => hm')
  have halong := (hnewBefore.and (Runs.along_append.1 hharmless).1).and hfailed
  have haside : Aside ((failed c w before).map Message.id) (run c w before)
      (run c w (returned c w before)) := by
    refine Runs.kept_simulates ?_ ?_ halong (Aside.refl hclean)
    · intro w1 w1' m' hm' hreturns h
      exact h.returned hm'.1.1 hreturns
    · intro w1 w1' m' hm' hraises h
      exact h.failed hm'.1.1 (hm'.1.2 hraises)
        (List.mem_map.2 ⟨m', hm'.2 hraises, rfl⟩)
  exact haside.sameMessage hnewAfter.1

namespace Sample

def message (id : String) (body : RawData) : Message where
  id := id
  vjId := "vj:" ++ id
  raw := "{}"
  body := body
  services := services
  network := .up

/-- A message on a train that is late. -/
def late (id : String) : Message :=
  message id (feed (some [{ type := some .retard, texte := none }]))

/-- A worker that has just started. -/
def started : Worker where
  db := Core.Sample.emptyDb
  session := .clean

end Sample

theorem failures_isolated_notJson :
    FailuresIsolated "realtime.piv" Sample.started
      [Sample.late "1", Sample.message "2" (.notJson "no value"),
        Sample.late "3"] := by
  refine failures_isolated rfl ⟨by decide, by decide, by decide, trivial⟩ ?_
  exact ⟨fun hraises => absurd hraises (by decide), fun _ => by decide,
    fun hraises => absurd hraises (by decide), trivial⟩

/--
A message without disruption gets an effect that the database lacks, and the
next message raises as well.
-/
theorem failures_not_isolated_noEvenement :
    ¬ FailuresIsolated "realtime.piv" Sample.started
      [Sample.message "1" (Sample.feed none), Sample.late "2"] := by
  intro h
  have hsame := (h [Sample.message "1" (Sample.feed none)] (Sample.late "2") []
    rfl).outcome
  revert hsame
  decide

end Piv
end Kirin
