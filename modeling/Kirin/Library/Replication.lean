import Kirin.Library.KeyedStore
import Mathlib.Data.Set.Basic
import Mathlib.Logic.Relation

/-!
# Replication by a snapshot and a log

Writers commit to a store and announce what they have written, as batches of
keyed updates that reach the queue of a reader once or several times, or never.
A reader that starts again loses its queue, asks for a snapshot of the store and
then applies its queue on top of it, whatever has been written in the meantime.

* `latest`: the last update of a key in a log.
* `Announces`: a batch tells what a commit changes.
* `Step`: the steps of the writers, of the broker and of the reader.
* `Coherent`: once all that is on its way is applied, the reader agrees with the
  store, but for the updates that it has missed.
* `Coherent.of_run`: coherence is kept along every run.
* `exists_caughtUp`: a reader that applies its queue ends up with the store.
-/

namespace Replication

variable {σ κ β : Type}

/-- What a log leaves for each key: its last update. -/
def latest [DecidableEq κ] (log : List (κ × β)) : κ → Option β :=
  KeyedStore.apply (fun _ => none) log

/-- What a reader is doing. -/
inductive Reader (κ β : Type)
  /-- It has asked for a snapshot. -/
  | waiting
  /-- It has received a snapshot. -/
  | loading (snapshot : List (κ × β))
  /-- It applies its queue. -/
  | following (replica : κ → Option β)

/--
A store, the batches that its writers are about to announce, and a reader with
its queue and the keys of which it has missed the last update.
-/
structure Link (σ κ β : Type) where
  store : σ
  outbox : List (List (κ × β))
  queue : List (List (κ × β))
  reader : Reader κ β
  missed : Set κ

/-- What the reader has still to apply. -/
def Link.pending (l : Link σ κ β) : List (κ × β) :=
  l.queue.flatten ++ l.outbox.flatten

/-- What the reader has for a key, a snapshot that is yet to come being right. -/
def Reader.base [DecidableEq κ] (reader : Reader κ β) (k : κ) (v : β) :
    Option β :=
  match reader with
  | .waiting => some v
  | .loading snapshot => latest snapshot k
  | .following replica => replica k

section Log

variable [DecidableEq κ] {log log' : List (κ × β)} {k : κ}

@[simp] theorem latest_nil :
    latest ([] : List (κ × β)) k = none :=
  rfl

/-- A replica takes the last update of a key, if there is one. -/
theorem apply_eq_or
    (replica : κ → Option β) (log : List (κ × β)) (k : κ) :
    KeyedStore.apply replica log k = (latest log k).or (replica k) := by
  induction log generalizing replica with
  | nil =>
      rfl
  | cons u rest ih =>
      rcases u with ⟨k', v⟩
      rw [latest, KeyedStore.apply, KeyedStore.apply, ih, ih, Option.or_assoc]
      congr 1
      by_cases h : k = k' <;> simp [h]

@[simp] theorem latest_append :
    latest (log ++ log') k = (latest log' k).or (latest log k) := by
  rw [latest, KeyedStore.apply_append, apply_eq_or]
  rfl

/-- A log that comes several times leaves what it leaves the first time. -/
@[simp] theorem latest_replicate
    (n : Nat) (log : List (κ × β)) :
    latest (List.replicate (n + 1) log).flatten k = latest log k := by
  induction n with
  | zero =>
      simp
  | succ n ih =>
      rw [List.replicate_succ, List.flatten_cons, latest_append, ih,
        Option.or_self]

end Log

/-- A batch tells what a commit changes in the view of a reader. -/
def Announces [DecidableEq κ] (view : σ → κ → Option β) (s s' : σ)
    (batch : List (κ × β)) : Prop :=
  ∀ k v, view s' k = some v → (latest batch k).or (view s k) = some v

/-- A snapshot has what the view of a reader has. -/
def Covers [DecidableEq κ] (view : σ → κ → Option β) (s : σ)
    (snapshot : List (κ × β)) : Prop :=
  ∀ k v, view s k = some v → latest snapshot k = some v

/-- A batch and the batches before it are about different keys. -/
def Apart [DecidableEq κ] (before : List (List (κ × β)))
    (batch : List (κ × β)) : Prop :=
  ∀ k, latest before.flatten k = none ∨ latest batch k = none

/--
The steps of a link, the commits and the snapshots being given.  A batch may be
announced before an earlier one that is about other keys, come several times, or
be lost.
-/
inductive Step [DecidableEq κ] (Commits : σ → σ → List (κ × β) → Prop)
    (Answers : σ → List (κ × β) → Prop) :
    Link σ κ β → Link σ κ β → Prop
  | commit
      {l : Link σ κ β} {s' : σ} {batch : List (κ × β)}
      (hcommit : Commits l.store s' batch) :
      Step Commits Answers l
        { l with
          store := s'
          outbox := l.outbox ++ [batch]
          missed := {k | k ∈ l.missed ∧ latest batch k = none} }
  | announce
      {l : Link σ κ β} {before after : List (List (κ × β))}
      {batch : List (κ × β)} (n : Nat)
      (houtbox : l.outbox = before ++ batch :: after)
      (hapart : Apart before batch) :
      Step Commits Answers l
        { l with
          outbox := before ++ after
          queue := l.queue ++ List.replicate (n + 1) batch }
  | lose
      {l : Link σ κ β} {before after : List (List (κ × β))}
      {batch : List (κ × β)}
      (houtbox : l.outbox = before ++ batch :: after)
      (hapart : Apart before batch) :
      Step Commits Answers l
        { l with
          outbox := before ++ after
          missed := {k | k ∈ l.missed ∨
            latest batch k ≠ none ∧ latest after.flatten k = none} }
  | deliver
      {l : Link σ κ β} {replica : κ → Option β} {batch : List (κ × β)}
      {rest : List (List (κ × β))}
      (hreader : l.reader = .following replica)
      (hqueue : l.queue = batch :: rest) :
      Step Commits Answers l
        { l with
          queue := rest
          reader := .following (KeyedStore.apply replica batch) }
  | restart
      (l : Link σ κ β) :
      Step Commits Answers l
        { l with queue := [], reader := .waiting, missed := ∅ }
  | answer
      {l : Link σ κ β} {snapshot : List (κ × β)}
      (hreader : l.reader = .waiting) (hanswer : Answers l.store snapshot) :
      Step Commits Answers l { l with reader := .loading snapshot }
  | load
      {l : Link σ κ β} {snapshot : List (κ × β)}
      (hreader : l.reader = .loading snapshot) :
      Step Commits Answers l { l with reader := .following (latest snapshot) }

/--
Once all that is on its way is applied, the reader agrees with its view of the
store, but for the updates that it has missed.  What is yet to be announced
agrees with the store for every key, so that a reader may start again.
-/
structure Coherent [DecidableEq κ] (view : σ → κ → Option β)
    (l : Link σ κ β) : Prop where
  outbox : ∀ k v, view l.store k = some v →
    (latest l.outbox.flatten k).or (some v) = some v
  reader : ∀ k v, k ∉ l.missed → view l.store k = some v →
    (latest l.pending k).or (l.reader.base k v) = some v

/-- A reader that has nothing left to apply. -/
structure CaughtUp (l : Link σ κ β) (replica : κ → Option β) : Prop where
  reader : l.reader = .following replica
  queue : l.queue = []
  outbox : l.outbox = []

section Steps

variable [DecidableEq κ] {view : σ → κ → Option β}
variable {Commits : σ → σ → List (κ × β) → Prop}
variable {Answers : σ → List (κ × β) → Prop} {l l' : Link σ κ β}

/-- A reader that has just started again is coherent. -/
theorem Coherent.of_waiting
    (hreader : l.reader = .waiting) (hqueue : l.queue = [])
    (houtbox : l.outbox = []) :
    Coherent view l where
  outbox := by
    intro k v _
    rw [houtbox, List.flatten_nil, latest_nil, Option.none_or]
  reader := by
    intro k v _ _
    rw [Link.pending, hqueue, houtbox, hreader]
    rfl

/-- A batch may be taken before those that are about other keys. -/
theorem latest_of_apart
    {before after : List (List (κ × β))} {batch : List (κ × β)}
    (hapart : Apart before batch) (k : κ) :
    latest (before ++ batch :: after).flatten k =
      (latest (before ++ after).flatten k).or (latest batch k) := by
  simp only [List.flatten_append, List.flatten_cons, latest_append,
    Option.or_assoc]
  congr 1
  rcases hapart k with hnone | hnone <;> simp [hnone]

/-- What is left to be announced agrees with what was. -/
theorem outbox_of_apart
    {before after : List (List (κ × β))} {batch : List (κ × β)}
    (hapart : Apart before batch) {k : κ} {v : β}
    (h : (latest (before ++ batch :: after).flatten k).or (some v) = some v) :
    (latest (before ++ after).flatten k).or (some v) = some v := by
  rw [latest_of_apart hapart] at h
  cases hleft : latest (before ++ after).flatten k with
  | none =>
      rfl
  | some w =>
      rw [hleft] at h
      exact h

/-- A commit keeps the reader coherent, and makes up for what it has missed. -/
theorem Coherent.commit
    {s' : σ} {batch : List (κ × β)} (h : Coherent view l)
    (hannounces : Announces view l.store s' batch) :
    Coherent view
      { l with
        store := s'
        outbox := l.outbox ++ [batch]
        missed := {k | k ∈ l.missed ∧ latest batch k = none} } where
  outbox := by
    intro k v hv
    have hannounced := hannounces k v hv
    rw [List.flatten_append, List.flatten_singleton, latest_append,
      Option.or_assoc]
    cases hbatch : latest batch k with
    | some w =>
        rw [hbatch] at hannounced
        exact hannounced
    | none =>
        rw [hbatch, Option.none_or] at hannounced
        exact h.outbox k v hannounced
  reader := by
    intro k v hmissed hv
    have hannounced := hannounces k v hv
    rw [Link.pending, List.flatten_append, List.flatten_singleton,
      ← List.append_assoc, latest_append, Option.or_assoc]
    cases hbatch : latest batch k with
    | some w =>
        rw [hbatch] at hannounced
        exact hannounced
    | none =>
        rw [hbatch, Option.none_or] at hannounced
        exact h.reader k v (fun hmem => hmissed ⟨hmem, hbatch⟩) hannounced

/-- Every step keeps the reader coherent. -/
theorem Coherent.step
    (hcommits : ∀ s s' batch, Commits s s' batch → Announces view s s' batch)
    (hanswers : ∀ s snapshot, Answers s snapshot → Covers view s snapshot)
    (h : Coherent view l) (hstep : Step Commits Answers l l') :
    Coherent view l' := by
  cases hstep with
  | commit hcommit =>
      exact h.commit (hcommits _ _ _ hcommit)
  | @announce before after batch n houtbox hapart =>
      refine ⟨fun k v hv => ?_, fun k v hmissed hv => ?_⟩
      · have hbefore := h.outbox k v hv
        rw [houtbox] at hbefore
        exact outbox_of_apart hapart hbefore
      · have hbefore := h.reader k v hmissed hv
        rw [Link.pending, latest_append, houtbox, latest_of_apart hapart]
          at hbefore
        rw [Link.pending, List.flatten_append, latest_append, latest_append,
          latest_replicate]
        simpa only [Option.or_assoc] using hbefore
  | @lose before after batch houtbox hapart =>
      refine ⟨fun k v hv => ?_, fun k v hmissed hv => ?_⟩
      · have hbefore := h.outbox k v hv
        rw [houtbox] at hbefore
        exact outbox_of_apart hapart hbefore
      · have hbefore := h.reader k v (fun hmem => hmissed (Or.inl hmem)) hv
        rw [Link.pending, latest_append, houtbox] at hbefore
        rw [Link.pending, latest_append]
        -- what the lost batch says is said again after it, or it says nothing
        cases hafter : latest after.flatten k with
        | some w =>
            simpa [hafter] using hbefore
        | none =>
            have hbatch : latest batch k = none := by
              by_contra hsome
              exact hmissed (Or.inr ⟨hsome, hafter⟩)
            rw [latest_of_apart hapart, hbatch, Option.or_none] at hbefore
            exact hbefore
  | @deliver replica batch rest hreader hqueue =>
      refine ⟨h.outbox, fun k v hmissed hv => ?_⟩
      have hbefore := h.reader k v hmissed hv
      rw [Link.pending, hqueue, List.flatten_cons, List.append_assoc,
        latest_append, hreader, Option.or_assoc] at hbefore
      rw [Reader.base, apply_eq_or]
      exact hbefore
  | restart =>
      refine ⟨h.outbox, fun k v _ hv => ?_⟩
      exact h.outbox k v hv
  | @answer snapshot hreader hanswer =>
      refine ⟨h.outbox, fun k v hmissed hv => ?_⟩
      have hbefore := h.reader k v hmissed hv
      rw [hreader, Reader.base] at hbefore
      rw [Reader.base, hanswers _ _ hanswer k v hv]
      exact hbefore
  | @load snapshot hreader =>
      refine ⟨h.outbox, fun k v hmissed hv => ?_⟩
      have hbefore := h.reader k v hmissed hv
      rw [hreader] at hbefore
      exact hbefore

/-- Along every run, the reader stays coherent. -/
theorem Coherent.of_run
    (hcommits : ∀ s s' batch, Commits s s' batch → Announces view s s' batch)
    (hanswers : ∀ s snapshot, Answers s snapshot → Covers view s snapshot)
    (h : Coherent view l)
    (hrun : Relation.ReflTransGen (Step Commits Answers) l l') :
    Coherent view l' := by
  induction hrun with
  | refl =>
      exact h
  | tail _ hstep ih =>
      exact ih.step hcommits hanswers hstep

/--
A coherent reader that has caught up agrees with its view of the store, but for
the updates that it has missed.
-/
theorem Coherent.of_caughtUp
    {replica : κ → Option β} (h : Coherent view l)
    (hup : CaughtUp l replica) {k : κ} (hmissed : k ∉ l.missed) {v : β}
    (hv : view l.store k = some v) :
    replica k = some v := by
  have hend := h.reader k v hmissed hv
  rw [Link.pending, hup.queue, hup.outbox, hup.reader] at hend
  exact hend

/-- A reader applies its queue, once all is announced. -/
theorem exists_caughtUp_of_queue
    (store : σ) (missed : Set κ) (queue : List (List (κ × β)))
    (replica : κ → Option β) :
    ∃ l' replica', Relation.ReflTransGen (Step Commits Answers)
        ⟨store, [], queue, .following replica, missed⟩ l' ∧
      l'.store = store ∧ l'.missed = missed ∧ CaughtUp l' replica' := by
  induction queue generalizing replica with
  | nil =>
      exact ⟨_, replica, Relation.ReflTransGen.refl, rfl, rfl, rfl, rfl, rfl⟩
  | cons batch rest ih =>
      obtain ⟨l', replica', hrun, hend⟩ := ih (KeyedStore.apply replica batch)
      exact ⟨l', replica',
        Relation.ReflTransGen.head (.deliver rfl rfl) hrun, hend⟩

/-- A reader that applies its queue catches up without any other commit. -/
theorem exists_caughtUp
    {replica : κ → Option β} (hreader : l.reader = .following replica) :
    ∃ l' replica', Relation.ReflTransGen (Step Commits Answers) l l' ∧
      l'.store = l.store ∧ l'.missed = l.missed ∧ CaughtUp l' replica' := by
  obtain ⟨store, outbox, queue, reader, missed⟩ := l
  obtain rfl : reader = .following replica := hreader
  induction outbox generalizing queue with
  | nil =>
      exact exists_caughtUp_of_queue store missed queue replica
  | cons batch rest ih =>
      obtain ⟨l', replica', hrun, hend⟩ :=
        ih (queue ++ List.replicate 1 batch)
      refine ⟨l', replica', Relation.ReflTransGen.head ?_ hrun, hend⟩
      have hapart : Apart [] batch := fun _ => Or.inl rfl
      exact .announce 0 rfl hapart

end Steps

end Replication
