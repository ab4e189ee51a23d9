import Mathlib.Tactic.Common

/-!
# Two callers that read, commit, build and publish

Two callers each read a shared row, process and commit it, build a feed from the
row stored at that time, and publish that feed.  A commit writes what the caller
has changed in the row it has read: the row it makes of it when nothing else has
been written since, and otherwise what its unit of work flushes on the row that
it finds.  The feeds are delivered in the order in which they are published.

* `Calls`: what the two callers do to a row.
* `step`: one step of one caller, `run`: a whole schedule.
* `Undisturbed`: what a caller commits is what it makes of the row it finds, or
  nothing; the row has not changed since the last feed was built.
* `Inv`: the invariant of undisturbed schedules.
* `run_undisturbed`: at the end of such a schedule the row is the result of a
  serial order, and the last feed delivered is the feed of that row.
-/

namespace TwoCallers

inductive Caller
  | first
  | second
deriving DecidableEq, Repr

def Caller.other : Caller → Caller
  | .first => .second
  | .second => .first

theorem Caller.eq_or_eq_other
    (p q : Caller) :
    q = p ∨ q = p.other := by
  cases p <;> cases q <;> simp [Caller.other]

theorem Caller.other_ne
    (p : Caller) :
    p.other ≠ p := by
  cases p <;> decide

@[simp] theorem Caller.other_other
    (p : Caller) :
    p.other.other = p := by
  cases p <;> rfl

/--
What two callers do to a row of type `ρ`, with feeds of type `ε`.  An idle caller
has changed nothing in the row it has read, so that its unit of work writes
nothing.
-/
structure Calls (ρ ε : Type) where
  /-- The row a caller makes of the one it has read, and whether it is linked. -/
  process : Caller → ρ → Option (ρ × Bool)
  encode : ρ → Option ε
  /-- What a caller that has read a row leaves of another one it finds. -/
  flush : Caller → ρ → ρ → Option ρ
  idle : Caller → ρ → Bool
  process_idle : ∀ p read row linked, idle p read = true →
    process p read = some (row, linked) → row = read
  flush_idle : ∀ p read found, idle p read = true →
    flush p read found = some found

section Steps

variable {ρ ε : Type}

/-- Where a caller is, with the writes it had seen, or the row it has built. -/
inductive Phase (ρ ε : Type)
  | waiting
  | hasRead (row : ρ) (seen : Nat)
  | committed (linked : Bool)
  | built (feed : Option ε) (row : ρ)
  | published

/-- The shared row, the last feed delivered, and where the callers are. -/
structure System (ρ ε : Type) where
  stored : ρ
  writes : Nat
  delivered : ε
  phase : Caller → Phase ρ ε

/-- Both callers are still to start. -/
def System.start (row : ρ) (delivered : ε) : System ρ ε where
  stored := row
  writes := 0
  delivered := delivered
  phase := fun _ => .waiting

def System.setPhase (s : System ρ ε) (p : Caller) (ph : Phase ρ ε) :
    System ρ ε :=
  { s with phase := fun q => if q = p then ph else s.phase q }

variable (c : Calls ρ ε)

/-- The row once a caller has committed. -/
def commitRow (s : System ρ ε) (p : Caller) (read row : ρ) (seen : Nat) :
    Option ρ :=
  if seen = s.writes then some row else c.flush p read s.stored

/-- The state once a caller has committed. -/
def commit (s : System ρ ε) (p : Caller) (read stored : ρ) (linked : Bool) :
    System ρ ε :=
  { s with
    stored := stored
    writes := if c.idle p read then s.writes else s.writes + 1 }.setPhase p
      (.committed linked)

/--
One step of a caller.  A caller whose row is not linked commits it all the same,
and publishes nothing for it.
-/
def step (s : System ρ ε) (p : Caller) : Option (System ρ ε) :=
  match s.phase p with
  | .waiting => some (s.setPhase p (.hasRead s.stored s.writes))
  | .hasRead read seen =>
      match c.process p read with
      | none => none
      | some (row, linked) =>
          (commitRow c s p read row seen).map
            (fun stored => commit c s p read stored linked)
  | .committed false => some (s.setPhase p (.built none s.stored))
  | .committed true =>
      match c.encode s.stored with
      | none => none
      | some feed => some (s.setPhase p (.built (some feed) s.stored))
  | .built none _ => some (s.setPhase p .published)
  | .built (some feed) _ =>
      some ({ s with delivered := feed }.setPhase p .published)
  | .published => none

/-- The steps of a schedule, one after the other. -/
def run : System ρ ε → List Caller → Option (System ρ ε)
  | s, [] => some s
  | s, p :: rest => (step c s p).bind (fun s => run s rest)

/--
At a commit, nothing has been written since the caller has read the row, or it
has nothing to write, or it leaves what it would make of the row it finds; and a
row that is not linked is left as it is.  At the publication of a feed, the row
is still the one it was built from, or the other caller is still to publish.
-/
def Undisturbed (s : System ρ ε) (p : Caller) : Prop :=
  match s.phase p with
  | .hasRead read seen =>
      (seen = s.writes ∨ c.idle p read = true ∨
        c.flush p read s.stored = (c.process p s.stored).map Prod.fst) ∧
      ∀ row, c.process p read = some (row, false) → c.idle p read = true
  | .built (some _) row => row = s.stored ∨ s.phase p.other ≠ .published
  | _ => True

/-- A condition on the state before each step of a schedule. -/
def AlongRun (P : System ρ ε → Caller → Prop) :
    System ρ ε → List Caller → Prop
  | _, [] => True
  | s, p :: rest =>
      P s p ∧ ∀ s', step c s p = some s' → AlongRun P s' rest

/-- The commit of the caller is behind it. -/
def Phase.hasCommitted : Phase ρ ε → Bool
  | .waiting => false
  | .hasRead _ _ => false
  | .committed _ => true
  | .built _ _ => true
  | .published => true

/-- A feed with the row is still to be published. -/
def Phase.pending : Phase ρ ε → Bool
  | .committed linked => linked
  | .built feed _ => feed.isSome
  | _ => false

/-- The row after two calls in a row. -/
def inOrder (p q : Caller) (row : ρ) : Option ρ :=
  ((c.process p row).bind (fun r => c.process q r.1)).map Prod.fst

/-- The stored row is that of a serial execution of the commits made so far. -/
def SerialResult (row stored : ρ) : Bool → Bool → Prop
  | false, false => stored = row
  | true, false => (c.process .first row).map Prod.fst = some stored
  | false, true => (c.process .second row).map Prod.fst = some stored
  | true, true =>
      inOrder c .first .second row = some stored ∨
        inOrder c .second .first row = some stored

/-- What holds along the undisturbed schedules that start from a row. -/
structure Inv (row : ρ) (s : System ρ ε) : Prop where
  reads : ∀ p r seen, s.phase p = .hasRead r seen →
    (seen = s.writes ∧ r = s.stored) ∨
      (seen < s.writes ∧ r = row ∧ (s.phase p.other).hasCommitted = true)
  feeds : ∀ p feed r, s.phase p = .built (some feed) r →
    c.encode r = some feed ∧
      (r = s.stored ∨ s.phase p.other = .published ∨
        (s.phase p.other).pending = true)
  delivered : c.encode s.stored = some s.delivered ∨
    ∃ p, (s.phase p).pending = true
  serial : SerialResult c row s.stored (s.phase .first).hasCommitted
    (s.phase .second).hasCommitted

end Steps

section SetPhase

variable {ρ ε : Type} (s : System ρ ε) (p : Caller) (ph : Phase ρ ε)

@[simp] theorem setPhase_phase :
    (s.setPhase p ph).phase p = ph :=
  if_pos rfl

theorem setPhase_phase_of_ne
    {q : Caller} (h : q ≠ p) :
    (s.setPhase p ph).phase q = s.phase q :=
  if_neg h

@[simp] theorem setPhase_phase_other :
    (s.setPhase p ph).phase p.other = s.phase p.other :=
  setPhase_phase_of_ne s p ph p.other_ne

end SetPhase

section Commit

variable {ρ ε : Type} (c : Calls ρ ε) (s : System ρ ε) (p : Caller)
variable (read stored : ρ) (linked : Bool)

@[simp] theorem commit_stored :
    (commit c s p read stored linked).stored = stored :=
  rfl

@[simp] theorem commit_writes :
    (commit c s p read stored linked).writes =
      if c.idle p read then s.writes else s.writes + 1 :=
  rfl

@[simp] theorem commit_phase :
    (commit c s p read stored linked).phase p = .committed linked :=
  if_pos rfl

@[simp] theorem commit_phase_other :
    (commit c s p read stored linked).phase p.other = s.phase p.other :=
  if_neg p.other_ne

end Commit

section Invariant

variable {ρ ε : Type} {c : Calls ρ ε}
variable {row : ρ} {s s' : System ρ ε} {p : Caller}

theorem inv_start
    {delivered : ε} (h : c.encode row = some delivered) :
    Inv c row (System.start row delivered) where
  reads := by
    intro p r seen hphase
    cases hphase
  feeds := by
    intro p feed r hphase
    cases hphase
  delivered := Or.inl h
  serial := rfl

/-- A step that leaves the row as it is, and publishes what it has to. -/
theorem Inv.setPhase
    (h : Inv c row s) {ph : Phase ρ ε} {delivered : ε}
    (hreads : ∀ r seen, ph = .hasRead r seen → seen = s.writes ∧ r = s.stored)
    (hfeeds : ∀ feed r, ph = .built (some feed) r →
      c.encode r = some feed ∧ r = s.stored)
    (hcommitted : ph.hasCommitted = (s.phase p).hasCommitted)
    (hnotyet : s.phase p ≠ .published)
    (hpending : (s.phase p).pending = true →
      ph = .published ∨ ph.pending = true)
    (hdelivered : c.encode s.stored = some delivered ∨
      (s.phase p.other).pending = true ∨ ph.pending = true) :
    Inv c row ({ s with delivered := delivered }.setPhase p ph) where
  reads := by
    intro q r seen hphase
    rcases p.eq_or_eq_other q with rfl | rfl
    · rw [setPhase_phase] at hphase
      exact Or.inl (hreads r seen hphase)
    · rw [setPhase_phase_other] at hphase
      rw [Caller.other_other, setPhase_phase, hcommitted]
      have hread := h.reads p.other r seen hphase
      rwa [Caller.other_other] at hread
  feeds := by
    intro q feed r hphase
    rcases p.eq_or_eq_other q with rfl | rfl
    · rw [setPhase_phase] at hphase
      obtain ⟨hencode, hstored⟩ := hfeeds feed r hphase
      exact ⟨hencode, Or.inl hstored⟩
    · rw [setPhase_phase_other] at hphase
      rw [Caller.other_other, setPhase_phase]
      obtain ⟨hencode, hcurrent⟩ := h.feeds p.other feed r hphase
      rw [Caller.other_other] at hcurrent
      refine ⟨hencode, hcurrent.imp_right (fun hlater => ?_)⟩
      exact hpending (hlater.resolve_left hnotyet)
  delivered := by
    rcases hdelivered with hup | hother | hself
    · exact Or.inl hup
    · refine Or.inr ⟨p.other, ?_⟩
      rw [setPhase_phase_other]
      exact hother
    · refine Or.inr ⟨p, ?_⟩
      rw [setPhase_phase]
      exact hself
  serial := by
    have hsame : ∀ q, (({ s with delivered := delivered } :
        System ρ ε).setPhase p ph |>.phase q).hasCommitted =
        (s.phase q).hasCommitted := by
      intro q
      rcases p.eq_or_eq_other q with rfl | rfl
      · rw [setPhase_phase, hcommitted]
      · rw [setPhase_phase_other]
    rw [hsame, hsame]
    exact h.serial

/-- Nothing is committed yet in a serial result without commits. -/
theorem SerialResult.start
    {stored : ρ} (committed : Caller → Bool)
    (h : SerialResult c row stored (committed .first) (committed .second))
    (hp : committed p = false) (hother : committed p.other = false) :
    stored = row := by
  cases p with
  | first =>
      rw [show committed .second = false from hother, hp] at h
      exact h
  | second =>
      rw [show committed .first = false from hother, hp] at h
      exact h

/-- A caller that commits what it makes of the row it finds comes last. -/
theorem SerialResult.commit
    {stored row' : ρ} {linked : Bool} (committed : Caller → Bool)
    (h : SerialResult c row stored (committed .first) (committed .second))
    (hp : committed p = false)
    (hprocess : c.process p stored = some (row', linked)) :
    SerialResult c row row' (p = .first || committed .first)
      (p = .second || committed .second) := by
  cases p with
  | first =>
      rw [hp] at h
      cases hother : committed .second with
      | false =>
          rw [hother] at h
          cases h
          simp [SerialResult, hprocess]
      | true =>
          rw [hother] at h
          obtain ⟨r, hr, rfl⟩ := Option.map_eq_some_iff.1 h
          exact Or.inr (by simp [inOrder, hr, hprocess])
  | second =>
      rw [hp] at h
      cases hother : committed .first with
      | false =>
          rw [hother] at h
          cases h
          simp [SerialResult, hprocess]
      | true =>
          rw [hother] at h
          obtain ⟨r, hr, rfl⟩ := Option.map_eq_some_iff.1 h
          exact Or.inl (by simp [inOrder, hr, hprocess])

/-- A caller that has nothing to write in the first row comes first. -/
theorem SerialResult.commitIdle
    {stored : ρ} {linked : Bool} (committed : Caller → Bool)
    (h : SerialResult c row stored (committed .first) (committed .second))
    (hp : committed p = false) (hother : committed p.other = true)
    (hprocess : c.process p row = some (row, linked)) :
    SerialResult c row stored (p = .first || committed .first)
      (p = .second || committed .second) := by
  cases p with
  | first =>
      have hsecond : committed .second = true := hother
      rw [hp, hsecond] at h
      rw [hsecond]
      exact Or.inl (by rw [inOrder, hprocess]; exact h)
  | second =>
      have hfirst : committed .first = true := hother
      rw [hp, hfirst] at h
      rw [hfirst]
      exact Or.inr (by rw [inOrder, hprocess]; exact h)

/-- The row after an undisturbed commit, with the serial order it belongs to. -/
theorem Inv.commitRow
    (h : Inv c row s) {read row' stored : ρ} {seen : Nat} {linked : Bool}
    (hphase : s.phase p = .hasRead read seen)
    (hprocess : c.process p read = some (row', linked))
    (hquiet : seen = s.writes ∨ c.idle p read = true ∨
      c.flush p read s.stored = (c.process p s.stored).map Prod.fst)
    (hcommit : commitRow c s p read row' seen = some stored) :
    (c.idle p read = true → stored = s.stored) ∧
      SerialResult c row stored
        (p = .first || (s.phase .first).hasCommitted)
        (p = .second || (s.phase .second).hasCommitted) := by
  have hnotyet : (s.phase p).hasCommitted = false := by
    rw [hphase]
    rfl
  unfold TwoCallers.commitRow at hcommit
  rcases h.reads p read seen hphase with
    ⟨hseen, rfl⟩ | ⟨hlt, rfl, hother⟩
  · rw [if_pos hseen] at hcommit
    cases hcommit
    refine ⟨fun hidle => c.process_idle p _ _ _ hidle hprocess, ?_⟩
    exact SerialResult.commit (fun q => (s.phase q).hasCommitted) h.serial
      hnotyet hprocess
  · rw [if_neg (Nat.ne_of_lt hlt)] at hcommit
    by_cases hidle : c.idle p read = true
    · rw [c.flush_idle p read s.stored hidle] at hcommit
      cases hcommit
      have hsame := c.process_idle p _ _ _ hidle hprocess
      subst hsame
      exact ⟨fun _ => rfl,
        SerialResult.commitIdle (fun q => (s.phase q).hasCommitted) h.serial
          hnotyet hother hprocess⟩
    · -- the caller leaves what it would make of the row it finds
      have hflush := (hquiet.resolve_left (Nat.ne_of_lt hlt)).resolve_left hidle
      rw [hflush] at hcommit
      obtain ⟨⟨r, linked'⟩, hfound, rfl⟩ := Option.map_eq_some_iff.1 hcommit
      exact ⟨fun hyes => absurd hyes hidle,
        SerialResult.commit (fun q => (s.phase q).hasCommitted) h.serial
          hnotyet hfound⟩

/-- An undisturbed commit keeps the invariant. -/
theorem Inv.commit
    (h : Inv c row s) {read stored : ρ} {seen : Nat} {linked : Bool}
    (hphase : s.phase p = .hasRead read seen)
    (hidle : c.idle p read = true → stored = s.stored)
    (hserial : SerialResult c row stored
      (p = .first || (s.phase .first).hasCommitted)
      (p = .second || (s.phase .second).hasCommitted))
    (hkept : linked = false → c.idle p read = true) :
    Inv c row (commit c s p read stored linked) where
  reads := by
    intro q r seen' hread
    rcases p.eq_or_eq_other q with rfl | rfl
    · rw [commit_phase] at hread
      cases hread
    · rw [commit_phase_other] at hread
      rw [Caller.other_other, commit_phase, commit_writes, commit_stored]
      have hother := h.reads p.other r seen' hread
      rw [Caller.other_other, hphase] at hother
      obtain ⟨rfl, rfl⟩ := hother.resolve_right (fun hlater => by
        simp [Phase.hasCommitted] at hlater)
      by_cases hyes : c.idle p read = true
      · rw [if_pos hyes]
        exact Or.inl ⟨rfl, (hidle hyes).symm⟩
      · -- neither caller had committed before
        rw [if_neg hyes]
        refine Or.inr ⟨Nat.lt_succ_self _, ?_, rfl⟩
        exact SerialResult.start (p := p) (fun q => (s.phase q).hasCommitted)
          h.serial (by rw [hphase]; rfl) (by rw [hread]; rfl)
  feeds := by
    intro q feed r hbuilt
    rcases p.eq_or_eq_other q with rfl | rfl
    · rw [commit_phase] at hbuilt
      cases hbuilt
    · rw [commit_phase_other] at hbuilt
      rw [Caller.other_other, commit_phase, commit_stored]
      obtain ⟨hencode, hcurrent⟩ := h.feeds p.other feed r hbuilt
      rw [Caller.other_other, hphase] at hcurrent
      refine ⟨hencode, ?_⟩
      cases linked with
      | true =>
          exact Or.inr (Or.inr rfl)
      | false =>
          rw [hidle (hkept rfl)]
          exact Or.inl (hcurrent.resolve_right (fun hlater => by
            simp [Phase.pending] at hlater))
  delivered := by
    cases linked with
    | true =>
        exact Or.inr ⟨p, by rw [commit_phase]; rfl⟩
    | false =>
        rw [commit_stored, hidle (hkept rfl)]
        refine h.delivered.imp_right (fun hpending => ?_)
        obtain ⟨q, hq⟩ := hpending
        rcases p.eq_or_eq_other q with rfl | rfl
        · rw [hphase] at hq
          cases hq
        · exact ⟨p.other, by rw [commit_phase_other]; exact hq⟩
  serial := by
    have hcommitted : ∀ q,
        ((TwoCallers.commit c s p read stored linked).phase q).hasCommitted =
          (p = q || (s.phase q).hasCommitted) := by
      intro q
      rcases p.eq_or_eq_other q with rfl | rfl
      · rw [commit_phase]
        simp [Phase.hasCommitted]
      · rw [commit_phase_other]
        simp [p.other_ne.symm]
    rw [hcommitted, hcommitted]
    exact hserial

theorem AlongRun.imp
    {P Q : System ρ ε → Caller → Prop} {schedule : List Caller}
    (hPQ : ∀ s p, P s p → Q s p) (h : AlongRun c P s schedule) :
    AlongRun c Q s schedule := by
  induction schedule generalizing s with
  | nil =>
      trivial
  | cons p rest ih =>
      exact ⟨hPQ s p h.1, fun s' hstep => ih (h.2 s' hstep)⟩

/-- An undisturbed step keeps the invariant. -/
theorem inv_step
    (h : Inv c row s) (hquiet : Undisturbed c s p)
    (hstep : step c s p = some s') :
    Inv c row s' := by
  -- a feed is delivered or pending, and stays so unless the caller publishes
  have hdelivered : c.encode s.stored = some s.delivered ∨
      (s.phase p.other).pending = true ∨ (s.phase p).pending = true := by
    refine h.delivered.imp_right (fun hpending => ?_)
    obtain ⟨q, hq⟩ := hpending
    rcases p.eq_or_eq_other q with rfl | rfl
    · exact Or.inr hq
    · exact Or.inl hq
  unfold step at hstep
  unfold Undisturbed at hquiet
  cases hphase : s.phase p with
  | waiting =>
      rw [hphase] at hstep hdelivered
      cases hstep
      refine h.setPhase ?_ ?_ ?_ ?_ ?_ hdelivered
      · rintro r seen ⟨rfl, rfl⟩
        exact ⟨rfl, rfl⟩
      · rintro feed r ⟨⟩
      · rw [hphase]
        rfl
      · simp [hphase]
      · simp [hphase, Phase.pending]
  | hasRead read seen =>
      rw [hphase] at hstep hquiet
      simp only at hstep hquiet
      cases hprocess : c.process p read with
      | none =>
          rw [hprocess] at hstep
          cases hstep
      | some result =>
          rcases result with ⟨row', linked⟩
          rw [hprocess] at hstep
          obtain ⟨stored, hcommit, rfl⟩ := Option.map_eq_some_iff.1 hstep
          obtain ⟨hidle, hserial⟩ :=
            h.commitRow hphase hprocess hquiet.1 hcommit
          refine h.commit hphase hidle hserial (fun hlinked => ?_)
          rw [hlinked] at hprocess
          exact hquiet.2 row' hprocess
  | committed linked =>
      rw [hphase] at hstep hdelivered
      cases linked with
      | false =>
          cases hstep
          refine h.setPhase ?_ ?_ ?_ ?_ ?_ hdelivered
          · rintro r seen ⟨⟩
          · rintro feed r ⟨⟩
          · rw [hphase]
            rfl
          · simp [hphase]
          · simp [hphase, Phase.pending]
      | true =>
          simp only at hstep
          cases hencode : c.encode s.stored with
          | none =>
              rw [hencode] at hstep
              cases hstep
          | some feed =>
              rw [hencode] at hstep
              cases hstep
              refine h.setPhase ?_ ?_ ?_ ?_ ?_ (Or.inr (Or.inr rfl))
              · rintro r seen ⟨⟩
              · rintro feed' r ⟨rfl, rfl⟩
                exact ⟨hencode, rfl⟩
              · rw [hphase]
                rfl
              · simp [hphase]
              · exact fun _ => Or.inr rfl
  | built feed r =>
      rw [hphase] at hstep hdelivered hquiet
      cases feed with
      | none =>
          cases hstep
          refine h.setPhase ?_ ?_ ?_ ?_ ?_ hdelivered
          · rintro r seen ⟨⟩
          · rintro feed r ⟨⟩
          · rw [hphase]
            rfl
          · simp [hphase]
          · exact fun _ => Or.inl rfl
      | some feed =>
          cases hstep
          refine h.setPhase ?_ ?_ ?_ ?_ ?_ ?_
          · rintro r seen ⟨⟩
          · rintro feed r ⟨⟩
          · rw [hphase]
            rfl
          · simp [hphase]
          · exact fun _ => Or.inl rfl
          · obtain ⟨hencode, hcurrent⟩ := h.feeds p feed r hphase
            rcases hcurrent with rfl | hother
            · exact Or.inl hencode
            · -- a later row is committed, and its feed is still to be published
              rcases hquiet with rfl | hnotyet
              · exact Or.inl hencode
              · exact Or.inr (Or.inl (hother.resolve_left hnotyet))
  | published =>
      rw [hphase] at hstep
      cases hstep

/-- Undisturbed schedules keep the invariant. -/
theorem inv_run
    {schedule : List Caller} (h : Inv c row s)
    (hquiet : AlongRun c (Undisturbed c) s schedule)
    (hrun : run c s schedule = some s') :
    Inv c row s' := by
  induction schedule generalizing s with
  | nil =>
      cases hrun
      exact h
  | cons p rest ih =>
      obtain ⟨s1, hstep, hrest⟩ := Option.bind_eq_some_iff.1 hrun
      exact ih (inv_step h hquiet.1 hstep) (hquiet.2 s1 hstep) hrest

/--
At the end of an undisturbed schedule, the last feed delivered is the feed of
the stored row, which is the result of a serial order.
-/
theorem run_undisturbed
    {delivered : ε} {schedule : List Caller}
    (hencode : c.encode row = some delivered)
    (hquiet : AlongRun c (Undisturbed c) (System.start row delivered) schedule)
    (hrun : run c (System.start row delivered) schedule = some s')
    (hend : ∀ p, s'.phase p = .published) :
    c.encode s'.stored = some s'.delivered ∧
      (inOrder c .first .second row = some s'.stored ∨
        inOrder c .second .first row = some s'.stored) := by
  have h := inv_run (inv_start hencode) hquiet hrun
  have hserial := h.serial
  rw [hend, hend] at hserial
  refine ⟨h.delivered.resolve_right ?_, hserial⟩
  rintro ⟨p, hp⟩
  rw [hend] at hp
  cases hp

end Invariant

section Alone

variable {ρ ε : Type} (c : Calls ρ ε) {row row' : ρ} {p : Caller}

/-- A caller that takes its four steps alone and links its row. -/
theorem run_alone_linked
    {feed : ε} (delivered : ε) (hprocess : c.process p row = some (row', true))
    (hencode : c.encode row' = some feed) :
    ∃ s, run c (System.start row delivered) [p, p, p, p] = some s ∧
      s.stored = row' ∧ s.delivered = feed := by
  simp [run, step, commitRow, commit, System.start, System.setPhase, hprocess,
    hencode]

theorem run_alone_unlinked
    (delivered : ε) (hprocess : c.process p row = some (row', false)) :
    ∃ s, run c (System.start row delivered) [p, p, p, p] = some s ∧
      s.stored = row' ∧ s.delivered = delivered := by
  simp [run, step, commitRow, commit, System.start, System.setPhase, hprocess]

end Alone

end TwoCallers
