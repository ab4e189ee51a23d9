import Mathlib.Data.List.Chain
import Mathlib.Order.Bounds.Basic

/-!
# Journals

A journal keeps a history in entries, each with the interval in which its content
has held.  A report that repeats the last entry, or that tells that nothing has
changed, makes its interval longer; any other report has an entry of its own.

* `write`: one more report, with the shape of what it leaves in `write_cases`.
* `Ordered`: the intervals of the entries follow each other.
* `Tells`: an entry covers a report and says the same.
* `Ordered.run`, `told_of_run`: along every run the intervals follow each other,
  and every report is told by an entry.
* `Ordered.unique`: an instant is covered by one entry only.
* `getLast?_run_content`, `opened_run`: what was said last, and the entries of a
  kind that only fresh reports are of.
* `chain_of_run`: two entries in a row say the same for a fresh report only.
-/

namespace Journal

variable {τ α : Type}

/-- A content, with the first and the last instants at which it was reported. -/
@[ext]
structure Entry (τ α : Type) where
  first : τ
  last : τ
  content : α
deriving DecidableEq, Repr

inductive Report (α : Type)
  /-- It has an entry of its own. -/
  | fresh (content : α)
  /-- It has an entry of its own, unless the last one says the same. -/
  | repeated (content : α)
  /-- The last entry still holds, if there is one. -/
  | unchanged
deriving DecidableEq, Repr

/-- A report, with the instants at which it is started and written. -/
structure Timed (τ α : Type) where
  start : τ
  finish : τ
  report : Report α
deriving DecidableEq, Repr

/-- The entry of a report. -/
def Timed.entry (r : Timed τ α) (content : α) : Entry τ α where
  first := r.start
  last := r.finish
  content := content

/-- Let the last entry hold until an instant. -/
def extend (entries : List (Entry τ α)) (finish : τ) : List (Entry τ α) :=
  match entries.getLast? with
  | none => []
  | some e => entries.dropLast ++ [{ e with last := finish }]

/-- The journal once one more report is written. -/
def write [DecidableEq α] (entries : List (Entry τ α)) (r : Timed τ α) :
    List (Entry τ α) :=
  match r.report with
  | .fresh content => entries ++ [r.entry content]
  | .repeated content =>
      if entries.getLast?.map Entry.content = some content then
        extend entries r.finish
      else entries ++ [r.entry content]
  | .unchanged => extend entries r.finish

/-- What was said last, once one more report is made. -/
def said (last : Option α) (r : Timed τ α) : Option α :=
  match r.report with
  | .fresh content => some content
  | .repeated content => some content
  | .unchanged => last

/-- The instant at which a report opens an entry of some kind. -/
def opening (P : α → Bool) (r : Timed τ α) : Option τ :=
  match r.report with
  | .fresh content => if P content then some r.start else none
  | .repeated _ => none
  | .unchanged => none

/-- The instants at which the entries of some kind were opened. -/
def opened (P : α → Bool) (entries : List (Entry τ α)) : List τ :=
  (entries.filter (fun e => P e.content)).map Entry.first

/-- The reports come one after the other, from an instant on. -/
def Clocked [LinearOrder τ] : τ → List (Timed τ α) → Prop
  | _, [] => True
  | bound, r :: rest =>
      bound < r.start ∧ r.start ≤ r.finish ∧ Clocked r.finish rest

/-- The intervals of the entries follow each other, up to an instant. -/
structure Ordered [LinearOrder τ] (bound : τ) (entries : List (Entry τ α)) :
    Prop where
  apart : entries.Pairwise (fun a b => a.last < b.first)
  spans : ∀ e ∈ entries, e.first ≤ e.last ∧ e.last ≤ bound

/-- An entry covers a report, and says the same. -/
structure Tells [LE τ] (e : Entry τ α) (r : Timed τ α) : Prop where
  first : e.first ≤ r.start
  last : r.finish ≤ e.last
  fresh : ∀ content, r.report = .fresh content → e.content = content
  repeated : ∀ content, r.report = .repeated content → e.content = content

section Write

variable {entries init : List (Entry τ α)} {e : Entry τ α} {r : Timed τ α}

@[simp] theorem extend_nil
    (finish : τ) :
    extend ([] : List (Entry τ α)) finish = [] :=
  rfl

@[simp] theorem extend_concat
    (init : List (Entry τ α)) (e : Entry τ α) (finish : τ) :
    extend (init ++ [e]) finish = init ++ [{ e with last := finish }] := by
  simp [extend]

/-- A report makes the last entry longer, or has an entry of its own. -/
theorem write_cases
    [DecidableEq α] (entries : List (Entry τ α)) (r : Timed τ α) :
    (write entries r = extend entries r.finish ∧
        (∀ content, r.report ≠ .fresh content) ∧
        ∀ content, r.report = .repeated content →
          entries.getLast?.map Entry.content = some content) ∨
      ∃ content, write entries r = entries ++ [r.entry content] ∧
        (r.report = .fresh content ∨ r.report = .repeated content ∧
          entries.getLast?.map Entry.content ≠ some content) := by
  unfold write
  cases hreport : r.report with
  | fresh content =>
      exact Or.inr ⟨content, rfl, Or.inl rfl⟩
  | repeated content =>
      by_cases hsame : entries.getLast?.map Entry.content = some content
      · refine Or.inl ⟨by simp only [if_pos hsame], nofun, ?_⟩
        intro content' heq
        cases heq
        exact hsame
      · exact Or.inr ⟨content, by simp only [if_neg hsame],
          Or.inr ⟨rfl, hsame⟩⟩
  | unchanged =>
      exact Or.inl ⟨rfl, nofun, nofun⟩

/-- The journal is left without any entry, or its last one ends with the report. -/
theorem getLast?_write
    [DecidableEq α] (entries : List (Entry τ α)) (r : Timed τ α) :
    ∀ e ∈ (write entries r).getLast?, e.last = r.finish := by
  intro e he
  rcases write_cases entries r with ⟨heq, -⟩ | ⟨content, heq, -⟩
  · rw [heq] at he
    rcases List.eq_nil_or_concat entries with rfl | ⟨init, last, rfl⟩
    · cases he
    · rw [List.concat_eq_append, extend_concat, List.getLast?_concat] at he
      cases he
      rfl
  · rw [heq, List.getLast?_concat] at he
    cases he
    rfl

/-- The last entry has what was said last. -/
theorem getLast?_write_content
    [DecidableEq α] (entries : List (Entry τ α)) (r : Timed τ α) :
    (write entries r).getLast?.map Entry.content =
      said (entries.getLast?.map Entry.content) r := by
  have hextend : ∀ finish, (extend entries finish).getLast?.map Entry.content =
      entries.getLast?.map Entry.content := by
    intro finish
    rcases List.eq_nil_or_concat entries with rfl | ⟨init, last, rfl⟩
    · rfl
    · simp
  unfold write said
  cases r.report with
  | fresh content =>
      simp [Timed.entry]
  | repeated content =>
      simp only
      split
      · rename_i hsame
        rw [hextend, hsame]
      · simp [Timed.entry]
  | unchanged =>
      exact hextend r.finish

/-- A report opens an entry of a kind that only fresh reports are of. -/
theorem opened_write
    [DecidableEq α] {P : α → Bool} (entries : List (Entry τ α))
    {r : Timed τ α}
    (honly : ∀ content, r.report = .repeated content → P content = false) :
    opened P (write entries r) = opened P entries ++ (opening P r).toList := by
  have hextend : ∀ finish, opened P (extend entries finish) =
      opened P entries := by
    intro finish
    rcases List.eq_nil_or_concat entries with rfl | ⟨init, last, rfl⟩
    · rfl
    · rw [List.concat_eq_append, extend_concat, opened, opened,
        List.filter_append, List.filter_append]
      cases hlast : P last.content <;> simp [hlast]
  unfold write opening
  cases hreport : r.report with
  | fresh content =>
      cases hcontent : P content <;> simp [opened, Timed.entry, hcontent]
  | repeated content =>
      have hnot := honly content hreport
      simp only
      split
      · rw [hextend]
        simp
      · simp [opened, Timed.entry, hnot]
  | unchanged =>
      simp [hextend]

/-- The entries of a kind that only fresh reports are of, along every run. -/
theorem opened_run
    [DecidableEq α] {P : α → Bool} (entries : List (Entry τ α))
    {reports : List (Timed τ α)}
    (honly : ∀ r ∈ reports, ∀ content, r.report = .repeated content →
      P content = false) :
    opened P (reports.foldl write entries) =
      opened P entries ++ reports.filterMap (opening P) := by
  induction reports generalizing entries with
  | nil =>
      simp
  | cons r rest ih =>
      rw [List.forall_mem_cons] at honly
      rw [List.foldl_cons, ih _ honly.2, opened_write entries honly.1,
        List.filterMap_cons]
      cases opening P r <;> simp

/-- The last entry has what was said last, along every run. -/
theorem getLast?_run_content
    [DecidableEq α] (entries : List (Entry τ α)) (reports : List (Timed τ α)) :
    (reports.foldl write entries).getLast?.map Entry.content =
      reports.foldl said (entries.getLast?.map Entry.content) := by
  induction reports generalizing entries with
  | nil =>
      rfl
  | cons r rest ih =>
      rw [List.foldl_cons, ih, getLast?_write_content, List.foldl_cons]

end Write

section Order

variable [LinearOrder τ] [DecidableEq α] {bound : τ}
variable {entries : List (Entry τ α)} {r : Timed τ α}

omit [DecidableEq α] in
/-- An instant is covered by one entry only. -/
theorem Ordered.unique
    (h : Ordered bound entries) {e e' : Entry τ α} (he : e ∈ entries)
    (he' : e' ∈ entries) {t : τ} (ht : e.first ≤ t ∧ t ≤ e.last)
    (ht' : e'.first ≤ t ∧ t ≤ e'.last) :
    e = e' := by
  by_contra hne
  have hsymm : Std.Symm
      (fun a b : Entry τ α => a.last < b.first ∨ b.last < a.first) :=
    ⟨fun _ _ hlt => hlt.symm⟩
  have hpairs : entries.Pairwise
      (fun a b => a.last < b.first ∨ b.last < a.first) :=
    h.apart.imp Or.inl
  rcases hpairs.forall he he' hne with hlt | hlt
  · exact absurd (hlt.trans_le (ht'.1.trans ht.2)) (lt_irrefl _)
  · exact absurd (hlt.trans_le (ht.1.trans ht'.2)) (lt_irrefl _)

omit [DecidableEq α] in
/-- The last entry may be made longer. -/
theorem Ordered.extend
    (h : Ordered bound entries) {finish : τ} (hlater : bound ≤ finish) :
    Ordered finish (extend entries finish) := by
  rcases List.eq_nil_or_concat entries with rfl | ⟨init, e, rfl⟩
  · exact ⟨List.Pairwise.nil, nofun⟩
  · rw [List.concat_eq_append] at h ⊢
    rw [extend_concat]
    have hapart := List.pairwise_append.1 h.apart
    have hspan := h.spans e (by simp)
    refine ⟨List.pairwise_append.2 ⟨hapart.1, List.pairwise_singleton _ _,
      fun a ha b hb => ?_⟩, fun a ha => ?_⟩
    · rw [List.mem_singleton.1 hb]
      exact hapart.2.2 a ha e (List.mem_singleton_self e)
    · rcases List.mem_append.1 ha with hinit | hlast
      · have := h.spans a (List.mem_append_left _ hinit)
        exact ⟨this.1, this.2.trans hlater⟩
      · rw [List.mem_singleton.1 hlast]
        exact ⟨hspan.1.trans (hspan.2.trans hlater), le_rfl⟩

/-- A report that comes after the entries leaves their intervals in order. -/
theorem Ordered.write
    (h : Ordered bound entries) (hstart : bound < r.start)
    (hfinish : r.start ≤ r.finish) :
    Ordered r.finish (write entries r) := by
  have hlater : bound ≤ r.finish := hstart.le.trans hfinish
  rcases write_cases entries r with ⟨heq, -⟩ | ⟨content, heq, -⟩
  · rw [heq]
    exact h.extend hlater
  · rw [heq]
    refine ⟨List.pairwise_append.2 ⟨h.apart, List.pairwise_singleton _ _,
      fun a ha b hb => ?_⟩, fun a ha => ?_⟩
    · rw [List.mem_singleton.1 hb]
      exact (h.spans a ha).2.trans_lt hstart
    · rcases List.mem_append.1 ha with hold | hnew
      · exact ⟨(h.spans a hold).1, (h.spans a hold).2.trans hlater⟩
      · rw [List.mem_singleton.1 hnew]
        exact ⟨hfinish, le_rfl⟩

/-- An entry that holds for as long as another, with its content. -/
structure Continues (e e' : Entry τ α) : Prop where
  first : e'.first = e.first
  content : e'.content = e.content
  last : e.last ≤ e'.last

omit [DecidableEq α] in
theorem Continues.refl
    (e : Entry τ α) :
    Continues e e :=
  ⟨rfl, rfl, le_rfl⟩

omit [DecidableEq α] in
/-- What an entry tells is told by the one that continues it. -/
theorem Tells.continues
    {e e' : Entry τ α} (h : Tells e r) (hcontinues : Continues e e') :
    Tells e' r where
  first := hcontinues.first ▸ h.first
  last := h.last.trans hcontinues.last
  fresh := fun content heq => hcontinues.content.trans (h.fresh content heq)
  repeated := fun content heq =>
    hcontinues.content.trans (h.repeated content heq)

/-- Every entry is continued, whatever is reported. -/
theorem exists_continues
    (h : Ordered bound entries) (hlater : bound ≤ r.finish) {e : Entry τ α}
    (he : e ∈ entries) :
    ∃ e' ∈ write entries r, Continues e e' := by
  rcases write_cases entries r with ⟨heq, -⟩ | ⟨content, heq, -⟩
  · rw [heq]
    rcases List.eq_nil_or_concat entries with rfl | ⟨init, last, rfl⟩
    · cases he
    · rw [List.concat_eq_append] at he h ⊢
      rw [extend_concat]
      rcases List.mem_append.1 he with hinit | hlast
      · exact ⟨e, List.mem_append_left _ hinit, Continues.refl e⟩
      · refine ⟨{ last with last := r.finish }, by simp, ?_⟩
        rw [List.mem_singleton.1 hlast]
        exact ⟨rfl, rfl, (h.spans last (by simp)).2.trans hlater⟩
  · rw [heq]
    exact ⟨e, List.mem_append_left _ he, Continues.refl e⟩

/-- A report is told, unless it tells of a change of nothing at all. -/
theorem exists_tells
    (h : Ordered bound entries) (hstart : bound < r.start)
    (hsaid : r.report = .unchanged → entries ≠ []) :
    ∃ e ∈ write entries r, Tells e r := by
  rcases write_cases entries r with ⟨heq, hfresh, hrepeated⟩ | ⟨content, heq, hown⟩
  · rw [heq]
    rcases List.eq_nil_or_concat entries with rfl | ⟨init, last, rfl⟩
    · exfalso
      cases hreport : r.report with
      | fresh content =>
          exact hfresh content hreport
      | repeated content =>
          cases hrepeated content hreport
      | unchanged =>
          exact hsaid hreport rfl
    · rw [List.concat_eq_append] at hrepeated h ⊢
      rw [extend_concat]
      refine ⟨{ last with last := r.finish }, by simp, ?_, le_rfl, ?_, ?_⟩
      · have hspan := h.spans last (by simp)
        exact (hspan.1.trans hspan.2).trans hstart.le
      · intro content hreport
        exact absurd hreport (hfresh content)
      · intro content hreport
        have hlast := hrepeated content hreport
        rw [List.getLast?_concat] at hlast
        exact Option.some.inj hlast
  · rw [heq]
    refine ⟨r.entry content, by simp, le_rfl, le_rfl, ?_, ?_⟩
    · intro content' hreport
      rcases hown with hsame | ⟨hother, -⟩
      · rw [hsame] at hreport
        cases hreport
        rfl
      · rw [hother] at hreport
        cases hreport
    · intro content' hreport
      rcases hown with hother | ⟨hsame, -⟩
      · rw [hother] at hreport
        cases hreport
      · rw [hsame] at hreport
        cases hreport
        rfl

end Order

section Run

variable [LinearOrder τ] [DecidableEq α] {bound : τ}
variable {entries : List (Entry τ α)} {reports : List (Timed τ α)}

omit [DecidableEq α] in
/-- The first reports of a run come one after the other. -/
theorem Clocked.of_append
    {rest : List (Timed τ α)} (h : Clocked bound (reports ++ rest)) :
    Clocked bound reports := by
  induction reports generalizing bound with
  | nil =>
      trivial
  | cons r reports ih =>
      exact ⟨h.1, h.2.1, ih h.2.2⟩

omit [DecidableEq α] in
/-- A report is written after it is started. -/
theorem Clocked.start_le
    (h : Clocked bound reports) {r : Timed τ α} (hr : r ∈ reports) :
    r.start ≤ r.finish := by
  induction reports generalizing bound with
  | nil =>
      cases hr
  | cons r' rest ih =>
      rcases List.mem_cons.1 hr with rfl | hrest
      · exact h.2.1
      · exact ih h.2.2 hrest

/-- Along every run, the intervals of the entries follow each other. -/
theorem Ordered.run
    (h : Ordered bound entries) (hclock : Clocked bound reports) :
    ∃ bound', Ordered bound' (reports.foldl Journal.write entries) := by
  induction reports generalizing bound entries with
  | nil =>
      exact ⟨bound, h⟩
  | cons r rest ih =>
      obtain ⟨hstart, hfinish, hrest⟩ := hclock
      exact ih (h.write hstart hfinish) hrest

/-- Along every run, an entry is continued. -/
theorem exists_continues_run
    (h : Ordered bound entries) (hclock : Clocked bound reports)
    {e : Entry τ α} (he : e ∈ entries) :
    ∃ e' ∈ reports.foldl write entries, Continues e e' := by
  induction reports generalizing bound entries e with
  | nil =>
      exact ⟨e, he, Continues.refl e⟩
  | cons r rest ih =>
      obtain ⟨hstart, hfinish, hrest⟩ := hclock
      obtain ⟨e1, he1, hone⟩ :=
        exists_continues h (hstart.le.trans hfinish) he
      obtain ⟨e2, he2, htwo⟩ := ih (h.write hstart hfinish) hrest he1
      exact ⟨e2, he2, htwo.first.trans hone.first,
        htwo.content.trans hone.content, hone.last.trans htwo.last⟩

/-- Along every run, every report is told by an entry. -/
theorem told_of_run
    (h : Ordered bound entries) (hclock : Clocked bound reports)
    {before after : List (Timed τ α)} {r : Timed τ α}
    (hreports : reports = before ++ r :: after)
    (hsaid : r.report = .unchanged → before.foldl write entries ≠ []) :
    ∃ e ∈ reports.foldl write entries, Tells e r := by
  subst hreports
  induction before generalizing bound entries with
  | nil =>
      obtain ⟨hstart, hfinish, hrest⟩ := hclock
      obtain ⟨e, he, htells⟩ := exists_tells h hstart hsaid
      obtain ⟨e', he', hcontinues⟩ :=
        exists_continues_run (h.write hstart hfinish) hrest he
      exact ⟨e', he', htells.continues hcontinues⟩
  | cons r' rest ih =>
      obtain ⟨hstart, hfinish, hrest⟩ := hclock
      exact ih (h.write hstart hfinish) hsaid hrest

omit [LinearOrder τ] in
/-- Two entries in a row say the same for a fresh report only. -/
theorem chain_of_run
    (entries : List (Entry τ α)) (reports : List (Timed τ α)) :
    (reports.foldl write entries).IsChain (fun a b =>
      a.content = b.content → b.first ∈ entries.map Entry.first ∨
        ∃ r ∈ reports, r.report = .fresh b.content ∧ r.start = b.first) := by
  induction reports using List.reverseRecOn with
  | nil =>
      refine (List.pairwise_iff_forall_sublist.2 (fun hsub _ => ?_)).isChain
      exact Or.inl (List.mem_map_of_mem (hsub.subset (by simp)))
  | append_singleton reports r ih =>
      have hbefore := ih.imp (S := fun a b =>
        a.content = b.content → b.first ∈ entries.map Entry.first ∨
          ∃ r' ∈ reports ++ [r], r'.report = .fresh b.content ∧
            r'.start = b.first)
        (fun _ _ hsame heq => (hsame heq).imp_right (fun ⟨r', hr', hfresh⟩ =>
          ⟨r', List.mem_append_left _ hr', hfresh⟩))
      rw [List.foldl_append, List.foldl_cons, List.foldl_nil]
      rcases write_cases (reports.foldl write entries) r with
        ⟨heq, -⟩ | ⟨content, heq, hown⟩
      · rw [heq]
        rcases List.eq_nil_or_concat (reports.foldl write entries) with
          hnil | ⟨init, last, hlast⟩
        · rw [hnil, extend_nil]
          exact List.isChain_nil
        · rw [List.concat_eq_append] at hlast
          rw [hlast] at hbefore ⊢
          rw [extend_concat]
          obtain ⟨hinit, -, hjoin⟩ := List.isChain_append.1 hbefore
          exact List.isChain_append.2 ⟨hinit, List.isChain_singleton _,
            fun a ha b hb => by
              obtain rfl := Option.some.inj hb
              exact hjoin a ha last rfl⟩
      · rw [heq]
        refine List.isChain_append.2 ⟨hbefore, List.isChain_singleton _,
          fun a ha b hb hsame => ?_⟩
        obtain rfl := Option.some.inj hb
        rcases hown with hfresh | ⟨-, hother⟩
        · exact Or.inr ⟨r, by simp, hfresh, rfl⟩
        · refine absurd ?_ hother
          rw [Option.mem_def.1 ha, Option.map_some, hsame]
          rfl

end Run

end Journal
