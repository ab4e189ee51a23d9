import Kirin.Core.FeedOutcome

/-!
# Kirin: the rows that a feed touches

A row is left as it is by a feed, or takes the vehicle journey and the status of
one of its trip updates.

* `handleLoop_touched`, `FeedOutcome.touched`: a row that differs has the dated
  vehicle journey and the status of a trip update of the feed.
* `FeedOutcome.rows_vj`: the stored rows keep their vehicle journeys and places.
* `handleLoop_owned`, `FeedOutcome.owned`: a row is that of a stored trip, with
  its contributor, or the one of a trip update of the feed.
* `FeedOutcome.keepsTrip`: a row stays with its trip and its contributor.
-/

namespace Kirin
namespace Core

section Touched

variable {b : Builder} {s s' : Session} {t : NewTripUpdate}
variable {ts : List NewTripUpdate} {r : Except PyException Unit}

/-- A row has the dated vehicle journey and the status of a trip update. -/
def TouchedBy (row : TripUpdate) (t : NewTripUpdate) : Prop :=
  row.status = t.status ∧ row.vj.datedKey = t.vj.datedKey

/-- One turn of the loop touches the row of its trip update only. -/
theorem handleTripUpdate_touched
    {row : TripUpdate} (hrow : row ∈ (handleTripUpdate b s t).1.allRows) :
    row ∈ s.allRows ∨ TouchedBy row t := by
  have hprocessed : TouchedBy
      (processTripUpdate b (findByDatedVj s.rows t.vj) t).tripUpdate t :=
    ⟨processTripUpdate_header.1, processTripUpdate_datedKey b s.rows t⟩
  rcases List.mem_append.1 hrow with hold | hnew
  · cases hfind : findByDatedVj s.rows t.vj with
    | none =>
        rw [handleTripUpdate_rows_of_none b hfind] at hold
        exact Or.inl (List.mem_append_left _ hold)
    | some old =>
        rw [handleTripUpdate_rows_of_some b hfind] at hold
        rw [hfind] at hprocessed
        rcases KeyedStore.of_mem_replace hold with rfl | hstored
        · exact Or.inr hprocessed
        · exact Or.inl (List.mem_append_left _ hstored)
  · rw [handleTripUpdate_created] at hnew
    split at hnew
    · rename_i hcreated
      rw [hcreated.1] at hprocessed
      rcases List.mem_append.1 hnew with hstored | hlast
      · exact Or.inl (List.mem_append_right _ hstored)
      · exact Or.inr (List.mem_singleton.1 hlast ▸ hprocessed)
    · exact Or.inl (List.mem_append_right _ hnew)

/-- The loop touches the rows of its trip updates only. -/
theorem handleLoop_touched
    (hloop : handleLoop b s ts = (s', r)) {row : TripUpdate}
    (hrow : row ∈ s'.allRows) :
    row ∈ s.allRows ∨ ∃ t ∈ ts, TouchedBy row t := by
  have hturn : ∀ (s1 : Session) (t : NewTripUpdate), t ∈ ts →
      (∀ row ∈ s1.allRows, row ∈ s.allRows ∨ ∃ t ∈ ts, TouchedBy row t) →
      ∀ row ∈ (handleTripUpdate b s1 t).1.allRows,
        row ∈ s.allRows ∨ ∃ t ∈ ts, TouchedBy row t := by
    intro s1 t ht hrows row hrow
    rcases handleTripUpdate_touched hrow with hold | htouched
    · exact hrows row hold
    · exact Or.inr ⟨t, ht, htouched⟩
  obtain ⟨_, ⟨-, hrows⟩, -⟩ := handleLoop_invariant
    (P := fun s1 rest => (∀ t ∈ rest, t ∈ ts) ∧ ∀ row ∈ s1.allRows,
      row ∈ s.allRows ∨ ∃ t ∈ ts, TouchedBy row t)
    (fun s1 t _ h1 => ⟨(List.forall_mem_cons.1 h1.1).2,
      hturn s1 t (List.forall_mem_cons.1 h1.1).1 h1.2⟩)
    ⟨fun _ ht => ht, fun _ => Or.inl⟩ hloop
  exact hrows row hrow

end Touched

section Owned

variable {b : Builder} {s s' : Session} {t : NewTripUpdate}
variable {ts : List NewTripUpdate} {r : Except PyException Unit}
variable {rows : List TripUpdate}

/-- Two rows are about the same trip of the same contributor. -/
def SameTrip (row row' : TripUpdate) : Prop :=
  row.vj = row'.vj ∧ row.contributorId = row'.contributorId

/-- The rows of a session are those of stored trips, or of trip updates. -/
structure Owned (rows : List TripUpdate) (ts : List NewTripUpdate)
    (s : Session) : Prop where
  rows : ∀ row ∈ s.rows, ∃ old ∈ rows, SameTrip old row
  created : ∀ row ∈ s.created, ∃ t ∈ ts, SameTrip t.toTripUpdate row

/-- The content left for a trip is about the stored trip, if there is one. -/
theorem processTripUpdate_sameTrip
    (b : Builder) (old : Option TripUpdate) (t : NewTripUpdate) :
    SameTrip (old.getD t.toTripUpdate) (processTripUpdate b old t).tripUpdate :=
  ⟨processTripUpdate_vj.symm, processTripUpdate_contributorId.symm⟩

/-- One turn of the loop keeps the trips of the rows and their contributors. -/
theorem handleTripUpdate_owned
    (h : Owned rows ts s) (ht : t ∈ ts) :
    Owned rows ts (handleTripUpdate b s t).1 := by
  have hprocessed := processTripUpdate_sameTrip b (findByDatedVj s.rows t.vj) t
  refine ⟨fun row hrow => ?_, fun row hrow => ?_⟩
  · cases hfind : findByDatedVj s.rows t.vj with
    | none =>
        rw [handleTripUpdate_rows_of_none b hfind] at hrow
        exact h.rows row hrow
    | some old =>
        rw [handleTripUpdate_rows_of_some b hfind] at hrow
        rw [hfind] at hprocessed
        rcases KeyedStore.of_mem_replace hrow with rfl | hstored
        · obtain ⟨stored, hmem, hsame⟩ := h.rows old (findByDatedVj_mem hfind)
          exact ⟨stored, hmem, hsame.1.trans hprocessed.1,
            hsame.2.trans hprocessed.2⟩
        · exact h.rows row hstored
  · rw [handleTripUpdate_created] at hrow
    split at hrow
    · rename_i hnew
      rw [hnew.1] at hprocessed
      rcases List.mem_append.1 hrow with hold | hlast
      · exact h.created row hold
      · rw [List.mem_singleton.1 hlast]
        exact ⟨t, ht, hprocessed⟩
    · exact h.created row hrow

/-- The loop keeps the trips of the rows and their contributors. -/
theorem handleLoop_owned
    (h : Owned rows ts s) (hloop : handleLoop b s ts = (s', r)) :
    Owned rows ts s' := by
  obtain ⟨_, ⟨-, howned⟩, -⟩ := handleLoop_invariant
    (P := fun s1 rest => (∀ t ∈ rest, t ∈ ts) ∧ Owned rows ts s1)
    (fun s1 t _ h1 => ⟨(List.forall_mem_cons.1 h1.1).2,
      handleTripUpdate_owned h1.2 (List.forall_mem_cons.1 h1.1).1⟩)
    ⟨fun _ ht => ht, h⟩ hloop
  exact howned

end Owned

section Outcome

variable {b : Builder} {network : Network} {db : Db} {rtu : RealTimeUpdate}
variable {built : BuiltFeed} {result : HandleResult}

/-- A feed touches the rows of its trip updates only. -/
theorem FeedOutcome.touched
    (h : FeedOutcome b network db rtu (.ok built) result) {row : TripUpdate}
    (hrow : row ∈ result.db.tripUpdates) :
    row ∈ db.tripUpdates ∨ ∃ t ∈ built.tripUpdates, TouchedBy row t := by
  rcases h.rows with hsame | ⟨built', s, r, hbuilt, hloop, hrows, -⟩
  · exact Or.inl (hsame.1 ▸ hrow)
  · cases hbuilt
    rw [hrows] at hrow
    refine (handleLoop_touched hloop hrow).imp_left (fun hmem => ?_)
    simpa [Session.allRows, Db.session] using hmem

/-- The stored rows keep their vehicle journeys, and come before the new ones. -/
theorem FeedOutcome.rows_vj
    {build : Except PyException BuiltFeed}
    (h : FeedOutcome b network db rtu build result) :
    ∃ created, result.db.tripUpdates.map TripUpdate.vj =
      db.tripUpdates.map TripUpdate.vj ++ created := by
  rcases h.rows with hsame | ⟨built, s, r, -, hloop, hrows, -⟩
  · exact ⟨[], by rw [hsame.1, List.append_nil]⟩
  · refine ⟨s.created.map TripUpdate.vj, ?_⟩
    rw [hrows, Session.allRows, List.map_append,
      handleLoop_rows_vj (s := db.session) db.uniqueVj hloop]
    rfl

/-- A row is that of a stored trip, or of a trip update of the feed. -/
theorem FeedOutcome.owned
    (h : FeedOutcome b network db rtu (.ok built) result) {row : TripUpdate}
    (hrow : row ∈ result.db.tripUpdates) :
    (∃ old ∈ db.tripUpdates, SameTrip old row) ∨
      ∃ t ∈ built.tripUpdates, SameTrip t.toTripUpdate row := by
  rcases h.rows with hsame | ⟨built', s, r, hbuilt, hloop, hrows, -⟩
  · exact Or.inl ⟨row, hsame.1 ▸ hrow, rfl, rfl⟩
  · cases hbuilt
    have hstart : Owned db.tripUpdates built.tripUpdates db.session :=
      ⟨fun row hrow => ⟨row, hrow, rfl, rfl⟩, by simp [Db.session]⟩
    have howned := handleLoop_owned hstart hloop
    rw [hrows] at hrow
    exact (List.mem_append.1 hrow).imp (howned.rows row) (howned.created row)

/-- Whatever becomes of a feed, a row stays with its trip and its contributor. -/
theorem FeedOutcome.keepsTrip
    {build : Except PyException BuiltFeed}
    (h : FeedOutcome b network db rtu build result)
    {row : TripUpdate} (hrow : row ∈ db.tripUpdates) :
    ∃ row' ∈ result.db.tripUpdates, SameTrip row row' := by
  rcases h.rows with hsame | ⟨built, s, r, -, hloop, hrows, -⟩
  · exact ⟨row, hsame.1 ▸ hrow, rfl, rfl⟩
  · have hvjs := handleLoop_rows_vj (s := db.session) db.uniqueVj hloop
    have hmem : row.vj ∈ s.rows.map TripUpdate.vj := by
      rw [hvjs]
      exact List.mem_map_of_mem hrow
    obtain ⟨row', hrow', hvj⟩ := List.mem_map.1 hmem
    have hstart : Owned db.tripUpdates built.tripUpdates db.session :=
      ⟨fun row hrow => ⟨row, hrow, rfl, rfl⟩, by simp [Db.session]⟩
    obtain ⟨old, hold, hsame⟩ :=
      (handleLoop_owned hstart hloop).rows row' hrow'
    have hown : old = row := KeyedStore.eq_of_key_eq db.uniqueVj hold hrow
      (congrArg VehicleJourney.id (hsame.1.trans hvj))
    subst hown
    rw [hrows]
    exact ⟨row', List.mem_append_left _ hrow', hsame⟩

end Outcome

end Core
end Kirin
