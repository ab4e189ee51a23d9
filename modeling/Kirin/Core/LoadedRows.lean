import Kirin.Core.Purge

/-!
# Kirin: loading the rows back

A trip update is stored in three tables and is loaded back from them: its own
row, its vehicle journey and its stops.

* `Tables.load`: the trip updates that the tables hold.
* `Store.load_tables`: they are those of the store.
* `Store.rows_of_withoutTrips`: the trip updates once some are deleted.
* `rows_of_purgeRtUpdate`: a purge of the feeds leaves them.
-/

namespace Kirin
namespace Core

/-- The trip update of a row, with its vehicle journey and its stops. -/
def Tables.loadRow (t : Tables) (row : TripUpdateRow) : Option TripUpdate :=
  (t.vehicleJourneyOf row).map (fun vj =>
    { vj := vj
      status := row.status
      message := row.message
      companyId := row.companyId
      effect := row.effect
      physicalModeId := row.physicalModeId
      headsign := row.headsign
      contributorId := row.contributorId
      stopTimeUpdates :=
        (t.stopTimeUpdates.filter (fun stop => stop.1 == row.vjId)).map
          Prod.snd })

/-- The trip updates that the tables hold. -/
def Tables.load (t : Tables) : List TripUpdate :=
  t.tripUpdates.filterMap t.loadRow

section Load

variable {s s' : Store}

/-- The stops of a row are those of its trip update. -/
theorem Store.stops_of_row
    {rows : List TripUpdate} (hnodup : (rows.map rowId).Nodup)
    {tu : TripUpdate} (htu : tu ∈ rows) :
    ((rows.flatMap (fun tu => tu.stopTimeUpdates.map
        (fun st => (tu.vj.id, st)))).filter (fun stop => stop.1 == tu.vj.id)).map
          Prod.snd = tu.stopTimeUpdates := by
  -- the stops of a row are all kept, or all left out
  have hown : ∀ row : TripUpdate, (row.stopTimeUpdates.map
        (fun st => (row.vj.id, st))).filter (fun stop => stop.1 == tu.vj.id) =
      if rowId row = rowId tu then
        row.stopTimeUpdates.map (fun st => (row.vj.id, st))
      else [] := by
    intro row
    by_cases hid : rowId row = rowId tu
    · rw [if_pos hid, List.filter_eq_self]
      rintro stop hstop
      obtain ⟨st, -, rfl⟩ := List.mem_map.1 hstop
      exact beq_iff_eq.2 hid
    · rw [if_neg hid, List.filter_eq_nil_iff]
      rintro stop hstop
      obtain ⟨st, -, rfl⟩ := List.mem_map.1 hstop
      exact fun heq => hid (beq_iff_eq.1 heq)
  induction rows with
  | nil =>
      cases htu
  | cons row rest ih =>
      rw [List.map_cons, List.nodup_cons] at hnodup
      rw [List.flatMap_cons, List.filter_append, List.map_append, hown]
      rcases List.mem_cons.1 htu with rfl | hrest
      · have hnone : (rest.flatMap (fun row => row.stopTimeUpdates.map
            (fun st => (row.vj.id, st)))).filter
              (fun stop => stop.1 == tu.vj.id) = [] := by
          rw [List.filter_eq_nil_iff]
          intro stop hstop
          obtain ⟨row, hrow, hmem⟩ := List.mem_flatMap.1 hstop
          obtain ⟨st, -, rfl⟩ := List.mem_map.1 hmem
          intro heq
          exact hnodup.1 (List.mem_map.2 ⟨row, hrow, beq_iff_eq.1 heq⟩)
        rw [if_pos rfl, hnone, List.map_map, List.map_nil, List.append_nil]
        exact List.map_id _
      · have hne : rowId row ≠ rowId tu := fun heq =>
          hnodup.1 (heq ▸ List.mem_map.2 ⟨tu, hrest, rfl⟩)
        rw [if_neg hne, List.map_nil, List.nil_append, ih hnodup.2 hrest]

/-- A trip update is loaded back as it was stored. -/
theorem Store.loadRow_tables
    {tu : TripUpdate} (htu : tu ∈ s.db.tripUpdates) :
    s.tables.loadRow tu.row = some tu := by
  have hstops := Store.stops_of_row s.db.uniqueVj htu
  rw [Tables.loadRow, vehicleJourneyOf_row htu, Option.map_some,
    Option.some.injEq]
  simp only [Store.tables, TripUpdate.row, hstops]

/-- The trip updates are loaded back as they were stored. -/
theorem Store.load_tables
    (s : Store) :
    s.tables.load = s.db.tripUpdates := by
  have hrows : s.tables.tripUpdates = s.db.tripUpdates.map TripUpdate.row := rfl
  rw [Tables.load, hrows, List.filterMap_map]
  conv_rhs => rw [← List.filterMap_some (l := s.db.tripUpdates)]
  exact List.filterMap_congr (fun tu htu => Store.loadRow_tables htu)

/-- A row that is kept is loaded as it was before. -/
theorem Tables.loadRow_withoutTrips
    (t : Tables) {gone : String → Bool} {row : TripUpdateRow}
    (hkept : gone row.vjId = false) :
    (t.withoutTrips gone).loadRow row = t.loadRow row := by
  have hvj : (t.withoutTrips gone).vehicleJourneyOf row =
      t.vehicleJourneyOf row := by
    rw [Tables.vehicleJourneyOf, Tables.withoutTrips, List.find?_filter,
      Tables.vehicleJourneyOf]
    congr 1
    funext vj
    by_cases hid : vj.id = row.vjId
    · simp [hid, hkept]
    · simp [hid]
  have hstops : (t.withoutTrips gone).stopTimeUpdates.filter
      (fun stop => stop.1 == row.vjId) =
      t.stopTimeUpdates.filter (fun stop => stop.1 == row.vjId) := by
    rw [Tables.withoutTrips, List.filter_filter]
    refine List.filter_congr (fun stop _ => ?_)
    by_cases hid : stop.1 = row.vjId
    · simp [hid, hkept]
    · simp [hid]
  rw [Tables.loadRow, hvj, hstops, Tables.loadRow]

/-- The trip updates that are left once some are deleted with all that is theirs. -/
theorem Store.rows_of_withoutTrips
    {gone : String → Bool} (h : s'.tables = s.tables.withoutTrips gone) :
    s'.db.tripUpdates =
      s.db.tripUpdates.filter (fun tu => !gone (rowId tu)) := by
  have hrows : (s.tables.withoutTrips gone).tripUpdates =
      (s.db.tripUpdates.filter (fun tu => !gone (rowId tu))).map
        TripUpdate.row := List.filter_map
  rw [← s'.load_tables, h, Tables.load, hrows, List.filterMap_map]
  conv_rhs => rw [← List.filterMap_some
    (l := s.db.tripUpdates.filter (fun tu => !gone (rowId tu)))]
  refine List.filterMap_congr (fun tu htu => ?_)
  obtain ⟨hmem, hkept⟩ := List.mem_filter.1 htu
  have hgone : gone (rowId tu) = false := by simpa using hkept
  rw [Function.comp_apply, s.tables.loadRow_withoutTrips hgone,
    Store.loadRow_tables hmem]

/-- A purge of the feeds leaves the trip updates. -/
theorem rows_of_purgeRtUpdate
    {config : PurgeConfig} {locked : Bool} {today : Date}
    (h : s'.tables = purgeRtUpdate config locked today s.tables) :
    s'.db.tripUpdates = s.db.tripUpdates := by
  obtain ⟨gone, hpurged, -⟩ := purgeRtUpdate_eq s.tables config locked today
  rw [← s'.load_tables, h, hpurged, ← s.load_tables]
  rfl

end Load

end Core
end Kirin
