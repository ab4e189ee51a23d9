import Kirin.Core.BuildWrapper
import Kirin.Library.Cascade
import Kirin.Library.KeyedStore

/-!
# Kirin: the tables of the database and their delete cascades

A loaded trip update holds its vehicle journey and its stops, which have tables
of their own.  This module follows the declarations of `kirin/core/model.py`
that concern deletion: the cascades of the relationships, which the ORM follows
when an object is deleted, and those of the foreign keys, for the rows that a
query deletes.

* `Tables.cascades`: what the deletion of a row brings with it.
* `Tables.ormDelete`: the deletion of a trip update with its cascades.
* `Tables.removeByContributorsAndPeriod`, `Tables.removeByContributorsUntil`:
  the two purges.
* `ormDelete_eq`: without association, a trip update only takes its own rows.
* `removeExpiredTrips_eq`, `removeExpiredFeeds_eq`: the rows that the two purges
  take.
-/

namespace Kirin
namespace Core

/-- A row of `trip_update`. -/
structure TripUpdateRow where
  vjId : String
  status : ModificationType
  message : Option String
  companyId : Option String
  effect : Option TripEffect
  physicalModeId : Option String
  headsign : Option String
  contributorId : String
deriving DecidableEq, Repr

/-- A row of `real_time_update`. -/
structure RealTimeUpdateRow where
  realTimeUpdate : RealTimeUpdate
  createdAt : Datetime
deriving DecidableEq, Repr

/-- The identifier of a feed in its table. -/
def RealTimeUpdateRow.id (row : RealTimeUpdateRow) : String :=
  row.realTimeUpdate.id

/--
The tables of the database.  A stop time update comes with its `trip_update_id`,
an association is a `real_time_update_id` and a `trip_update_id`.
-/
structure Tables where
  vehicleJourneys : List VehicleJourney
  tripUpdates : List TripUpdateRow
  stopTimeUpdates : List (String × StopTimeUpdate)
  realTimeUpdates : List RealTimeUpdateRow
  associations : List (String × String)
deriving DecidableEq, Repr

/-- The rows that have an object of their own. -/
inductive Row
  | vehicleJourney (id : String)
  | tripUpdate (vjId : String)
  | stopTimeUpdate (stop : String × StopTimeUpdate)
  | realTimeUpdate (id : String)
deriving DecidableEq, Repr

namespace Tables

/--
The relationships that cascade a deletion, from a row to another: between a trip
update and its vehicle journey and between a feed and its trip updates, both
ways, and from a trip update to its stops.
-/
def cascades (t : Tables) : List (Row × Row) :=
  t.tripUpdates.map (fun row =>
      (Row.tripUpdate row.vjId, Row.vehicleJourney row.vjId))
    ++ t.tripUpdates.map (fun row =>
      (Row.vehicleJourney row.vjId, Row.tripUpdate row.vjId))
    ++ t.stopTimeUpdates.map (fun stop =>
      (Row.tripUpdate stop.1, Row.stopTimeUpdate stop))
    ++ t.associations.map (fun p =>
      (Row.realTimeUpdate p.1, Row.tripUpdate p.2))
    ++ t.associations.map (fun p =>
      (Row.tripUpdate p.2, Row.realTimeUpdate p.1))

/-- Delete some rows, with the associations that refer to them. -/
def removeRows (t : Tables) (rows : List Row) : Tables where
  vehicleJourneys := t.vehicleJourneys.filter
    (fun vj => decide (Row.vehicleJourney vj.id ∉ rows))
  tripUpdates := t.tripUpdates.filter
    (fun row => decide (Row.tripUpdate row.vjId ∉ rows))
  stopTimeUpdates := t.stopTimeUpdates.filter
    (fun stop => decide (Row.stopTimeUpdate stop ∉ rows))
  realTimeUpdates := t.realTimeUpdates.filter
    (fun row => decide (Row.realTimeUpdate row.id ∉ rows))
  associations := t.associations.filter
    (fun p => decide (Row.realTimeUpdate p.1 ∉ rows ∧
      Row.tripUpdate p.2 ∉ rows))

/-- `db.session.delete` of a trip update, with its cascades. -/
def ormDelete (t : Tables) (vjId : String) : Tables :=
  t.removeRows (Cascade.closure t.cascades [.tripUpdate vjId])

/-- Delete the associations of a trip update. -/
def deleteAssociations (t : Tables) (vjId : String) : Tables :=
  { t with associations := t.associations.filter (fun p => p.2 != vjId) }

/-- The vehicle journey that a trip update is read with. -/
def vehicleJourneyOf (t : Tables) (row : TripUpdateRow) :
    Option VehicleJourney :=
  t.vehicleJourneys.find? (fun vj => vj.id == row.vjId)

/--
The trip updates of some contributors, from the start of one day on and before
the start of another one.
-/
def findByContributorPeriod
    (t : Tables) (contributors : List String)
    (startDate endDate : Option Date) : List TripUpdateRow :=
  t.tripUpdates.filter (fun row =>
    contributors.contains row.contributorId
      && startDate.all (fun d => (t.vehicleJourneyOf row).any
        (fun vj => decide (combine d midnight ≤ vj.startTimestamp)))
      && endDate.all (fun d => (t.vehicleJourneyOf row).any
        (fun vj => decide (vj.startTimestamp < combine d midnight))))

/--
Delete the trip updates of some contributors within a period, each one after its
associations.
-/
def removeByContributorsAndPeriod
    (t : Tables) (contributors : List String)
    (startDate endDate : Option Date) : Tables :=
  (t.findByContributorPeriod contributors startDate endDate).foldl
    (fun t row => (t.deleteAssociations row.vjId).ormDelete row.vjId) t

/-- The feeds of some contributors created before a day and without association. -/
def unlinkedUntil
    (t : Tables) (contributors : List String) (untilDate : Date) : List String :=
  (t.realTimeUpdates.filter (fun row =>
    contributors.contains row.realTimeUpdate.contributorId
      && decide (row.createdAt < combine untilDate midnight)
      && !t.associations.any (fun p => p.1 == row.id))).map
    RealTimeUpdateRow.id

/--
Delete the feeds of some contributors created before a day and without
association.  No object is loaded: only the foreign keys cascade.
-/
def removeByContributorsUntil
    (t : Tables) (contributors : List String) (untilDate : Date) : Tables :=
  let subQuery := t.unlinkedUntil contributors untilDate
  { t with
    realTimeUpdates :=
      t.realTimeUpdates.filter (fun row => !subQuery.contains row.id)
    associations :=
      t.associations.filter (fun p => !subQuery.contains p.1) }

/-- The tables without some trip updates and all that is theirs. -/
def withoutTrips (t : Tables) (gone : String → Bool) : Tables where
  vehicleJourneys := t.vehicleJourneys.filter (fun vj => !gone vj.id)
  tripUpdates := t.tripUpdates.filter (fun row => !gone row.vjId)
  stopTimeUpdates := t.stopTimeUpdates.filter (fun stop => !gone stop.1)
  realTimeUpdates := t.realTimeUpdates
  associations := t.associations.filter (fun p => !gone p.2)

/-- The tables without some feeds. -/
def withoutFeeds (t : Tables) (gone : String → Bool) : Tables :=
  { t with
    realTimeUpdates := t.realTimeUpdates.filter (fun row => !gone row.id) }

/--
A trip update of a contributor is expired when its vehicle journey starts before
a day.
-/
def TripExpired
    (t : Tables) (contributor : String) (untilDate : Date) (vjId : String) :
    Prop :=
  ∃ row ∈ t.tripUpdates, row.vjId = vjId ∧ row.contributorId = contributor ∧
    ∃ vj ∈ t.vehicleJourneys, vj.id = vjId ∧
      vj.startTimestamp < combine untilDate midnight

instance (t : Tables) (contributor : String) (untilDate : Date)
    (vjId : String) : Decidable (t.TripExpired contributor untilDate vjId) :=
  inferInstanceAs (Decidable (∃ row ∈ t.tripUpdates, _))

/--
A feed of a contributor is expired when it is created before a day and linked to
no trip update.
-/
def FeedExpired
    (t : Tables) (contributor : String) (untilDate : Date) (id : String) :
    Prop :=
  ∃ row ∈ t.realTimeUpdates, row.id = id ∧
    row.realTimeUpdate.contributorId = contributor ∧
    row.createdAt < combine untilDate midnight ∧
    ∀ p ∈ t.associations, p.1 ≠ id

instance (t : Tables) (contributor : String) (untilDate : Date)
    (id : String) : Decidable (t.FeedExpired contributor untilDate id) :=
  inferInstanceAs (Decidable (∃ row ∈ t.realTimeUpdates, _))

section OrmDelete

variable {t : Tables} {vjId : String}

/-- A row that belongs to a trip update, the feeds apart. -/
def OwnedBy (vjId : String) : Row → Prop
  | .vehicleJourney id => id = vjId
  | .tripUpdate id => id = vjId
  | .stopTimeUpdate stop => stop.1 = vjId
  | .realTimeUpdate _ => False

/-- Without association, the cascades of a trip update stay within its rows. -/
theorem ownedBy_of_cascade
    (hfree : ∀ p ∈ t.associations, p.2 ≠ vjId) {l : Row × Row}
    (hl : l ∈ t.cascades) (hfrom : OwnedBy vjId l.1) :
    OwnedBy vjId l.2 := by
  simp only [cascades, List.mem_append, List.mem_map] at hl
  rcases hl with (((⟨row, -, rfl⟩ | ⟨row, -, rfl⟩) | ⟨stop, -, rfl⟩) |
    ⟨p, -, rfl⟩) | ⟨p, hp, rfl⟩
  · exact hfrom
  · exact hfrom
  · exact hfrom
  · exact hfrom.elim
  · exact absurd hfrom (hfree p hp)

/-- Without association, a trip update only brings its own rows with it. -/
theorem ownedBy_of_mem_closure
    (hfree : ∀ p ∈ t.associations, p.2 ≠ vjId) {row : Row}
    (hrow : row ∈ Cascade.closure t.cascades [.tripUpdate vjId]) :
    OwnedBy vjId row := by
  refine Cascade.closure_induction (P := OwnedBy vjId)
    (fun l hl => ownedBy_of_cascade hfree hl) (fun y hy => ?_) hrow
  rw [List.mem_singleton.1 hy]
  exact rfl

/-- A trip update brings its vehicle journey with it. -/
theorem vehicleJourney_mem_closure
    (hmem : vjId ∈ t.tripUpdates.map TripUpdateRow.vjId) :
    Row.vehicleJourney vjId ∈
      Cascade.closure t.cascades [.tripUpdate vjId] := by
  refine Cascade.mem_closure_iff.2 ⟨_, List.mem_singleton.2 rfl,
    Relation.ReflTransGen.single ?_⟩
  obtain ⟨row, hrow, rfl⟩ := List.mem_map.1 hmem
  simp only [cascades, List.mem_append, List.mem_map]
  exact Or.inl (Or.inl (Or.inl (Or.inl ⟨row, hrow, rfl⟩)))

/-- A trip update brings its stops with it. -/
theorem stopTimeUpdate_mem_closure
    {stop : String × StopTimeUpdate} (hstop : stop ∈ t.stopTimeUpdates) :
    Row.stopTimeUpdate stop ∈
      Cascade.closure t.cascades [.tripUpdate stop.1] := by
  refine Cascade.mem_closure_iff.2 ⟨_, List.mem_singleton.2 rfl,
    Relation.ReflTransGen.single ?_⟩
  simp only [cascades, List.mem_append, List.mem_map]
  exact Or.inl (Or.inl (Or.inr ⟨stop, hstop, rfl⟩))

/-- The deletion of a trip update that has no association left. -/
theorem ormDelete_eq
    (hmem : vjId ∈ t.tripUpdates.map TripUpdateRow.vjId)
    (hfree : ∀ p ∈ t.associations, p.2 ≠ vjId) :
    t.ormDelete vjId = t.withoutTrips (fun id => decide (id = vjId)) := by
  have hown : ∀ row, row ∈ Cascade.closure t.cascades [.tripUpdate vjId] →
      OwnedBy vjId row := fun row hrow => ownedBy_of_mem_closure hfree hrow
  have hself : Row.tripUpdate vjId ∈
      Cascade.closure t.cascades [.tripUpdate vjId] :=
    Cascade.subset_reached _ (List.mem_singleton.2 rfl)
  have hvehicleJourney : ∀ id,
      Row.vehicleJourney id ∈ Cascade.closure t.cascades [.tripUpdate vjId] ↔
        id = vjId := by
    refine fun id => ⟨hown _, ?_⟩
    rintro rfl
    exact vehicleJourney_mem_closure hmem
  have htripUpdate : ∀ id,
      Row.tripUpdate id ∈ Cascade.closure t.cascades [.tripUpdate vjId] ↔
        id = vjId := by
    refine fun id => ⟨hown _, ?_⟩
    rintro rfl
    exact hself
  have hstop : ∀ stop ∈ t.stopTimeUpdates,
      (Row.stopTimeUpdate stop ∈
        Cascade.closure t.cascades [.tripUpdate vjId] ↔ stop.1 = vjId) := by
    refine fun stop hstop => ⟨hown _, ?_⟩
    rintro rfl
    exact stopTimeUpdate_mem_closure hstop
  have hfeed : ∀ id, Row.realTimeUpdate id ∉
      Cascade.closure t.cascades [.tripUpdate vjId] := fun id => hown _
  have hstops : t.stopTimeUpdates.filter (fun stop =>
      !decide (Row.stopTimeUpdate stop ∈
        Cascade.closure t.cascades [.tripUpdate vjId])) =
      t.stopTimeUpdates.filter (fun stop => !decide (stop.1 = vjId)) := by
    refine List.filter_congr (fun stop hmem => ?_)
    simp [hstop stop hmem]
  simp [ormDelete, removeRows, withoutTrips, hvehicleJourney, htripUpdate,
    hfeed, hstops]

/-- A trip update is deleted with its rows, once its associations are. -/
theorem deleteAssociations_ormDelete
    (hmem : vjId ∈ t.tripUpdates.map TripUpdateRow.vjId) :
    (t.deleteAssociations vjId).ormDelete vjId =
      t.withoutTrips (fun id => decide (id = vjId)) := by
  have hfree : ∀ p ∈ (t.deleteAssociations vjId).associations,
      p.2 ≠ vjId := by
    intro p hp
    simpa using (List.mem_filter.1 hp).2
  rw [ormDelete_eq (t := t.deleteAssociations vjId) hmem hfree]
  simp only [withoutTrips, deleteAssociations, List.filter_filter,
    Tables.mk.injEq, true_and]
  refine List.filter_congr (fun p _ => ?_)
  by_cases h : p.2 = vjId <;> simp [h]

end OrmDelete

section Purges

variable {t : Tables} {contributors : List String}
variable {contributor : String} {untilDate : Date}

theorem withoutTrips_withoutTrips
    (t : Tables) (gone gone' : String → Bool) :
    (t.withoutTrips gone).withoutTrips gone' =
      t.withoutTrips (fun id => gone id || gone' id) := by
  simp [withoutTrips, List.filter_filter, Bool.and_comm]

/-- The deletion of several trip updates, one after the other. -/
theorem foldl_deleteTrips
    {rows : List TripUpdateRow} (hsub : ∀ row ∈ rows, row ∈ t.tripUpdates)
    (hnodup : (rows.map TripUpdateRow.vjId).Nodup) :
    rows.foldl
        (fun t row => (t.deleteAssociations row.vjId).ormDelete row.vjId) t =
      t.withoutTrips (fun id => (rows.map TripUpdateRow.vjId).contains id) := by
  induction rows generalizing t with
  | nil =>
      simp [withoutTrips]
  | cons row rest ih =>
      rw [List.forall_mem_cons] at hsub
      rw [List.map_cons, List.nodup_cons] at hnodup
      rw [List.foldl_cons,
        deleteAssociations_ormDelete (List.mem_map.2 ⟨row, hsub.1, rfl⟩),
        ih ?_ hnodup.2, withoutTrips_withoutTrips]
      · simp only [List.map_cons, List.contains_cons]
        congr
      · intro row' hrow'
        refine List.mem_filter.2 ⟨hsub.2 row' hrow', ?_⟩
        have hne : row'.vjId ≠ row.vjId := by
          intro heq
          exact hnodup.1 (heq ▸ List.mem_map.2 ⟨row', hrow', rfl⟩)
        simp [hne]

/-- The purge of the trip updates takes those it finds, and what is theirs. -/
theorem removeByContributorsAndPeriod_eq
    (hnodup : (t.tripUpdates.map TripUpdateRow.vjId).Nodup)
    (contributors : List String) (startDate endDate : Option Date) :
    t.removeByContributorsAndPeriod contributors startDate endDate =
      t.withoutTrips (fun id =>
        ((t.findByContributorPeriod contributors startDate endDate).map
          TripUpdateRow.vjId).contains id) := by
  refine foldl_deleteTrips (fun row hrow => (List.mem_filter.1 hrow).1) ?_
  exact hnodup.sublist (List.filter_sublist.map _)

/-- A vehicle journey is found by its identifier. -/
theorem vehicleJourneyOf_any_iff
    (hnodup : (t.vehicleJourneys.map VehicleJourney.id).Nodup)
    (row : TripUpdateRow) (p : VehicleJourney → Bool) :
    (t.vehicleJourneyOf row).any p = true ↔
      ∃ vj ∈ t.vehicleJourneys, vj.id = row.vjId ∧ p vj = true := by
  rw [Option.any_eq_true]
  constructor
  · rintro ⟨vj, hfind, hp⟩
    exact ⟨vj, List.mem_of_find?_eq_some hfind,
      by simpa using List.find?_some hfind, hp⟩
  · rintro ⟨vj, hmem, hid, hp⟩
    exact ⟨vj, KeyedStore.find?_eq_some_of_key hnodup (by simp [hid]) hmem, hp⟩

/-- The trip updates found before a day are the expired ones. -/
theorem mem_find_iff
    (hnodup : (t.vehicleJourneys.map VehicleJourney.id).Nodup)
    {vjId : String} :
    vjId ∈ (t.findByContributorPeriod [contributor] none
        (some untilDate)).map TripUpdateRow.vjId ↔
      t.TripExpired contributor untilDate vjId := by
  simp only [findByContributorPeriod, List.mem_map, List.mem_filter,
    Option.all_none, Option.all_some, Bool.and_true, Bool.and_eq_true,
    vehicleJourneyOf_any_iff hnodup, decide_eq_true_eq, List.contains_iff_mem,
    List.mem_singleton]
  constructor
  · rintro ⟨row, ⟨hrow, hcontributor, hstart⟩, rfl⟩
    exact ⟨row, hrow, rfl, hcontributor, hstart⟩
  · rintro ⟨row, hrow, rfl, hcontributor, hstart⟩
    exact ⟨row, ⟨hrow, hcontributor, hstart⟩, rfl⟩

/-- The purge of the trip updates takes the expired ones. -/
theorem removeExpiredTrips_eq
    (hvehicleJourneys : (t.vehicleJourneys.map VehicleJourney.id).Nodup)
    (htripUpdates : (t.tripUpdates.map TripUpdateRow.vjId).Nodup)
    (contributor : String) (untilDate : Date) :
    t.removeByContributorsAndPeriod [contributor] none (some untilDate) =
      t.withoutTrips
        (fun id => decide (t.TripExpired contributor untilDate id)) := by
  rw [removeByContributorsAndPeriod_eq htripUpdates]
  congr 1
  funext id
  rw [Bool.eq_iff_iff, List.contains_iff_mem, mem_find_iff hvehicleJourneys,
    decide_eq_true_eq]

/-- A feed that has an association is not among those to delete. -/
theorem not_mem_unlinkedUntil
    {p : String × String} (hp : p ∈ t.associations) (untilDate : Date) :
    p.1 ∉ t.unlinkedUntil contributors untilDate := by
  intro hmem
  obtain ⟨row, hrow, hid⟩ := List.mem_map.1 hmem
  have hlinked : t.associations.any (fun p => p.1 == row.id) = true :=
    List.any_eq_true.2 ⟨p, hp, by simp [hid]⟩
  simp [hlinked] at hrow

/-- The purge of the feeds leaves everything else as it is. -/
theorem removeByContributorsUntil_eq
    (t : Tables) (contributors : List String) (untilDate : Date) :
    t.removeByContributorsUntil contributors untilDate =
      t.withoutFeeds
        (fun id => (t.unlinkedUntil contributors untilDate).contains id) := by
  have hassociations : t.associations.filter
      (fun p => !(t.unlinkedUntil contributors untilDate).contains p.1) =
      t.associations := by
    refine List.filter_eq_self.2 (fun p hp => ?_)
    simpa using not_mem_unlinkedUntil hp untilDate
  simp only [removeByContributorsUntil, withoutFeeds, hassociations]

/-- The purge of the feeds takes the expired ones. -/
theorem removeExpiredFeeds_eq
    (t : Tables) (contributor : String) (untilDate : Date) :
    t.removeByContributorsUntil [contributor] untilDate =
      t.withoutFeeds
        (fun id => decide (t.FeedExpired contributor untilDate id)) := by
  rw [removeByContributorsUntil_eq]
  congr 1
  funext id
  rw [Bool.eq_iff_iff, List.contains_iff_mem, decide_eq_true_eq]
  simp only [unlinkedUntil, FeedExpired, List.mem_map, List.mem_filter,
    Bool.and_eq_true, List.contains_iff_mem, List.mem_singleton,
    decide_eq_true_eq, Bool.not_eq_true', List.any_eq_false, beq_iff_eq]
  constructor
  · rintro ⟨row, ⟨hrow, ⟨hcontributor, hcreated⟩, hfree⟩, rfl⟩
    exact ⟨row, hrow, rfl, hcontributor, hcreated, hfree⟩
  · rintro ⟨row, hrow, rfl, hcontributor, hcreated, hfree⟩
    exact ⟨row, ⟨hrow, ⟨hcontributor, hcreated⟩, hfree⟩, rfl⟩

end Purges

end Tables

end Core
end Kirin
