import Kirin.Cots.ModelMaker
import Kirin.Library.Span
import Kirin.Piv.ModelMaker

/-!
# Kirin: the stops of a COTS or PIV feed where travelers hop on and off

Both builders sort the stops of a feed and go through them once.  They keep the
stops that travelers can use: one hops on at or before such a stop, and hops off
at or after it.

* `interestingPdp_eq`, `interestingStops_eq`: the two loops are one pass.
* `relevantStops`: what they keep.
-/

namespace Kirin

/-- The loop over the points of a COTS feed, of which only stations count. -/
theorem Cots.interestingPdp_eq
    (pickedOne : Bool) (pdps : List Cots.Pdp) :
    interestingPdp pickedOne pdps =
      Span.select isStation (fun p => p.hasHoraire .departure)
        (fun p => p.hasHoraire .arrival) pickedOne pdps := by
  induction pdps generalizing pickedOne with
  | nil =>
      rfl
  | cons pdp rest ih =>
      simp only [interestingPdp, Span.select, ih]

/-- The loop over the stops of a PIV feed, all of which count. -/
theorem Piv.interestingStops_eq
    (pickedOne : Bool) (stops : List Piv.Arret) :
    interestingStops pickedOne stops =
      Span.select (fun _ => true) hasDeparture hasArrival pickedOne stops := by
  induction stops generalizing pickedOne with
  | nil =>
      rfl
  | cons stop rest ih =>
      simp only [interestingStops, Span.select, ih, Bool.not_true,
        Bool.false_eq_true, if_false, Bool.and_true]

/--
The stops that are kept of a feed are, in the order of their ranks, those between
a departure and an arrival of travelers.
-/
theorem relevantStops
    (pdps : List Cots.Pdp) (stops : List Piv.Arret) :
    Span.Selects Cots.Pdp.rang Cots.isStation
        (fun p => p.hasHoraire .departure) (fun p => p.hasHoraire .arrival)
        Cots.retrieveInterestingPdp pdps ∧
      Span.Selects Piv.Arret.rang (fun _ => true) Piv.hasDeparture
        Piv.hasArrival Piv.retrieveInterestingStops stops := by
  constructor
  · exact Span.selects_of_select _
      (fun l => Cots.interestingPdp_eq false _) pdps
  · exact Span.selects_of_select _
      (fun l => Piv.interestingStops_eq false _) stops

end Kirin
