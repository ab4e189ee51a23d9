import Mathlib.Data.List.Forall2
import Mathlib.Tactic.Common

/-!
# Lists related element by element

Two lists are related by `List.Forall₂` when they have the same length and each
element of the one is related to the element at the same place of the other.

* `exists_of_mem_left`, `exists_of_mem_right`: every element has a partner.
* `of_getElem?`, `exists_getElem?`: elements at the same place are related.
* `zip_right`: a list related to two others is related to their pairs.
* `map_eq_map_iff`: two lists with the same image under two functions.
* `find?_rel`: a search that does not tell partners apart finds partners.
-/

namespace RelatedLists

variable {α β γ : Type} {R : α → β → Prop}
variable {as : List α} {bs : List β} {cs : List γ}

/-- Every element of the first list has a partner in the second one. -/
theorem exists_of_mem_left
    (h : List.Forall₂ R as bs) {a : α} (ha : a ∈ as) :
    ∃ b ∈ bs, R a b := by
  induction h with
  | nil =>
      cases ha
  | @cons a' b as bs hab _ ih =>
      rcases List.mem_cons.1 ha with rfl | hrest
      · exact ⟨b, List.mem_cons_self, hab⟩
      · rcases ih hrest with ⟨b', hb', hab'⟩
        exact ⟨b', List.mem_cons_of_mem b hb', hab'⟩

theorem exists_of_mem_right
    (h : List.Forall₂ R as bs) {b : β} (hb : b ∈ bs) :
    ∃ a ∈ as, R a b :=
  exists_of_mem_left h.flip hb

/-- Elements at the same place are related. -/
theorem of_getElem?
    (h : List.Forall₂ R as bs) {i : Nat} {a : α} {b : β}
    (ha : as[i]? = some a) (hb : bs[i]? = some b) :
    R a b := by
  induction h generalizing i with
  | nil =>
      cases ha
  | cons hab _ ih =>
      cases i with
      | zero =>
          cases ha
          cases hb
          exact hab
      | succ i =>
          exact ih ha hb

/-- Every element has its partner at the same place. -/
theorem exists_getElem?
    (h : List.Forall₂ R as bs) {i : Nat} {a : α} (ha : as[i]? = some a) :
    ∃ b, bs[i]? = some b ∧ R a b := by
  obtain ⟨hi, -⟩ := List.getElem?_eq_some_iff.1 ha
  rw [h.length_eq] at hi
  have hb := List.getElem?_eq_getElem hi
  exact ⟨bs[i], hb, of_getElem? h ha hb⟩

/-- A list related to two others is related to the list of their pairs. -/
theorem zip_right
    {S : α → γ → Prop}
    (h : List.Forall₂ R as bs) (h' : List.Forall₂ S as cs) :
    List.Forall₂ (fun a p => R a p.1 ∧ S a p.2) as (bs.zip cs) := by
  induction h generalizing cs with
  | nil =>
      exact List.Forall₂.nil
  | cons hab _ ih =>
      cases h' with
      | cons hac h' =>
          exact List.Forall₂.cons ⟨hab, hac⟩ (ih h')

/-- A transitive relation of elements is transitive on lists. -/
theorem forall₂_trans
    {R : α → α → Prop} (htrans : ∀ a b c, R a b → R b c → R a c)
    {as bs cs : List α}
    (h : List.Forall₂ R as bs) (h' : List.Forall₂ R bs cs) :
    List.Forall₂ R as cs := by
  induction h generalizing cs with
  | nil =>
      cases h'
      exact List.Forall₂.nil
  | cons hab _ ih =>
      cases h' with
      | cons hbc hrest =>
          exact List.Forall₂.cons (htrans _ _ _ hab hbc) (ih hrest)

/-- Two lists with the same image are related by the equality of the images. -/
theorem map_eq_map_iff
    {f : α → γ} {g : β → γ} :
    as.map f = bs.map g ↔ List.Forall₂ (fun a b => f a = g b) as bs := by
  rw [← List.forall₂_eq_eq_eq, List.forall₂_map_left_iff,
    List.forall₂_map_right_iff]

/-- A search that does not tell related elements apart finds related ones. -/
theorem find?_rel
    {p : α → Bool} {q : β → Bool}
    (h : List.Forall₂ R as bs) (hpq : ∀ a b, R a b → p a = q b) :
    Option.Rel R (as.find? p) (bs.find? q) := by
  induction h with
  | nil =>
      exact Option.Rel.none
  | @cons a b as bs hab _ ih =>
      have hsame := hpq a b hab
      cases hqb : q b with
      | true =>
          rw [hqb] at hsame
          rw [List.find?_cons_of_pos hsame, List.find?_cons_of_pos hqb]
          exact Option.Rel.some hab
      | false =>
          rw [hqb] at hsame
          rw [List.find?_cons_of_neg (by simp [hsame]),
            List.find?_cons_of_neg (by simp [hqb])]
          exact ih

end RelatedLists
