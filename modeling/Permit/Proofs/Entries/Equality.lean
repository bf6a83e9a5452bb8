/-
Module: Permit.Proofs.Entries.Equality
Layer: Proofs
Purpose: Equality of entries up to order. The comparison counts the entries on both sides and looks
  up each name of one side on the other. Where no name is repeated, that is enough to compare what
  is found under every name.
Main exports: Entries.Matches, Entries.Matches.cases, Entries.matches_iff, Entries.matches_congr,
  Entries.sameBy_iff_found, Entries.sameBy_iff
-/
import Mathlib.Data.List.Perm.Subperm
import Permit.Entries

namespace Permit.Entries

variable {α : Type} {left right : Entries α} {same : α → α → Bool}

/-- Under each name something is found on both sides or on neither, and what is found is related. -/
def Matches (related : α → α → Prop) (left right : Entries α) : Prop :=
  ∀ name, Option.Rel related (left.get? name) (right.get? name)

/-- Under a name that is missing on one side nothing is found on the other either. -/
theorem Matches.cases {related : α → α → Prop} (matched : Matches related left right)
    (name : String) :
    (left.get? name = none ∧ right.get? name = none) ∨
      ∃ value other, left.get? name = some value ∧ right.get? name = some other ∧
        related value other := by
  have here := matched name
  revert here
  cases left.get? name <;> cases right.get? name <;> simp

/-- Entries match that have the same names, with related values under each of them. -/
theorem matches_iff {related : α → α → Prop} :
    Matches related left right ↔
      (∀ name, name ∈ left.names ↔ name ∈ right.names) ∧
        ∀ name value other, left.get? name = some value → right.get? name = some other →
          related value other := by
  simp only [mem_names_iff, ← forall_and]
  apply forall_congr'
  intro name
  cases left.get? name <;> cases right.get? name <;> simp

/-- Only values that stand under one name are compared. -/
theorem matches_congr {related linked : α → α → Prop}
    (alike : ∀ name value other, left.get? name = some value → right.get? name = some other →
      (related value other ↔ linked value other)) :
    Matches related left right ↔ Matches linked left right := by
  rw [matches_iff, matches_iff]
  apply and_congr_right
  intro _
  refine forall_congr' fun name => forall_congr' fun value => forall_congr' fun other =>
    forall_congr' fun here => forall_congr' fun there => ?_
  exact alike name value other here there

/-!
### The comparison
-/

/-- As many entries on both sides, and the same found under each name of the left one. -/
theorem sameBy_iff_found :
    sameBy same left right = true ↔ left.length = right.length ∧
      ∀ entry ∈ left, ∃ other, right.get? entry.1 = some other ∧ same entry.2 other = true := by
  simp [sameBy, Option.any_eq_true]

/-- Where the names of one side are among as many names of the other they are all of them. -/
theorem mem_names_iff_of_subset (unique : left.Unique) (subset : left.names ⊆ right.names)
    (length : left.length = right.length) (name : String) :
    name ∈ left.names ↔ name ∈ right.names := by
  have fits : right.names.length ≤ left.names.length := by simp [names, length]
  exact ((List.subperm_of_subset unique subset).perm_of_length_le fits).mem_iff

/-- Entries of the same unique names are equally many. -/
theorem length_eq_of_names (leftUnique : left.Unique) (rightUnique : right.Unique)
    (names : ∀ name, name ∈ left.names ↔ name ∈ right.names) : left.length = right.length := by
  have perm := (List.perm_ext_iff_of_nodup leftUnique rightUnique).mpr names
  simpa [Entries.names] using perm.length_eq

/-- Counting the entries and finding each name on the other side compares what is under all names of
    both. -/
theorem sameBy_iff (leftUnique : left.Unique) (rightUnique : right.Unique) :
    sameBy same left right = true ↔
      Matches (fun value other => same value other = true) left right := by
  rw [sameBy_iff_found, matches_iff]
  constructor
  · rintro ⟨length, found⟩
    have subset : left.names ⊆ right.names := by
      intro name member
      obtain ⟨value, here⟩ := mem_names_iff.mp member
      obtain ⟨other, there, _⟩ := found _ (mem_of_get? here)
      exact mem_names_iff.mpr ⟨other, there⟩
    refine ⟨mem_names_iff_of_subset leftUnique subset length, ?_⟩
    intro name value other here there
    obtain ⟨partner, partnered, equal⟩ := found _ (mem_of_get? here)
    obtain rfl : partner = other := Option.some.inj (partnered.symm.trans there)
    exact equal
  · rintro ⟨names, values⟩
    refine ⟨length_eq_of_names leftUnique rightUnique names, ?_⟩
    rintro ⟨name, value⟩ member
    have here : left.get? name = some value := leftUnique.get?_of_mem member
    obtain ⟨other, there⟩ := mem_names_iff.mp ((names name).mp (mem_names_iff.mpr ⟨value, here⟩))
    exact ⟨other, there, values name value other here there⟩

end Permit.Entries
