/-
Module: Permit.Proofs.Query.Simplification
Layer: Proofs
Purpose: What the simplifying constructors do, case by case: constants absorb or drop out, and two
  queries that are not constants are combined as they stand. A query of any shape is simplified by
  rebuilding it through them, and loses conditions by it, but gains and moves none.
Main exports: Query.IsConstant, Query.disjoin_cases, Query.conjoin_cases, Query.negate_cases,
  Query.disjoin_of_not_constant, Query.conjoin_of_not_constant, Query.disjoin_eq_always_iff,
  Query.conjoin_eq_always_iff, Query.disjoin_eq_never_iff, Query.conjoin_eq_never_iff,
  Query.simplify, Query.hashLeaves_simplify_sublist
-/
import Permit.Query

namespace Permit.Query

/-- The query selects every object or none, whatever they are. -/
def IsConstant (query : Query) : Prop := query = .always ∨ query = .never

/-- The four things a union can come to. -/
theorem disjoin_cases (left right : Query) :
    ((left = .always ∨ right = .always) ∧ left.disjoin right = .always) ∨
    (left = .never ∧ left.disjoin right = right) ∨
    (right = .never ∧ left.disjoin right = left) ∨
    (¬ left.IsConstant ∧ ¬ right.IsConstant ∧ left.disjoin right = .or left right) := by
  fun_cases disjoin left right <;> simp_all [IsConstant]

/-- The four things an intersection can come to. -/
theorem conjoin_cases (left right : Query) :
    ((left = .never ∨ right = .never) ∧ left.conjoin right = .never) ∨
    (left = .always ∧ left.conjoin right = right) ∨
    (right = .always ∧ left.conjoin right = left) ∨
    (¬ left.IsConstant ∧ ¬ right.IsConstant ∧ left.conjoin right = .and left right) := by
  fun_cases conjoin left right <;> simp_all [IsConstant]

/-- The four things a complement can come to. -/
theorem negate_cases (query : Query) :
    (query = .always ∧ query.negate = .never) ∨ (query = .never ∧ query.negate = .always) ∨
    (∃ inner, query = .not inner ∧ query.negate = inner) ∨
    (¬ query.IsConstant ∧ query.negate = .not query) := by
  fun_cases negate query <;> simp_all [IsConstant]

/-!
### Constants
-/

theorem always_disjoin (query : Query) : Query.always.disjoin query = .always := rfl

theorem disjoin_always (query : Query) : query.disjoin .always = .always := by
  cases query <;> rfl

theorem never_disjoin (query : Query) : Query.never.disjoin query = query := by
  cases query <;> rfl

theorem never_conjoin (query : Query) : Query.never.conjoin query = .never := rfl

theorem conjoin_never (query : Query) : query.conjoin .never = .never := by
  cases query <;> rfl

theorem always_conjoin (query : Query) : Query.always.conjoin query = query := by
  cases query <;> rfl

/-- Queries that are not constants are joined as they stand. -/
theorem disjoin_of_not_constant {left right : Query} (leftOpen : ¬ left.IsConstant)
    (rightOpen : ¬ right.IsConstant) : left.disjoin right = .or left right := by
  rcases disjoin_cases left right with ⟨rfl | rfl, _⟩ | ⟨rfl, _⟩ | ⟨rfl, _⟩ | ⟨_, _, joined⟩
  · exact absurd (.inl rfl) leftOpen
  · exact absurd (.inl rfl) rightOpen
  · exact absurd (.inr rfl) leftOpen
  · exact absurd (.inr rfl) rightOpen
  · exact joined

/-- Queries that are not constants are intersected as they stand. -/
theorem conjoin_of_not_constant {left right : Query} (leftOpen : ¬ left.IsConstant)
    (rightOpen : ¬ right.IsConstant) : left.conjoin right = .and left right := by
  rcases conjoin_cases left right with ⟨rfl | rfl, _⟩ | ⟨rfl, _⟩ | ⟨rfl, _⟩ | ⟨_, _, joined⟩
  · exact absurd (.inr rfl) leftOpen
  · exact absurd (.inr rfl) rightOpen
  · exact absurd (.inl rfl) leftOpen
  · exact absurd (.inl rfl) rightOpen
  · exact joined

/-- A union selects everything by its form only where one of the sides does. -/
theorem disjoin_eq_always_iff {left right : Query} :
    left.disjoin right = .always ↔ left = .always ∨ right = .always := by
  rcases disjoin_cases left right with
    ⟨rfl | rfl, joined⟩ | ⟨rfl, joined⟩ | ⟨rfl, joined⟩ | ⟨leftOpen, rightOpen, joined⟩ <;>
    simp_all [IsConstant]

/-- An intersection selects everything by its form only where both sides do. -/
theorem conjoin_eq_always_iff {left right : Query} :
    left.conjoin right = .always ↔ left = .always ∧ right = .always := by
  rcases conjoin_cases left right with
    ⟨rfl | rfl, joined⟩ | ⟨rfl, joined⟩ | ⟨rfl, joined⟩ | ⟨leftOpen, _, joined⟩ <;>
    simp_all [IsConstant]

/-- A union selects nothing by its form only where both sides do. -/
theorem disjoin_eq_never_iff {left right : Query} :
    left.disjoin right = .never ↔ left = .never ∧ right = .never := by
  rcases disjoin_cases left right with
    ⟨rfl | rfl, joined⟩ | ⟨rfl, joined⟩ | ⟨rfl, joined⟩ | ⟨leftOpen, _, joined⟩ <;>
    simp_all [IsConstant]

/-- An intersection selects nothing by its form only where one of the sides does. -/
theorem conjoin_eq_never_iff {left right : Query} :
    left.conjoin right = .never ↔ left = .never ∨ right = .never := by
  rcases conjoin_cases left right with
    ⟨rfl | rfl, joined⟩ | ⟨rfl, joined⟩ | ⟨rfl, joined⟩ | ⟨leftOpen, rightOpen, joined⟩ <;>
    simp_all [IsConstant]

/-!
### Rebuilding
-/

/-- The query built anew, from its leaves upwards, through the simplifying constructors. -/
def simplify : Query → Query
  | .always => .always
  | .never => .never
  | .not query => query.simplify.negate
  | .and left right => left.simplify.conjoin right.simplify
  | .or left right => left.simplify.disjoin right.simplify
  | .hash conditions => ofConditions conditions
  | .fragment predicate => .fragment predicate
  | .scope named => .scope named

/-- Joining two queries keeps the order of their hash leaves, and may drop some of them. -/
theorem hashLeaves_disjoin_sublist (left right : Query) :
    (left.disjoin right).hashLeaves.Sublist (left.hashLeaves ++ right.hashLeaves) := by
  rcases disjoin_cases left right with
    ⟨_, joined⟩ | ⟨_, joined⟩ | ⟨_, joined⟩ | ⟨_, _, joined⟩ <;> rw [joined]
  · exact List.nil_sublist _
  · exact List.sublist_append_right _ _
  · exact List.sublist_append_left _ _
  · exact List.Sublist.refl _

/-- Restricting a query by another keeps the order of their hash leaves, and may drop some
    of them. -/
theorem hashLeaves_conjoin_sublist (left right : Query) :
    (left.conjoin right).hashLeaves.Sublist (left.hashLeaves ++ right.hashLeaves) := by
  rcases conjoin_cases left right with
    ⟨_, joined⟩ | ⟨_, joined⟩ | ⟨_, joined⟩ | ⟨_, _, joined⟩ <;> rw [joined]
  · exact List.nil_sublist _
  · exact List.sublist_append_right _ _
  · exact List.sublist_append_left _ _
  · exact List.Sublist.refl _

/-- A negation asks for the same conditions, also where it is cancelled by another. -/
theorem hashLeaves_negate (query : Query) : query.negate.hashLeaves = query.hashLeaves := by
  rcases negate_cases query with ⟨rfl, _⟩ | ⟨rfl, _⟩ | ⟨inner, rfl, negated⟩ | ⟨_, negated⟩
  · rfl
  · rfl
  · rw [negated, hashLeaves]
  · rw [negated, hashLeaves]

/-- Conditions that ask for nothing are no leaf, and others are the only one. -/
theorem hashLeaves_ofConditions_sublist (conditions : Conditions) :
    (ofConditions conditions).hashLeaves.Sublist [conditions] := by
  unfold ofConditions
  split
  · exact List.nil_sublist _
  · exact List.Sublist.refl _

/-- What is left of the conditions stands in the order in which it stood. -/
theorem hashLeaves_simplify_sublist (query : Query) :
    query.simplify.hashLeaves.Sublist query.hashLeaves := by
  induction query with
  | always => exact List.Sublist.refl _
  | never => exact List.Sublist.refl _
  | not query ih =>
      rw [simplify, hashLeaves_negate]
      exact ih
  | and left right leftIh rightIh =>
      exact (hashLeaves_conjoin_sublist _ _).trans (leftIh.append rightIh)
  | or left right leftIh rightIh =>
      exact (hashLeaves_disjoin_sublist _ _).trans (leftIh.append rightIh)
  | hash conditions => exact hashLeaves_ofConditions_sublist conditions
  | fragment predicate => exact List.Sublist.refl _
  | scope named => exact List.Sublist.refl _

end Permit.Query
