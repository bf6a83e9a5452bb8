/-
Module: Permit.Proofs.Query.NormalForm
Layer: Proofs
Purpose: The queries that the simplifying constructors build are the normal ones, all of them and no
  others: the two constants, and the queries in which no constant, no empty conditions and no
  double negation stand anywhere. Rebuilding a normal query gives it back, so that simplifying twice
  is simplifying once. A planned query is built by the constructors, whatever the rules are.
Main exports: Query.parts, Query.Redundant, Query.Plain, Query.Normal, Query.Built,
  Query.Built.normal, Query.simplify_eq_self_iff, Query.built_of_folds, Query.normal_form_exact
-/
import Permit.Proofs.Plan.Absorption
import Permit.Record

namespace Permit

variable {ρ : Type}

namespace Query

variable {query left right : Query}

/-!
### Normal queries
-/

/-- The query itself and everything under its connectives. -/
def parts : Query → List Query
  | .always => [.always]
  | .never => [.never]
  | .not query => .not query :: query.parts
  | .and left right => .and left right :: (left.parts ++ right.parts)
  | .or left right => .or left right :: (left.parts ++ right.parts)
  | .hash conditions => [.hash conditions]
  | .fragment predicate => [.fragment predicate]
  | .scope named => [.scope named]

/-- What a query can always do without: a constant, empty conditions, a negation of a negation. -/
inductive Redundant : Query → Prop where
  | always : Redundant .always
  | never : Redundant .never
  | empty : Redundant (.hash [])
  | double (inner : Query) : Redundant (.not (.not inner))

/-- No part of the query is redundant. -/
def Plain (query : Query) : Prop := ∀ part ∈ query.parts, ¬ part.Redundant

/-- A normal query is one of the constants, or plain. -/
def Normal (query : Query) : Prop := query.IsConstant ∨ query.Plain

theorem mem_parts_self (query : Query) : query ∈ query.parts := by
  cases query <;> exact List.mem_cons_self

theorem Plain.not_constant (plain : query.Plain) : ¬ query.IsConstant := by
  rintro (rfl | rfl)
  · exact plain _ (mem_parts_self _) .always
  · exact plain _ (mem_parts_self _) .never

/-- A normal query that is no constant has no constant inside. -/
theorem Normal.plain (normal : query.Normal) (varies : ¬ query.IsConstant) : query.Plain :=
  normal.resolve_left varies

theorem plain_hash_iff {conditions : Conditions} : (hash conditions).Plain ↔ conditions ≠ [] := by
  change (∀ part ∈ [hash conditions], ¬ part.Redundant) ↔ conditions ≠ []
  rw [List.forall_mem_singleton]
  constructor
  · rintro needed rfl
    exact needed .empty
  · rintro constrains ⟨⟩
    exact constrains rfl

theorem plain_fragment (predicate : Fragment) : (fragment predicate).Plain := by
  change ∀ part ∈ [fragment predicate], ¬ part.Redundant
  rw [List.forall_mem_singleton]
  intro redundant
  cases redundant

theorem plain_scope (named : Scope) : (scope named).Plain := by
  change ∀ part ∈ [scope named], ¬ part.Redundant
  rw [List.forall_mem_singleton]
  intro redundant
  cases redundant

theorem plain_not_iff : (Query.not query).Plain ↔ (∀ inner, query ≠ .not inner) ∧ query.Plain := by
  change (∀ part ∈ .not query :: query.parts, ¬ part.Redundant) ↔ _
  rw [List.forall_mem_cons]
  apply and_congr_left'
  constructor
  · rintro needed inner rfl
    exact needed (.double inner)
  · rintro single ⟨⟩
    exact single _ rfl

theorem plain_and_iff : (Query.and left right).Plain ↔ left.Plain ∧ right.Plain := by
  have needed : ¬ (Query.and left right).Redundant := fun redundant => by cases redundant
  change (∀ part ∈ .and left right :: (left.parts ++ right.parts), ¬ part.Redundant) ↔ _
  rw [List.forall_mem_cons, List.forall_mem_append, and_iff_right needed]
  exact Iff.rfl

theorem plain_or_iff : (Query.or left right).Plain ↔ left.Plain ∧ right.Plain := by
  have needed : ¬ (Query.or left right).Redundant := fun redundant => by cases redundant
  change (∀ part ∈ .or left right :: (left.parts ++ right.parts), ¬ part.Redundant) ↔ _
  rw [List.forall_mem_cons, List.forall_mem_append, and_iff_right needed]
  exact Iff.rfl

/-!
### The simplifying constructors
-/

/-- A query that is neither a constant nor a negation is negated as it stands. -/
theorem negate_of_single (varies : ¬ query.IsConstant) (single : ∀ inner, query ≠ .not inner) :
    query.negate = .not query := by
  rcases query.negate_cases with ⟨rfl, _⟩ | ⟨rfl, _⟩ | ⟨inner, rfl, _⟩ | ⟨_, negated⟩
  · exact absurd (.inl rfl) varies
  · exact absurd (.inr rfl) varies
  · exact absurd rfl (single inner)
  · exact negated

namespace Normal

theorem always : always.Normal := .inl (.inl rfl)

theorem never : never.Normal := .inl (.inr rfl)

/-- A constant side of a conjunction is dropped or takes over, so that no constant is
    left inside. -/
theorem conjoin (leftNormal : left.Normal) (rightNormal : right.Normal) :
    (left.conjoin right).Normal := by
  rcases left.conjoin_cases right with
    ⟨_, joined⟩ | ⟨_, joined⟩ | ⟨_, joined⟩ | ⟨leftVaries, rightVaries, joined⟩ <;> rw [joined]
  · exact .never
  · exact rightNormal
  · exact leftNormal
  · exact .inr (plain_and_iff.mpr ⟨leftNormal.plain leftVaries, rightNormal.plain rightVaries⟩)

/-- A constant side of a disjunction is dropped or takes over, so that no constant is
    left inside. -/
theorem disjoin (leftNormal : left.Normal) (rightNormal : right.Normal) :
    (left.disjoin right).Normal := by
  rcases left.disjoin_cases right with
    ⟨_, joined⟩ | ⟨_, joined⟩ | ⟨_, joined⟩ | ⟨leftVaries, rightVaries, joined⟩ <;> rw [joined]
  · exact .always
  · exact rightNormal
  · exact leftNormal
  · exact .inr (plain_or_iff.mpr ⟨leftNormal.plain leftVaries, rightNormal.plain rightVaries⟩)

/-- What is under a negation in a normal query is neither a constant nor a negation, so that it can
    stand alone. -/
theorem negate (normal : query.Normal) : query.negate.Normal := by
  rcases normal with (rfl | rfl) | plain
  · exact .never
  · exact .always
  · by_cases negation : ∃ inner, query = .not inner
    · obtain ⟨inner, rfl⟩ := negation
      exact .inr (plain_not_iff.mp plain).2
    · have single : ∀ inner, query ≠ .not inner := fun inner same => negation ⟨inner, same⟩
      rw [negate_of_single plain.not_constant single]
      exact .inr (plain_not_iff.mpr ⟨single, plain⟩)

/-- Conditions that ask for nothing become a constant, and others a leaf. -/
theorem ofConditions (conditions : Conditions) : (ofConditions conditions).Normal := by
  unfold Query.ofConditions
  split
  · exact .always
  · next constrains => exact .inr (plain_hash_iff.mpr (by simpa using constrains))

end Normal

/-- What expressions over the constants, conditions, fragments and scopes come to when each
    connective in them is simplified. -/
inductive Built : Query → Prop where
  | always : Built .always
  | never : Built .never
  | conditions (conditions : Conditions) : Built (ofConditions conditions)
  | fragment (predicate : Fragment) : Built (.fragment predicate)
  | scope (named : Scope) : Built (.scope named)
  | negate {query : Query} (operand : Built query) : Built query.negate
  | conjoin {left right : Query} (first : Built left) (second : Built right) :
      Built (left.conjoin right)
  | disjoin {left right : Query} (first : Built left) (second : Built right) :
      Built (left.disjoin right)

/-- Whatever the operations on queries build is normal. -/
theorem Built.normal (built : query.Built) : query.Normal := by
  induction built with
  | always => exact .always
  | never => exact .never
  | conditions conditions => exact .ofConditions conditions
  | fragment predicate => exact .inr (plain_fragment predicate)
  | scope named => exact .inr (plain_scope named)
  | negate _ ih => exact ih.negate
  | conjoin _ _ leftIh rightIh => exact leftIh.conjoin rightIh
  | disjoin _ _ leftIh rightIh => exact leftIh.disjoin rightIh

/-!
### Rebuilding
-/

/-- A simplified query is built by the operations on queries. -/
theorem built_simplify (query : Query) : query.simplify.Built := by
  induction query with
  | always => exact .always
  | never => exact .never
  | not query ih => exact ih.negate
  | and left right leftIh rightIh => exact leftIh.conjoin rightIh
  | or left right leftIh rightIh => exact leftIh.disjoin rightIh
  | hash conditions => exact .conditions conditions
  | fragment predicate => exact .fragment predicate
  | scope named => exact .scope named

/-- In a plain query no connective has anything to simplify. -/
theorem simplify_of_plain (plain : query.Plain) : query.simplify = query := by
  induction query with
  | always => rfl
  | never => rfl
  | not query ih =>
      obtain ⟨single, below⟩ := plain_not_iff.mp plain
      rw [simplify, ih below, negate_of_single below.not_constant single]
  | and left right leftIh rightIh =>
      obtain ⟨leftPlain, rightPlain⟩ := plain_and_iff.mp plain
      rw [simplify, leftIh leftPlain, rightIh rightPlain,
        conjoin_of_not_constant leftPlain.not_constant rightPlain.not_constant]
  | or left right leftIh rightIh =>
      obtain ⟨leftPlain, rightPlain⟩ := plain_or_iff.mp plain
      rw [simplify, leftIh leftPlain, rightIh rightPlain,
        disjoin_of_not_constant leftPlain.not_constant rightPlain.not_constant]
  | hash conditions =>
      have constrains := plain_hash_iff.mp plain
      rw [simplify, ofConditions, if_neg (by simpa using constrains)]
  | fragment predicate => rfl
  | scope named => rfl

/-- The normal queries are those that rebuilding gives back. -/
theorem simplify_eq_self_iff : query.simplify = query ↔ query.Normal := by
  constructor
  · intro same
    exact same ▸ (built_simplify query).normal
  · rintro ((rfl | rfl) | plain)
    · rfl
    · rfl
    · exact simplify_of_plain plain

/-- The normal queries are exactly those which the operations on queries build. -/
theorem built_iff_normal : query.Built ↔ query.Normal := by
  constructor
  · exact Built.normal
  · intro normal
    exact simplify_eq_self_iff.mpr normal ▸ built_simplify query

/-!
### Plans
-/

/-- The query of a guard is built: a leaf, or the query that always holds. -/
theorem built_of_query? {guard : Guard ρ} {leaf : Query} (expressed : guard.query? = some leaf) :
    leaf.Built := by
  cases guard with
  | unconditional => cases expressed; exact .always
  | hash conditions => cases expressed; exact .conditions conditions
  | fragment predicate fallback => cases expressed; exact .fragment predicate
  | scope named fallback => cases expressed; exact .scope named
  | block predicate => cases expressed

/-- Rules come to a query that the simplifying constructors build. -/
theorem built_of_folds {rules : List (Rule ρ)} (folds : Folds rules query) : query.Built := by
  induction folds with
  | nil => exact .never
  | concat _ absorbed ih =>
      cases absorbed with
      | grant expressed => exact ih.disjoin (built_of_query? expressed)
      | denial expressed => exact ih.conjoin (built_of_query? expressed).negate
      | skippedGrant => exact ih
      | skippedDenial => exact ih

/-- The simplifying constructors build the normal queries and no others. Rebuilding makes any query
    normal and leaves normal queries, and only those, as they are; so rebuilding again changes
    nothing. The queries of plans are normal. -/
theorem normal_form_exact :
    (∀ query : Query, query.Built ↔ query.Normal) ∧
    (∀ query : Query, query.simplify.Normal ∧ (query.simplify = query ↔ query.Normal) ∧
      query.simplify.simplify = query.simplify) ∧
    ∀ {ρ : Type} (policy : Policy ρ) (action subject : String) (plan : Plan),
      policy.plan action subject = .ok plan → plan.query.Normal := by
  refine ⟨fun query => built_iff_normal, ?_, ?_⟩
  · intro query
    have normal := (built_simplify query).normal
    exact ⟨normal, simplify_eq_self_iff, simplify_eq_self_iff.mpr normal⟩
  · intro ρ policy action subject plan planned
    obtain ⟨folds, _⟩ := Policy.folds_of_plan planned
    exact (built_of_folds folds).normal

end Query

/-!
### A library

The plan leaves out the first denial and the grant of everything. The same query spelled at length
holds each kind of redundancy.
-/

namespace Shelves

def lent : Query := .hash [("lent", .equals (.boolean true))]

def reserved : Query := .fragment ⟨"reserved for ?", [.integer 7]⟩

def policy : Policy Record where
  rules := [
    Rule.declare .deny ["read"] ["Book"] (.hash [("torn", .equals (.boolean true))]),
    Rule.declare .allow ["read"] ["all"] (.hash []),
    Rule.declare .deny ["manage"] ["Book"] (.hash [("lent", .equals (.boolean true))]),
    Rule.declare .allow ["read"] ["Book"] (.block (fun book => book.id == .integer 1)),
    Rule.declare .allow ["read"] ["Book"] (.fragment ⟨"reserved for ?", [.integer 7]⟩ none)]
  settings := .standard

def plan : Plan := ⟨.or (.not lent) reserved, Joins.empty⟩

def spelled : Query :=
  .and (.not (.not (.or (.not lent) (.or .never reserved)))) (.or (.hash []) (.not .always))

end Shelves

theorem Query.shelves_normal :
    Shelves.policy.plan "read" "Book" = .ok Shelves.plan ∧
    Shelves.plan.query.Normal ∧
    Shelves.plan.query.Built ∧
    Shelves.spelled.simplify = Shelves.plan.query ∧
    ¬ Shelves.spelled.Normal := by
  obtain ⟨builds, rebuilds, plans⟩ := normal_form_exact
  have normal := plans Shelves.policy "read" "Book" Shelves.plan rfl
  have shorter : Shelves.spelled.simplify = Shelves.plan.query := rfl
  refine ⟨rfl, normal, (builds _).mpr normal, shorter, ?_⟩
  intro spelledNormal
  have same := (rebuilds Shelves.spelled).2.1.mpr spelledNormal
  rw [shorter] at same
  cases same

end Permit
