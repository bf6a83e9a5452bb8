/-
Module: Permit.Proofs.Plan.Absorption
Layer: Proofs
Purpose: The four things one rule can do to the query of the rules before it, as a relation, and
  the runs of this relation over a whole list of rules. Everything that is proved about planned
  queries is an invariant of such runs. The first is that each leaf of a query is the leaf of one of
  its rules.
Main exports: Guard.HasLeaf, Guard.query?_cases, Guard.query?_of_isUnconditional, Query.Absorbs,
  Query.absorb?_eq_none_iff, Query.Folds, Query.folds_of_ofRules?, Policy.plan_cases,
  Policy.plan_eq_scopeMerge_iff, Policy.plan_eq_ok_iff, Policy.folds_of_plan, Query.leaves,
  Query.mem_hashLeaves_iff, Guard.HasLeaf.leaves_eq, Query.exists_rule_of_mem_leaves
-/
import Mathlib.Data.List.Induction
import Permit.Policy
import Permit.Proofs.Query.Simplification

namespace Permit

variable {ρ : Type}

/-!
### Guards
-/

/-- Only a block has no query. -/
theorem Guard.query?_eq_none_iff {guard : Guard ρ} :
    guard.query? = none ↔ guard.isBlock = true := by
  cases guard <;> simp [Guard.query?, Guard.isBlock, Guard.kind]

/-- A guard with a query is no block. -/
theorem Guard.isBlock_of_query? {guard : Guard ρ} {leaf : Query}
    (expressed : guard.query? = some leaf) : guard.isBlock = false := by
  rw [← Bool.not_eq_true, ← query?_eq_none_iff, expressed]
  simp

/-- An unconditional guard is expressed by the query that always holds. -/
theorem Guard.query?_of_isUnconditional {guard : Guard ρ}
    (unconditional : guard.isUnconditional = true) : guard.query? = some .always := by
  cases guard with
  | unconditional => rfl
  | hash conditions => exact congrArg some (if_pos unconditional)
  | fragment => cases unconditional
  | scope => cases unconditional
  | block => cases unconditional

theorem Guard.isBlock_of_isUnconditional {guard : Guard ρ}
    (unconditional : guard.isUnconditional = true) : guard.isBlock = false :=
  Guard.isBlock_of_query? (Guard.query?_of_isUnconditional unconditional)

/-- What a guard that is neither a block nor unconditional stands for in a query. -/
inductive Guard.HasLeaf : Guard ρ → Query → Prop where
  | hash (conditions : Conditions) (constrains : conditions ≠ []) :
      HasLeaf (.hash conditions) (.hash conditions)
  | fragment (predicate : Fragment) (fallback : Option (ρ → Bool)) :
      HasLeaf (.fragment predicate fallback) (.fragment predicate)
  | scope (named : Scope) (fallback : Option (ρ → Bool)) :
      HasLeaf (.scope named fallback) (.scope named)

namespace Guard.HasLeaf

variable {guard : Guard ρ} {leaf other : Query}

/-- A guard has at most one leaf. -/
theorem unique (hasLeaf : guard.HasLeaf leaf) (hasOther : guard.HasLeaf other) : leaf = other := by
  cases hasLeaf <;> cases hasOther <;> rfl

/-- No leaf holds always or never. What does so is unconditional, and has none. -/
theorem not_constant (hasLeaf : guard.HasLeaf leaf) : ¬ leaf.IsConstant := by
  cases hasLeaf <;> simp [Query.IsConstant]

/-- A leaf is negated by a node above it. -/
theorem negate_eq (hasLeaf : guard.HasLeaf leaf) : leaf.negate = .not leaf := by
  cases hasLeaf <;> rfl

end Guard.HasLeaf

/-- A guard that is not a block stands for everything where it is unconditional, and for its leaf
    where it is not. -/
theorem Guard.query?_cases {guard : Guard ρ} {leaf : Query} (expressed : guard.query? = some leaf) :
    (guard.isUnconditional = true ∧ leaf = .always) ∨
      (guard.isUnconditional = false ∧ guard.HasLeaf leaf) := by
  cases guard with
  | unconditional =>
      cases expressed
      exact .inl ⟨rfl, rfl⟩
  | hash conditions =>
      cases expressed
      cases conditions with
      | nil => exact .inl ⟨rfl, rfl⟩
      | cons entry rest => exact .inr ⟨rfl, .hash _ (List.cons_ne_nil entry rest)⟩
  | fragment predicate fallback =>
      cases expressed
      exact .inr ⟨rfl, .fragment predicate fallback⟩
  | scope named fallback =>
      cases expressed
      exact .inr ⟨rfl, .scope named fallback⟩
  | block predicate => cases expressed

/-!
### Steps and runs
-/

namespace Query

/-- One rule takes the query of the rules before it to the query with the rule. -/
inductive Absorbs (query : Query) (rule : Rule ρ) : Query → Prop where
  /-- A grant adds what it covers. -/
  | grant {leaf : Query} (expressed : rule.guard.query? = some leaf)
      (allows : rule.polarity = .allow) : Absorbs query rule (query.disjoin leaf)
  /-- A denial takes away what it covers. -/
  | denial {leaf : Query} (expressed : rule.guard.query? = some leaf)
      (denies : rule.polarity = .deny) : Absorbs query rule (query.conjoin leaf.negate)
  /-- A block grant is left out. -/
  | skippedGrant (block : rule.guard.isBlock = true) (allows : rule.polarity = .allow) :
      Absorbs query rule query
  /-- A block denial is left out where there is nothing to deny. -/
  | skippedDenial (block : rule.guard.isBlock = true) (denies : rule.polarity = .deny)
      (nothing : query = .never) : Absorbs query rule query

/-- The query is the constant that selects no object. -/
theorem isNever_iff {query : Query} : query.isNever = true ↔ query = .never := by
  cases query <;> simp [isNever]

/-- Absorption takes one of the four steps. -/
theorem absorbs_of_absorb? {query next : Query} {rule : Rule ρ}
    (absorbed : query.absorb? rule = some next) : Absorbs query rule next := by
  cases expressed : rule.guard.query? with
  | some leaf =>
      cases polarity : rule.polarity with
      | allow =>
          simp only [absorb?, expressed, polarity, Option.some.injEq] at absorbed
          exact absorbed ▸ .grant expressed polarity
      | deny =>
          simp only [absorb?, expressed, polarity, Option.some.injEq] at absorbed
          exact absorbed ▸ .denial expressed polarity
  | none =>
      have block := Guard.query?_eq_none_iff.mp expressed
      cases polarity : rule.polarity with
      | allow =>
          simp only [absorb?, expressed, polarity, Option.some.injEq] at absorbed
          exact absorbed ▸ .skippedGrant block polarity
      | deny =>
          simp only [absorb?, expressed, polarity, Option.ite_none_right_eq_some,
            Option.some.injEq, isNever_iff] at absorbed
          obtain ⟨nothing, rfl⟩ := absorbed
          exact .skippedDenial block polarity nothing

/-- Absorption fails at a block denial with something to deny, and nowhere else. -/
theorem absorb?_eq_none_iff {query : Query} {rule : Rule ρ} :
    query.absorb? rule = none ↔
      rule.polarity = .deny ∧ rule.guard.isBlock = true ∧ query ≠ .never := by
  rw [← Guard.query?_eq_none_iff]
  cases expressed : rule.guard.query? <;> cases polarity : rule.polarity <;>
    simp [absorb?, expressed, polarity, isNever_iff]

theorem ofRules?_nil : ofRules? ([] : List (Rule ρ)) = some .never := rfl

/-- One more rule at the end is absorbed last. -/
theorem ofRules?_concat (rules : List (Rule ρ)) (rule : Rule ρ) :
    ofRules? (rules ++ [rule]) = (ofRules? rules).bind (fun query => query.absorb? rule) := by
  simp [ofRules?, List.foldlM_append]

/-- Rules in order of declaration come to a query, one step a rule. -/
inductive Folds : List (Rule ρ) → Query → Prop where
  | nil : Folds [] .never
  | concat {rules : List (Rule ρ)} {rule : Rule ρ} {query next : Query}
      (before : Folds rules query) (absorbed : Absorbs query rule next) :
      Folds (rules ++ [rule]) next

/-- Where the rules come to a query, the query arises by absorbing them one at a time. -/
theorem folds_of_ofRules? {rules : List (Rule ρ)} {query : Query}
    (folded : ofRules? rules = some query) : Folds rules query := by
  induction rules using List.reverseRecOn generalizing query with
  | nil =>
      rw [ofRules?_nil, Option.some.injEq] at folded
      exact folded ▸ .nil
  | append_singleton rules rule ih =>
      rw [ofRules?_concat, Option.bind_eq_some_iff] at folded
      obtain ⟨before, foldedBefore, absorbed⟩ := folded
      exact .concat (ih foldedBefore) (absorbs_of_absorb? absorbed)

end Query

/-- A plan is refused for a scope, for rules that are all blocks or for a block denial, in this
    order, and otherwise it is the query of the relevant rules with the joins of that query. -/
theorem Policy.plan_cases (policy : Policy ρ) (action subject : String) :
    (Rule.mergeScope (policy.relevant action subject) = true ∧
      policy.plan action subject = .error (.scopeMerge action subject)) ∨
    (Rule.mergeScope (policy.relevant action subject) = false ∧
      (Rule.onlyBlocks (policy.relevant action subject) = true ∨
        Query.ofRules? (policy.relevant action subject) = none) ∧
      policy.plan action subject = .error (.blockOnly action subject)) ∨
    (Rule.mergeScope (policy.relevant action subject) = false ∧
      Rule.onlyBlocks (policy.relevant action subject) = false ∧
      ∃ query, Query.ofRules? (policy.relevant action subject) = some query ∧
        policy.plan action subject = .ok ⟨query, query.joins⟩) := by
  cases merged : Rule.mergeScope (policy.relevant action subject) with
  | true => simp [plan, merged]
  | false =>
      cases blocks : Rule.onlyBlocks (policy.relevant action subject) with
      | true => simp [plan, merged, blocks]
      | false =>
          cases folded : Query.ofRules? (policy.relevant action subject) <;>
            simp [plan, merged, blocks, folded]

/-- A plan is refused for a scope exactly where one would be merged. -/
theorem Policy.plan_eq_scopeMerge_iff {policy : Policy ρ} {action subject : String} :
    policy.plan action subject = .error (.scopeMerge action subject) ↔
      Rule.mergeScope (policy.relevant action subject) = true := by
  rcases policy.plan_cases action subject with
    ⟨merged, refused⟩ | ⟨apart, _, refused⟩ | ⟨apart, _, query, _, planned⟩
  · simp [merged, refused]
  · simp [apart, refused]
  · simp [apart, planned]

/-- There is a plan where no scope would be merged, not all rules are blocks and the rules come to a
    query. -/
theorem Policy.plan_eq_ok_iff {policy : Policy ρ} {action subject : String} {plan : Plan} :
    policy.plan action subject = .ok plan ↔
      Rule.mergeScope (policy.relevant action subject) = false ∧
      Rule.onlyBlocks (policy.relevant action subject) = false ∧
      Query.ofRules? (policy.relevant action subject) = some plan.query ∧
      plan.joins = plan.query.joins := by
  obtain ⟨query, joins⟩ := plan
  rcases policy.plan_cases action subject with
    ⟨merged, refused⟩ | ⟨apart, blocks | fails, refused⟩ | ⟨apart, mixed, other, folded, planned⟩
  · simp [merged, refused]
  · simp [apart, blocks, refused]
  · simp [apart, fails, refused]
  · simp only [apart, mixed, folded, planned, Except.ok.injEq, Plan.mk.injEq, Option.some.injEq,
      true_and]
    constructor
    · rintro ⟨rfl, rfl⟩
      exact ⟨rfl, rfl⟩
    · rintro ⟨rfl, rfl⟩
      exact ⟨rfl, rfl⟩

/-- A plan holds the query that the relevant rules come to, and the joins of that query. -/
theorem Policy.folds_of_plan {policy : Policy ρ} {action subject : String} {plan : Plan}
    (planned : policy.plan action subject = .ok plan) :
    Query.Folds (policy.relevant action subject) plan.query ∧
      plan.joins = plan.query.joins := by
  obtain ⟨_, _, folded, joins⟩ := plan_eq_ok_iff.mp planned
  exact ⟨Query.folds_of_ofRules? folded, joins⟩

/-!
### Leaves

The simplifying constructors drop leaves and never make one up.
-/

namespace Query

/-- The conditions, fragments and scopes in a query, from left to right. -/
def leaves : Query → List Query
  | .always => []
  | .never => []
  | .not query => query.leaves
  | .and left right => left.leaves ++ right.leaves
  | .or left right => left.leaves ++ right.leaves
  | .hash conditions => [.hash conditions]
  | .fragment predicate => [.fragment predicate]
  | .scope named => [.scope named]

/-- The hash leaves are those of the leaves that hold conditions. -/
theorem mem_hashLeaves_iff {query : Query} {conditions : Conditions} :
    conditions ∈ query.hashLeaves ↔ .hash conditions ∈ query.leaves := by
  induction query with
  | always => simp [hashLeaves, leaves]
  | never => simp [hashLeaves, leaves]
  | not query ih => exact ih
  | and left right leftIh rightIh => simp [hashLeaves, leaves, leftIh, rightIh]
  | or left right leftIh rightIh => simp [hashLeaves, leaves, leftIh, rightIh]
  | hash others => simp [hashLeaves, leaves]
  | fragment predicate => simp [hashLeaves, leaves]
  | scope named => simp [hashLeaves, leaves]

variable {left right leaf : Query}

/-- Joining two queries brings in no leaf of its own. -/
theorem mem_leaves_of_disjoin (member : leaf ∈ (left.disjoin right).leaves) :
    leaf ∈ left.leaves ∨ leaf ∈ right.leaves := by
  rcases left.disjoin_cases right with
    ⟨_, joined⟩ | ⟨_, joined⟩ | ⟨_, joined⟩ | ⟨_, _, joined⟩ <;> rw [joined] at member
  · cases member
  · exact .inr member
  · exact .inl member
  · exact List.mem_append.mp member

/-- Restricting a query by another brings in no leaf of its own. -/
theorem mem_leaves_of_conjoin (member : leaf ∈ (left.conjoin right).leaves) :
    leaf ∈ left.leaves ∨ leaf ∈ right.leaves := by
  rcases left.conjoin_cases right with
    ⟨_, joined⟩ | ⟨_, joined⟩ | ⟨_, joined⟩ | ⟨_, _, joined⟩ <;> rw [joined] at member
  · cases member
  · exact .inr member
  · exact .inl member
  · exact List.mem_append.mp member

theorem leaves_negate (query : Query) : query.negate.leaves = query.leaves := by
  rcases query.negate_cases with
    ⟨rfl, _⟩ | ⟨rfl, _⟩ | ⟨inner, rfl, negated⟩ | ⟨_, negated⟩
  · rfl
  · rfl
  · rw [negated, leaves]
  · rw [negated, leaves]

end Query

theorem Guard.HasLeaf.leaves_eq {guard : Guard ρ} {leaf : Query} (hasLeaf : guard.HasLeaf leaf) :
    leaf.leaves = [leaf] := by
  cases hasLeaf <;> rfl

/-- The query of a guard has no leaf but the leaf of the guard. -/
theorem Guard.hasLeaf_of_mem_leaves {guard : Guard ρ} {query leaf : Query}
    (expressed : guard.query? = some query) (member : leaf ∈ query.leaves) :
    guard.HasLeaf leaf := by
  rcases Guard.query?_cases expressed with ⟨_, rfl⟩ | ⟨_, hasLeaf⟩
  · cases member
  · rw [hasLeaf.leaves_eq, List.mem_singleton] at member
    exact member ▸ hasLeaf

/-- Each leaf of the query of rules is the leaf of one of the rules. -/
theorem Query.exists_rule_of_mem_leaves {rules : List (Rule ρ)} {query leaf : Query}
    (folds : Folds rules query) (member : leaf ∈ query.leaves) :
    ∃ rule ∈ rules, rule.guard.HasLeaf leaf := by
  induction folds with
  | nil => cases member
  | @concat rules rule query next _ absorbed ih =>
      have earlier : leaf ∈ query.leaves → ∃ other ∈ rules ++ [rule], other.guard.HasLeaf leaf := by
        intro before
        obtain ⟨other, known, hasLeaf⟩ := ih before
        exact ⟨other, List.mem_append_left _ known, hasLeaf⟩
      have current : rule ∈ rules ++ [rule] := by simp
      cases absorbed with
      | grant expressed =>
          rcases mem_leaves_of_disjoin member with before | new
          · exact earlier before
          · exact ⟨rule, current, Guard.hasLeaf_of_mem_leaves expressed new⟩
      | denial expressed =>
          rcases mem_leaves_of_conjoin member with before | new
          · exact earlier before
          · rw [leaves_negate] at new
            exact ⟨rule, current, Guard.hasLeaf_of_mem_leaves expressed new⟩
      | skippedGrant => exact earlier member
      | skippedDenial => exact earlier member

end Permit
