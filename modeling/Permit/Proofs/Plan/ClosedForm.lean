/-
Module: Permit.Proofs.Plan.ClosedForm
Layer: Proofs
Purpose: The query of a plan, read off its rules without a fold. Blocks play no part. The last
  unconditional rule settles everything before it, the rules after it that only repeat its word
  change nothing, and each rule from the first that differs stands in the query once, nested to the
  left in order of declaration.
Main exports: Rule.expressible, Rule.base, Rule.remaining, Query.Chain, Query.Chain.unique,
  Query.closedForm_of_folds, Policy.query_closed_form
-/
import Mathlib.Data.List.DropRight
import Permit.Proofs.Plan.Absorption

namespace Permit

variable {ρ : Type}

namespace Rule

/-- The rules that are not blocks. -/
def expressible (rules : List (Rule ρ)) : List (Rule ρ) :=
  rules.filter (fun rule => !rule.guard.isBlock)

/-- The polarity of the last unconditional rule, a denial where there is none. -/
def base (rules : List (Rule ρ)) : Polarity :=
  ((rules.filter (fun rule => rule.guard.isUnconditional)).getLast?.map Rule.polarity).getD .deny

/-- The rules after the last unconditional one. -/
def conditionalTail (rules : List (Rule ρ)) : List (Rule ρ) :=
  rules.rtakeWhile (fun rule => !rule.guard.isUnconditional)

/-- The rules after the last unconditional one, from the first that has another polarity. -/
def remaining (rules : List (Rule ρ)) : List (Rule ρ) :=
  (conditionalTail rules).dropWhile (fun rule => rule.polarity == base rules)

/-- A block that comes last leaves nothing in the query. -/
theorem expressible_concat_of_block {rules : List (Rule ρ)} {rule : Rule ρ}
    (block : rule.guard.isBlock = true) :
    expressible (rules ++ [rule]) = expressible rules := by
  simp [expressible, List.filter_append, block]

/-- A rule with a query that comes last is the last one the query is made of. -/
theorem expressible_concat_of_query? {rules : List (Rule ρ)} {rule : Rule ρ} {leaf : Query}
    (expressed : rule.guard.query? = some leaf) :
    expressible (rules ++ [rule]) = expressible rules ++ [rule] := by
  simp [expressible, List.filter_append, Guard.isBlock_of_query? expressed]

/-- An unconditional rule that comes last sets the base, and any other leaves it. -/
theorem base_concat (rules : List (Rule ρ)) (rule : Rule ρ) :
    base (rules ++ [rule]) = if rule.guard.isUnconditional then rule.polarity else base rules := by
  cases unconditional : rule.guard.isUnconditional <;>
    simp [base, List.filter_append, unconditional]

/-- Behind an unconditional rule no rule remains. -/
theorem remaining_concat_of_unconditional {rules : List (Rule ρ)} {rule : Rule ρ}
    (unconditional : rule.guard.isUnconditional = true) : remaining (rules ++ [rule]) = [] := by
  simp [remaining, conditionalTail, unconditional]

/-- A conditional rule remains unless it repeats the base with nothing in between. -/
theorem remaining_concat_of_conditional {rules : List (Rule ρ)} {rule : Rule ρ}
    (conditional : rule.guard.isUnconditional = false) :
    remaining (rules ++ [rule]) =
      if remaining rules = [] ∧ rule.polarity = base rules then []
      else remaining rules ++ [rule] := by
  have tail : conditionalTail (rules ++ [rule]) = conditionalTail rules ++ [rule] := by
    simp [conditionalTail, conditional]
  have sameBase : base (rules ++ [rule]) = base rules := by simp [base_concat, conditional]
  rw [remaining, tail, sameBase, List.dropWhile_append]
  cases rest : remaining rules with
  | nil =>
      have dropped : (conditionalTail rules).dropWhile (fun rule => rule.polarity == base rules) =
          [] := rest
      by_cases repeats : rule.polarity = base rules <;> simp [dropped, repeats]
  | cons first others =>
      have dropped : (conditionalTail rules).dropWhile (fun rule => rule.polarity == base rules) =
          first :: others := rest
      simp [dropped]

end Rule

/-- The constant that a polarity comes to on its own. -/
def Polarity.constant : Polarity → Query
  | .allow => .always
  | .deny => .never

namespace Query

/-- Rules nested to the left in order of declaration, each with its own leaf. -/
inductive Chain : List (Rule ρ) → Query → Prop where
  /-- A grant opens with its leaf. -/
  | grant {rule : Rule ρ} {leaf : Query} (allows : rule.polarity = .allow)
      (hasLeaf : rule.guard.HasLeaf leaf) : Chain [rule] leaf
  /-- A denial opens with the negation of its leaf. -/
  | denial {rule : Rule ρ} {leaf : Query} (denies : rule.polarity = .deny)
      (hasLeaf : rule.guard.HasLeaf leaf) : Chain [rule] (.not leaf)
  /-- A later grant adds its leaf. -/
  | orGrant {rules : List (Rule ρ)} {rule : Rule ρ} {query leaf : Query}
      (earlier : Chain rules query) (allows : rule.polarity = .allow)
      (hasLeaf : rule.guard.HasLeaf leaf) : Chain (rules ++ [rule]) (.or query leaf)
  /-- A later denial takes its leaf away. -/
  | andDenial {rules : List (Rule ρ)} {rule : Rule ρ} {query leaf : Query}
      (earlier : Chain rules query) (denies : rule.polarity = .deny)
      (hasLeaf : rule.guard.HasLeaf leaf) : Chain (rules ++ [rule]) (.and query (.not leaf))

namespace Chain

variable {rules : List (Rule ρ)} {query other : Query}

/-- A chain is made of at least one rule. -/
theorem rules_ne_nil (chain : Chain rules query) : rules ≠ [] := by
  cases chain <;> simp

/-- A chain holds neither always nor never, so that no further rule absorbs it. -/
theorem not_constant (chain : Chain rules query) : ¬ query.IsConstant := by
  cases chain with
  | grant allows hasLeaf => exact hasLeaf.not_constant
  | denial => simp [IsConstant]
  | orGrant => simp [IsConstant]
  | andDenial => simp [IsConstant]

/-- The last rule of a chain has a leaf, which stands alone or last. -/
theorem concat_inv {rule : Rule ρ} (chain : Chain (rules ++ [rule]) query) :
    ∃ leaf, rule.guard.HasLeaf leaf ∧
      ((rules = [] ∧ query = match rule.polarity with
          | .allow => leaf
          | .deny => .not leaf) ∨
        ∃ before, Chain rules before ∧ query = match rule.polarity with
          | .allow => .or before leaf
          | .deny => .and before (.not leaf)) := by
  generalize appended : rules ++ [rule] = all at chain
  cases chain with
  | grant allows hasLeaf =>
      obtain ⟨rfl, last⟩ := List.append_inj' (appended.trans (List.nil_append _).symm) rfl
      cases last
      exact ⟨_, hasLeaf, .inl ⟨rfl, by rw [allows]⟩⟩
  | denial denies hasLeaf =>
      obtain ⟨rfl, last⟩ := List.append_inj' (appended.trans (List.nil_append _).symm) rfl
      cases last
      exact ⟨_, hasLeaf, .inl ⟨rfl, by rw [denies]⟩⟩
  | orGrant earlier allows hasLeaf =>
      obtain ⟨rfl, last⟩ := List.append_inj' appended rfl
      cases last
      exact ⟨_, hasLeaf, .inr ⟨_, earlier, by rw [allows]⟩⟩
  | andDenial earlier denies hasLeaf =>
      obtain ⟨rfl, last⟩ := List.append_inj' appended rfl
      cases last
      exact ⟨_, hasLeaf, .inr ⟨_, earlier, by rw [denies]⟩⟩

/-- A chain of one rule is the leaf of a grant or the negated leaf of a denial. -/
theorem singleton_inv {rule : Rule ρ} (chain : Chain [rule] query) :
    ∃ leaf, rule.guard.HasLeaf leaf ∧ query = match rule.polarity with
      | .allow => leaf
      | .deny => .not leaf := by
  have alone : Chain ([] ++ [rule]) query := chain
  obtain ⟨leaf, hasLeaf, ⟨_, same⟩ | ⟨_, empty, _⟩⟩ := alone.concat_inv
  · exact ⟨leaf, hasLeaf, same⟩
  · exact absurd rfl empty.rules_ne_nil

/-- Rules come to one chain at most. -/
theorem unique (chain : Chain rules query) (second : Chain rules other) : query = other := by
  induction chain generalizing other with
  | grant allows hasLeaf =>
      obtain ⟨leaf', hasLeaf', same⟩ := second.singleton_inv
      rw [same, allows, hasLeaf.unique hasLeaf']
  | denial denies hasLeaf =>
      obtain ⟨leaf', hasLeaf', same⟩ := second.singleton_inv
      rw [same, denies, hasLeaf.unique hasLeaf']
  | orGrant earlier allows hasLeaf ih =>
      obtain ⟨leaf', hasLeaf', ⟨nothing, _⟩ | ⟨before, earlier', same⟩⟩ := second.concat_inv
      · exact absurd nothing earlier.rules_ne_nil
      · rw [same, allows, hasLeaf.unique hasLeaf', ih earlier']
  | andDenial earlier denies hasLeaf ih =>
      obtain ⟨leaf', hasLeaf', ⟨nothing, _⟩ | ⟨before, earlier', same⟩⟩ := second.concat_inv
      · exact absurd nothing earlier.rules_ne_nil
      · rw [same, denies, hasLeaf.unique hasLeaf', ih earlier']

end Chain

/-- The query is the constant of the base where no rule remains, and the chain of the remaining
    rules where some do. -/
def ClosedForm (rules : List (Rule ρ)) (query : Query) : Prop :=
  (Rule.remaining rules = [] ∧ query = (Rule.base rules).constant) ∨
    Chain (Rule.remaining rules) query

namespace ClosedForm

variable {rules : List (Rule ρ)} {rule : Rule ρ} {query leaf : Query}

/-- An unconditional rule settles everything before it. -/
theorem settle {polarity : Polarity} (unconditional : rule.guard.isUnconditional = true)
    (word : rule.polarity = polarity) : ClosedForm (rules ++ [rule]) polarity.constant :=
  .inl ⟨Rule.remaining_concat_of_unconditional unconditional,
    by rw [Rule.base_concat, if_pos unconditional, word]⟩

/-- A conditional rule that repeats the base changes nothing. -/
theorem repeats (nothing : Rule.remaining rules = [])
    (conditional : rule.guard.isUnconditional = false) (same : rule.polarity = Rule.base rules) :
    ClosedForm (rules ++ [rule]) (Rule.base rules).constant := by
  refine .inl ⟨?_, ?_⟩
  · rw [Rule.remaining_concat_of_conditional conditional, if_pos ⟨nothing, same⟩]
  · rw [Rule.base_concat, conditional, if_neg Bool.false_ne_true]

/-- A conditional rule that does not repeat the base remains, after those that do. -/
theorem remaining_concat (conditional : rule.guard.isUnconditional = false)
    (differs : Rule.remaining rules = [] → rule.polarity ≠ Rule.base rules) :
    Rule.remaining (rules ++ [rule]) = Rule.remaining rules ++ [rule] := by
  rw [Rule.remaining_concat_of_conditional conditional, if_neg]
  exact fun both => differs both.1 both.2

/-- A conditional grant opens a chain over a base that denies, and goes on with an open one. -/
theorem grant (form : ClosedForm rules query) (allows : rule.polarity = .allow)
    (conditional : rule.guard.isUnconditional = false) (hasLeaf : rule.guard.HasLeaf leaf) :
    ClosedForm (rules ++ [rule]) (query.disjoin leaf) := by
  rcases form with ⟨nothing, rfl⟩ | chain
  · cases base : Rule.base rules with
    | allow =>
        rw [Polarity.constant, always_disjoin]
        have same := repeats nothing conditional (allows.trans base.symm)
        rwa [base] at same
    | deny =>
        refine .inr ?_
        rw [Polarity.constant, never_disjoin,
          remaining_concat conditional (by simp [allows, base]), nothing]
        exact .grant allows hasLeaf
  · refine .inr ?_
    rw [remaining_concat conditional (by simp [chain.rules_ne_nil]),
      disjoin_of_not_constant chain.not_constant hasLeaf.not_constant]
    exact .orGrant chain allows hasLeaf

/-- A conditional denial opens a chain over a base that grants, and goes on with an open one. -/
theorem denial (form : ClosedForm rules query) (denies : rule.polarity = .deny)
    (conditional : rule.guard.isUnconditional = false) (hasLeaf : rule.guard.HasLeaf leaf) :
    ClosedForm (rules ++ [rule]) (query.conjoin leaf.negate) := by
  rw [hasLeaf.negate_eq]
  rcases form with ⟨nothing, rfl⟩ | chain
  · cases base : Rule.base rules with
    | allow =>
        refine .inr ?_
        rw [Polarity.constant, always_conjoin,
          remaining_concat conditional (by simp [denies, base]), nothing]
        exact .denial denies hasLeaf
    | deny =>
        rw [Polarity.constant, never_conjoin]
        have same := repeats nothing conditional (denies.trans base.symm)
        rwa [base] at same
  · refine .inr ?_
    rw [remaining_concat conditional (by simp [chain.rules_ne_nil]),
      conjoin_of_not_constant chain.not_constant (by simp [IsConstant])]
    exact .andDenial chain denies hasLeaf

end ClosedForm

/-- What rules come to has the closed form of those that are not blocks. -/
theorem closedForm_of_folds {rules : List (Rule ρ)} {query : Query} (folds : Folds rules query) :
    ClosedForm (Rule.expressible rules) query := by
  induction folds with
  | nil => exact .inl ⟨rfl, rfl⟩
  | @concat rules rule query next _ absorbed form =>
      cases absorbed with
      | @grant leaf expressed allows =>
          rw [Rule.expressible_concat_of_query? expressed]
          rcases Guard.query?_cases expressed with
            ⟨unconditional, rfl⟩ | ⟨conditional, hasLeaf⟩
          · rw [disjoin_always]
            exact .settle unconditional allows
          · exact form.grant allows conditional hasLeaf
      | @denial leaf expressed denies =>
          rw [Rule.expressible_concat_of_query? expressed]
          rcases Guard.query?_cases expressed with
            ⟨unconditional, rfl⟩ | ⟨conditional, hasLeaf⟩
          · rw [negate, conjoin_never]
            exact .settle unconditional denies
          · exact form.denial denies conditional hasLeaf
      | skippedGrant block =>
          rw [Rule.expressible_concat_of_block block]
          exact form
      | skippedDenial block =>
          rw [Rule.expressible_concat_of_block block]
          exact form

end Query

/-- The query of a plan is the constant of the last unconditional rule where no other rule remains
    after it, and otherwise the one chain of the rules that remain. -/
theorem Policy.query_closed_form {policy : Policy ρ} {action subject : String} {plan : Plan}
    (planned : policy.plan action subject = .ok plan) :
    (Rule.remaining (Rule.expressible (policy.relevant action subject)) = [] →
      plan.query = (Rule.base (Rule.expressible (policy.relevant action subject))).constant) ∧
    (Rule.remaining (Rule.expressible (policy.relevant action subject)) ≠ [] → ∀ query,
      Query.Chain (Rule.remaining (Rule.expressible (policy.relevant action subject))) query ↔
        plan.query = query) := by
  obtain ⟨folds, _⟩ := folds_of_plan planned
  rcases Query.closedForm_of_folds folds with ⟨nothing, constant⟩ | chain
  · exact ⟨fun _ => constant, fun remains => absurd nothing remains⟩
  · refine ⟨fun nothing => absurd nothing chain.rules_ne_nil, fun _ query => ?_⟩
    constructor
    · exact chain.unique
    · rintro rfl
      exact chain

/-!
### A review

Two unconditional rules, blocks, a denial that repeats the base, and three rules that remain.
-/

namespace Review

def policy : Policy Unit where
  rules := [
    Rule.declare .allow ["manage"] ["all"] .unconditional,
    Rule.declare .deny ["read"] ["Article"] (.hash []),
    Rule.declare .deny ["read"] ["Article"] (.block (fun _ => true)),
    Rule.declare .deny ["read"] ["Article"] (.hash [("locked", .equals (.boolean true))]),
    Rule.declare .allow ["read"] ["Article"] (.fragment ⟨"mine", []⟩ none),
    Rule.declare .deny ["read"] ["Article"] (.hash [("flag", .anyOf [.null, .text "hidden"])]),
    Rule.declare .allow ["edit"] ["Article"] .unconditional,
    Rule.declare .allow ["read"] ["Article"] (.block (fun _ => true)),
    Rule.declare .allow ["read"] ["all"] (.hash [("owner", .nested [])])]
  settings := .standard

def plan : Plan where
  query := .or
    (.and (.fragment ⟨"mine", []⟩) (.not (.hash [("flag", .anyOf [.null, .text "hidden"])])))
    (.hash [("owner", .nested [])])
  joins := ⟨[("owner", ⟨[]⟩)]⟩

end Review

theorem Policy.review_closed_form :
    Review.policy.plan "read" "Article" = .ok Review.plan ∧
    Rule.remaining (Rule.expressible (Review.policy.relevant "read" "Article")) ≠ [] ∧
    Query.Chain (Rule.remaining (Rule.expressible (Review.policy.relevant "read" "Article")))
      Review.plan.query := by
  have remains :
      Rule.remaining (Rule.expressible (Review.policy.relevant "read" "Article")) ≠ [] :=
    List.ne_nil_of_length_pos (by decide)
  exact ⟨rfl, remains, ((query_closed_form rfl).2 remains _).mpr rfl⟩

end Permit
