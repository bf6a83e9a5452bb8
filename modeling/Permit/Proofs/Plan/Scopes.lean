/-
Module: Permit.Proofs.Plan.Scopes
Layer: Proofs
Purpose: A scope is a complete query, and no plan combines it with anything. Beside a scope rule a
  plan has room for unconditional rules and blocks only: the first leave a constant before the scope
  and absorb it after, the second leave no trace. So of the closed form of the query there remains
  the one scope rule, and the query is its scope or the negation of its scope.
Main exports: Guard.isScope_of_excluded, Rule.scope_alone_of_mergeScope, Rule.remaining_eq_scope,
  Query.Chain.shape_of_mem_leaves, Policy.scope_stands_alone
-/
import Permit.Proofs.Plan.ClosedForm

namespace Permit

variable {ρ : Type}

/-- A scope is the one kind of guard left besides blocks, unconditional guards and predicates. -/
theorem Guard.isScope_of_excluded {guard : Guard ρ} (isOpen : guard.isBlock = false)
    (conditional : guard.isUnconditional = false) (bare : guard.isPredicate = false) :
    guard.isScope = true := by
  cases guard with
  | unconditional => cases conditional
  | hash conditions =>
      rw [isUnconditional] at conditional
      simp [isPredicate, conditional] at bare
  | fragment => cases bare
  | scope => rfl
  | block => cases isOpen

/-- A scope leaf belongs to a scope guard, whatever its fallback is. -/
theorem Guard.HasLeaf.eq_scope {guard : Guard ρ} {named : Scope}
    (hasLeaf : guard.HasLeaf (.scope named)) : ∃ fallback, guard = .scope named fallback := by
  cases hasLeaf with
  | scope named fallback => exact ⟨fallback, rfl⟩

namespace Rule

variable {rules : List (Rule ρ)} {rule : Rule ρ}

/-- Beside a scope rule that is not merged there is no second scope and no predicate. -/
theorem scope_alone_of_mergeScope (apart : mergeScope rules = false) (member : rule ∈ rules)
    (scope : rule.guard.isScope = true) :
    rules.countP (fun rule => rule.guard.isScope) = 1 ∧
      ∀ other ∈ rules, other.guard.isPredicate = false := by
  have some : rules.countP (fun rule => rule.guard.isScope) ≠ 0 := by
    rw [Ne, List.countP_eq_zero]
    exact fun none => none rule member scope
  unfold mergeScope at apart
  split at apart
  · next none => exact absurd none some
  · next one => exact ⟨one, by simpa using apart⟩
  · cases apart

theorem remaining_sublist (rules : List (Rule ρ)) : (remaining rules).Sublist rules :=
  (List.dropWhile_sublist _).trans (List.rtakeWhile_suffix _ rules).sublist

/-- No rule that remains is unconditional: the last one of that kind, and all before it,
    are gone. -/
theorem conditional_of_mem_remaining (member : rule ∈ remaining rules) :
    rule.guard.isUnconditional = false := by
  have tail : rule ∈ conditionalTail rules := (List.dropWhile_sublist _).subset member
  simpa using List.mem_rtakeWhile_imp tail

/-- Beside a scope rule that is not merged, a rule that remains can only be the scope rule. -/
theorem remaining_eq_scope (apart : mergeScope rules = false) (member : rule ∈ rules)
    (scope : rule.guard.isScope = true) (remains : remaining (expressible rules) ≠ []) :
    ∃ last ∈ rules, last.guard.isScope = true ∧ remaining (expressible rules) = [last] := by
  obtain ⟨one, bare⟩ := scope_alone_of_mergeScope apart member scope
  have kept : (remaining (expressible rules)).Sublist rules :=
    (remaining_sublist _).trans List.filter_sublist
  have scopes : ∀ other ∈ remaining (expressible rules), other.guard.isScope = true := by
    intro other stays
    have isOpen := (List.mem_filter.mp ((remaining_sublist _).subset stays)).2
    exact Guard.isScope_of_excluded (by simpa using isOpen) (conditional_of_mem_remaining stays)
      (bare other (kept.subset stays))
  have atMostOne : (remaining (expressible rules)).length ≤ 1 := by
    rw [← List.countP_eq_length.mpr scopes, ← one]
    exact kept.countP_le
  have atLeastOne := List.length_pos_of_ne_nil remains
  obtain ⟨last, alone⟩ := List.length_eq_one_iff.mp (Nat.le_antisymm atMostOne atLeastOne)
  have stays : last ∈ remaining (expressible rules) := by simp [alone]
  exact ⟨last, kept.subset stays, scopes last stays, alone⟩

/-- Where one rule is a scope and there is one scope, the other rules are none. -/
theorem isScope_eq_false_of_countP {before after : List (Rule ρ)}
    (one : (before ++ rule :: after).countP (fun rule => rule.guard.isScope) = 1)
    (scope : rule.guard.isScope = true) :
    ∀ other ∈ before ++ after, other.guard.isScope = false := by
  have others : (before ++ after).countP (fun rule => rule.guard.isScope) = 0 := by
    simp only [List.countP_append, List.countP_cons, scope, if_true] at one ⊢
    omega
  simpa using List.countP_eq_zero.mp others

end Rule

/-- A chain of one rule with a leaf in it is that leaf or its negation, as the rule says. -/
theorem Query.Chain.shape_of_mem_leaves {rule : Rule ρ} {query leaf : Query}
    (chain : Chain [rule] query) (member : leaf ∈ query.leaves) :
    rule.guard.HasLeaf leaf ∧
      ((rule.polarity = .allow ∧ query = leaf) ∨ (rule.polarity = .deny ∧ query = .not leaf)) := by
  obtain ⟨only, hasLeaf, same⟩ := chain.singleton_inv
  cases polarity : rule.polarity with
  | allow =>
      simp only [polarity] at same
      rw [same, hasLeaf.leaves_eq, List.mem_singleton] at member
      exact member ▸ ⟨hasLeaf, .inl ⟨rfl, same⟩⟩
  | deny =>
      simp only [polarity] at same
      rw [same, leaves, hasLeaf.leaves_eq, List.mem_singleton] at member
      exact member ▸ ⟨hasLeaf, .inr ⟨rfl, same⟩⟩

/-- A planned query with a scope in it is that scope, granted, or its negation, denied. The scope is
    that of the only relevant scope rule, whatever unconditional rules and blocks stand around it,
    and nothing is joined. -/
theorem Policy.scope_stands_alone {policy : Policy ρ} {action subject : String} {plan : Plan}
    {named : Scope} (planned : policy.plan action subject = .ok plan)
    (member : .scope named ∈ plan.query.leaves) :
    plan.joins = Joins.empty ∧
    ∃ before rule after fallback, policy.relevant action subject = before ++ rule :: after ∧
      rule.guard = .scope named fallback ∧
      (∀ other ∈ before ++ after, other.guard.isScope = false) ∧
      ((rule.polarity = .allow ∧ plan.query = .scope named) ∨
        (rule.polarity = .deny ∧ plan.query = .not (.scope named))) := by
  obtain ⟨apart, _, folded, joins⟩ := plan_eq_ok_iff.mp planned
  have folds := Query.folds_of_ofRules? folded
  obtain ⟨source, relevant, hasScope⟩ := Query.exists_rule_of_mem_leaves folds member
  obtain ⟨_, isSource⟩ := hasScope.eq_scope
  have scope : source.guard.isScope = true := by rw [isSource]; rfl
  rcases Query.closedForm_of_folds folds with ⟨_, constant⟩ | chain
  · rw [constant] at member
    cases base : Rule.base (Rule.expressible (policy.relevant action subject)) <;>
      simp [base, Polarity.constant, Query.leaves] at member
  · obtain ⟨rule, isRelevant, isScope, alone⟩ :=
      Rule.remaining_eq_scope apart relevant scope chain.rules_ne_nil
    rw [alone] at chain
    obtain ⟨hasLeaf, shape⟩ := chain.shape_of_mem_leaves member
    obtain ⟨fallback, guard⟩ := hasLeaf.eq_scope
    obtain ⟨before, after, split⟩ := List.append_of_mem isRelevant
    have one := (Rule.scope_alone_of_mergeScope apart relevant scope).1
    rw [split] at one
    refine ⟨?_, before, rule, after, fallback, split, guard,
      Rule.isScope_eq_false_of_countP one isScope, shape⟩
    rw [joins]
    rcases shape with ⟨_, same⟩ | ⟨_, same⟩ <;> rw [same] <;> rfl

/-!
### An embargo

Everything is denied, then granted again by empty conditions, and the scope takes articles away.
Blocks of both polarities stand before and after it.
-/

namespace Embargo

def policy : Policy Unit where
  rules := [
    Rule.declare .allow ["read"] ["Article"] (.block (fun _ => true)),
    Rule.declare .deny ["manage"] ["all"] .unconditional,
    Rule.declare .deny ["read"] ["Article"] (.block (fun _ => true)),
    Rule.declare .allow ["read"] ["all"] (.hash []),
    Rule.declare .deny ["read"] ["Article"] (.scope ⟨"embargoed"⟩ none),
    Rule.declare .allow ["edit"] ["Article"] (.scope ⟨"mine"⟩ none),
    Rule.declare .allow ["read"] ["Article"] (.block (fun _ => false))]
  settings := .standard

end Embargo

theorem Policy.embargo_stands_alone :
    Embargo.policy.plan "read" "Article" =
      .ok ⟨.not (.scope ⟨"embargoed"⟩), Joins.empty⟩ ∧
    .scope ⟨"embargoed"⟩ ∈ (Query.not (.scope ⟨"embargoed"⟩)).leaves ∧
    ∃ before rule after fallback,
      Embargo.policy.relevant "read" "Article" = before ++ rule :: after ∧
      rule.guard = .scope ⟨"embargoed"⟩ fallback ∧
      (∀ other ∈ before ++ after, other.guard.isScope = false) ∧
      ((rule.polarity = .allow ∧
          Query.not (.scope ⟨"embargoed"⟩) = .scope ⟨"embargoed"⟩) ∨
        (rule.polarity = .deny ∧
          Query.not (.scope ⟨"embargoed"⟩) = .not (.scope ⟨"embargoed"⟩))) := by
  have planned : Embargo.policy.plan "read" "Article" =
      .ok ⟨.not (.scope ⟨"embargoed"⟩), Joins.empty⟩ := rfl
  have member : .scope ⟨"embargoed"⟩ ∈ (Query.not (.scope ⟨"embargoed"⟩)).leaves :=
    List.mem_singleton_self _
  exact ⟨planned, member, (scope_stands_alone planned member).2⟩

end Permit
