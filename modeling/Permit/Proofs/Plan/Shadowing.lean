/-
Module: Permit.Proofs.Plan.Shadowing
Layer: Proofs
Purpose: Dead rules. A relevant unconditional rule settles everything by itself, so the rules before
  it can be dropped: the scan for an object stops at it, the judgement of a type does not look
  further back, and the query starts anew from its constant. Where there was a plan there still is,
  the same one, since fewer rules merge no scope that more rules did not merge.
Main exports: Rule.firstVerdict_append_of_applies, Rule.outcome_append_of_applies,
  Query.absorb?_of_isUnconditional, Query.ofRules?_append_of_isUnconditional,
  Rule.mergeScope_of_sublist, Policy.dropRules, Policy.unconditional_rule_shadows
-/
import Permit.Proofs.Plan.ClosedForm
import Permit.Proofs.Plan.Refusal
import Permit.Proofs.Verdict.Outcome
import Permit.Record

namespace Permit

variable {ρ : Type}

/-!
### Verdicts
-/

namespace Rule

/-- The scan does not go past a rule that applies. -/
theorem firstVerdict_append_of_applies [Resource ρ] {object : ρ} {rule : Rule ρ}
    (applied : rule.appliesTo object = .ok true) (first rest : List (Rule ρ)) :
    firstVerdict object (first ++ rule :: rest) = firstVerdict object (first ++ [rule]) := by
  have stopped : (first ++ [rule]).any (stops object) = true := by simp [stops, applied]
  rw [List.append_cons]
  exact firstVerdict_append_of_stops rest stopped

/-- No rule before one that applies has a say. -/
theorem outcome_append_of_applies {applies : Rule ρ → Bool} {rule : Rule ρ}
    (applied : applies rule = true) (before after : List (Rule ρ)) :
    outcome applies (before ++ rule :: after) = outcome applies (rule :: after) := by
  rw [outcome_append, if_pos (by simp [applied])]

theorem appliesTo_of_isUnconditional [Resource ρ] {rule : Rule ρ} (object : ρ)
    (unconditional : rule.guard.isUnconditional = true) : rule.appliesTo object = .ok true :=
  appliesTo_eq_ok_iff.mpr (Guard.decide?_of_isUnconditional object unconditional)

end Rule

/-!
### Plans
-/

namespace Query

/-- An unconditional rule takes any query to the constant of its polarity. -/
theorem absorb?_of_isUnconditional {rule : Rule ρ}
    (unconditional : rule.guard.isUnconditional = true) (query : Query) :
    query.absorb? rule = some rule.polarity.constant := by
  cases polarity : rule.polarity <;>
    simp [absorb?, Guard.query?_of_isUnconditional unconditional, polarity, Polarity.constant,
      disjoin_always, negate, conjoin_never]

/-- The query starts anew at an unconditional rule, if the rules before it come to a query at
    all. -/
theorem ofRules?_append_of_isUnconditional {rule : Rule ρ}
    (unconditional : rule.guard.isUnconditional = true) (before after : List (Rule ρ)) :
    ofRules? (before ++ rule :: after) =
      (ofRules? before).bind (fun _ => ofRules? (rule :: after)) := by
  simp [ofRules?, List.foldlM_append, absorb?_of_isUnconditional unconditional]

end Query

namespace Rule

/-- What some rules would merge, more rules would merge too. -/
theorem mergeScope_of_sublist {some all : List (Rule ρ)} (sublist : some.Sublist all)
    (merged : mergeScope some = true) : mergeScope all = true := by
  rw [mergeScope_iff] at merged ⊢
  have fewer := sublist.countP_le (p := fun rule => rule.guard.isScope)
  rcases merged with scopes | ⟨scope, rule, member, predicates⟩
  · exact .inl (scopes.trans fewer)
  · rcases Nat.lt_or_ge 1 (all.countP (fun rule => rule.guard.isScope)) with two | one
    · exact .inl two
    · exact .inr ⟨Nat.le_antisymm one (scope ▸ fewer), rule, sublist.subset member, predicates⟩

end Rule

namespace Policy

/-- The policy without the rules before a position. -/
def dropRules (policy : Policy ρ) (position : Nat) : Policy ρ :=
  { policy with rules := policy.rules.drop position }

/-- From a relevant rule on, the relevant rules of both policies are the same. -/
theorem relevant_dropRules {policy : Policy ρ} {position : Nat} {rule : Rule ρ}
    {action subject : String} (stands : policy.rules[position]? = some rule)
    (relevant : rule.isRelevant action subject = true) :
    ∃ before after, policy.relevant action subject = before ++ rule :: after ∧
      (policy.dropRules position).relevant action subject = rule :: after := by
  obtain ⟨bound, rfl⟩ := List.getElem?_eq_some_iff.mp stands
  have fromRule : (policy.dropRules position).relevant action subject =
      policy.rules[position] ::
        (policy.rules.drop (position + 1)).filter (fun rule => rule.isRelevant action subject) := by
    rw [Policy.relevant, dropRules, List.drop_eq_getElem_cons bound]
    exact List.filter_cons_of_pos relevant
  refine ⟨(policy.rules.take position).filter (fun rule => rule.isRelevant action subject), _, ?_,
    fromRule⟩
  rw [← fromRule, Policy.relevant, Policy.relevant, dropRules, ← List.filter_append,
    List.take_append_drop]

/-- The rules before a relevant unconditional one, so in particular those before the last such, can
    be dropped: the verdict on each object stays, faults included, and so does the judgement of the
    type, and where there is a plan it stays, its joins included. -/
theorem unconditional_rule_shadows [Resource ρ] {policy : Policy ρ} {position : Nat}
    {rule : Rule ρ} {action subject : String} (stands : policy.rules[position]? = some rule)
    (relevant : rule.isRelevant action subject = true)
    (unconditional : rule.guard.isUnconditional = true) :
    (∀ object : ρ, Resource.subjectType object = subject →
      policy.can action object = (policy.dropRules position).can action object) ∧
    policy.canType action subject = (policy.dropRules position).canType action subject ∧
    ∀ plan, policy.plan action subject = .ok plan →
      (policy.dropRules position).plan action subject = .ok plan := by
  obtain ⟨before, after, whole, rest⟩ := relevant_dropRules stands relevant
  refine ⟨?_, ?_, ?_⟩
  · rintro object rfl
    rw [can, can, whole, rest, List.reverse_append, List.reverse_cons, List.append_assoc]
    exact Rule.firstVerdict_append_of_applies
      (Rule.appliesTo_of_isUnconditional object unconditional) after.reverse before.reverse
  · rw [canType_eq_outcome, canType_eq_outcome, whole, rest]
    apply Rule.outcome_append_of_applies
    rw [Rule.decidesType, unconditional, Bool.true_or]
  · intro plan planned
    obtain ⟨apart, _, folded, joins⟩ := plan_eq_ok_iff.mp planned
    rw [whole] at apart folded
    refine plan_eq_ok_iff.mpr ⟨?_, ?_, ?_, joins⟩
    · rw [rest, ← Bool.not_eq_true]
      intro merged
      rw [Rule.mergeScope_of_sublist (List.sublist_append_right before _) merged] at apart
      cases apart
    · rw [rest]
      simp [Rule.onlyBlocks, Guard.isBlock_of_isUnconditional unconditional]
    · rw [Query.ofRules?_append_of_isUnconditional unconditional] at folded
      obtain ⟨_, _, folded⟩ := Option.bind_eq_some_iff.mp folded
      rw [rest, folded]

end Policy

/-!
### A closing time

Empty conditions close everything. Dropped with the grants before them is an association that no
plan joins, and kept after them a block denial that meets no grant.
-/

namespace ClosingTime

def closing : Rule Record := Rule.declare .deny ["manage"] ["all"] (.hash [])

def policy : Policy Record where
  rules := [
    Rule.declare .allow ["read"] ["Article"]
      (.hash [("region", .nested [("open", .equals (.boolean true))])]),
    Rule.declare .allow ["read"] ["Article"] (.block (fun _ => true)),
    closing,
    Rule.declare .deny ["read"] ["Article"] (.block (fun article => article.id == .integer 9)),
    Rule.declare .allow ["edit"] ["Article"] .unconditional,
    Rule.declare .allow ["read"] ["Article"] (.fragment ⟨"late", []⟩ none)]
  settings := .standard

def article : Record := Record.ofId "Article" (.integer 1)

end ClosingTime

theorem Policy.closing_time_shadows :
    ClosingTime.policy.rules[2]? = some ClosingTime.closing ∧
    ClosingTime.closing.isRelevant "read" "Article" = true ∧
    ClosingTime.closing.guard.isUnconditional = true ∧
    ClosingTime.policy.can "read" ClosingTime.article =
      .error (.unevaluable "read" "Article" .fragment) ∧
    ClosingTime.policy.plan "read" "Article" = .ok ⟨.fragment ⟨"late", []⟩, Joins.empty⟩ ∧
    ClosingTime.policy.can "read" ClosingTime.article =
      (ClosingTime.policy.dropRules 2).can "read" ClosingTime.article ∧
    ClosingTime.policy.canType "read" "Article" =
      (ClosingTime.policy.dropRules 2).canType "read" "Article" ∧
    (ClosingTime.policy.dropRules 2).plan "read" "Article" =
      .ok ⟨.fragment ⟨"late", []⟩, Joins.empty⟩ := by
  have stands : ClosingTime.policy.rules[2]? = some ClosingTime.closing := rfl
  have relevant : ClosingTime.closing.isRelevant "read" "Article" = true := rfl
  obtain ⟨objects, types, plans⟩ := unconditional_rule_shadows stands relevant rfl
  exact ⟨stands, relevant, rfl, rfl, rfl, objects ClosingTime.article rfl, types, plans _ rfl⟩

end Permit
