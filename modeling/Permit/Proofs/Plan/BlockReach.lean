/-
Module: Permit.Proofs.Plan.BlockReach
Layer: Proofs
Purpose: Whether a check can get to a block where a plan is refused for one. The fold gives up at a
  block denial before it sees the rules after it, and a later unconditional rule may stop every
  check short of all blocks. Such a refusal is in vain: from that rule on the rules have a plan, and
  they say the same of every object.
Main exports: Rule.ExposesBlock, Rule.exists_block_of_stoppedByBlock, Policy.exists_dropRules,
  Policy.plan_eq_blockOnly_iff, Policy.exists_plan_of_no_block, Policy.block_refusal_reach,
  Policy.open_day_refused_in_vain
-/
import Permit.Proofs.Plan.Shadowing

namespace Permit

variable {ρ : Type}

namespace Rule

variable {rules : List (Rule ρ)}

/-- Some block has no unconditional rule after it, so that a scan from the end can get to it. -/
def ExposesBlock (rules : List (Rule ρ)) : Prop :=
  Unopposed (fun rule => rule.guard.isBlock = true) (fun rule => rule.guard.isUnconditional = true)
    rules

/-- Rules that are refused for a block hold one. -/
theorem exists_block_of_stoppedByBlock (stopped : StoppedByBlock rules) :
    ∃ rule ∈ rules, rule.guard.isBlock = true := by
  rcases stopped with ⟨nonempty, blocks⟩ |
    ⟨before, grant, between, denial, after, rfl, _, ⟨_, block⟩, _⟩
  · obtain ⟨rule, member⟩ := List.exists_mem_of_ne_nil rules nonempty
    exact ⟨rule, member, blocks rule member⟩
  · exact ⟨denial, by simp, block⟩

end Rule

namespace Policy

variable {policy : Policy ρ} {action subject : String}

/-- The relevant rules from one of them on are those of a policy without the rules before it. -/
theorem exists_dropRules {before after : List (Rule ρ)} {rule : Rule ρ}
    (whole : policy.relevant action subject = before ++ rule :: after) :
    ∃ position, policy.rules[position]? = some rule ∧ rule.isRelevant action subject = true ∧
      (policy.dropRules position).relevant action subject = rule :: after := by
  obtain ⟨first, others, split, _, rest⟩ := List.filter_eq_append_iff.mp whole
  obtain ⟨skipped, later, rfl, _, relevant, kept⟩ := List.filter_eq_cons_iff.mp rest
  have rules : policy.rules = (first ++ skipped) ++ rule :: later := by
    rw [split, List.append_assoc]
  refine ⟨(first ++ skipped).length, ?_, relevant, ?_⟩
  · rw [rules, List.getElem?_append_right (Nat.le_refl _), Nat.sub_self, List.getElem?_cons_zero]
  · have dropped : (policy.dropRules (first ++ skipped).length).rules = rule :: later := by
      rw [dropRules, rules, List.drop_left]
    rw [Policy.relevant, dropped, ← kept]
    exact List.filter_cons_of_pos relevant

/-- A plan is refused for a block where the rules stop at one and no scope would be merged. -/
theorem plan_eq_blockOnly_iff :
    policy.plan action subject = .error (.blockOnly action subject) ↔
      Rule.mergeScope (policy.relevant action subject) = false ∧
        Rule.StoppedByBlock (policy.relevant action subject) := by
  rw [Query.stoppedByBlock_iff]
  rcases policy.plan_cases action subject with
    ⟨merged, refused⟩ | ⟨apart, stopped, refused⟩ | ⟨apart, mixed, query, folded, planned⟩
  · simp [merged, refused]
  · simp [apart, stopped, refused]
  · simp [apart, mixed, folded, planned]

/-- Without a block there is a plan, unless a scope would be merged. -/
theorem exists_plan_of_no_block (apart : Rule.mergeScope (policy.relevant action subject) = false)
    (clear : ∀ rule ∈ policy.relevant action subject, ¬ rule.guard.isBlock = true) :
    ∃ plan, policy.plan action subject = .ok plan := by
  rcases policy.plan_cases action subject with ⟨merged, _⟩ | ⟨_, stopped, _⟩ | ⟨_, _, _, _, planned⟩
  · rw [merged] at apart
    cases apart
  · obtain ⟨rule, member, block⟩ :=
      Rule.exists_block_of_stoppedByBlock (Query.stoppedByBlock_iff.mpr stopped)
    exact absurd block (clear rule member)
  · exact ⟨_, planned⟩

/-- Where a plan is refused for a block, some block is exposed unless the rules from an
    unconditional one on hold no block. Then these rules have a plan, and a check of them says what
    a check of all rules says, faults included. -/
theorem block_refusal_reach [Resource ρ]
    (refused : policy.plan action subject = .error (.blockOnly action subject)) :
    ¬ Rule.ExposesBlock (policy.relevant action subject) ↔
      ∃ position rule plan, policy.rules[position]? = some rule ∧
        rule.isRelevant action subject = true ∧ rule.guard.isUnconditional = true ∧
        (∀ later ∈ (policy.dropRules position).relevant action subject,
          ¬ later.guard.isBlock = true) ∧
        (policy.dropRules position).plan action subject = .ok plan ∧
        ∀ object : ρ, Resource.subjectType object = subject →
          policy.can action object = (policy.dropRules position).can action object := by
  obtain ⟨unmerged, stopped⟩ := plan_eq_blockOnly_iff.mp refused
  rw [Rule.ExposesBlock, not_unopposed_iff]
  constructor
  · rintro (clear | ⟨before, rule, after, whole, unconditional, clear⟩)
    · obtain ⟨rule, member, block⟩ := Rule.exists_block_of_stoppedByBlock stopped
      exact absurd block (clear rule member)
    · obtain ⟨position, stands, relevant, rest⟩ := exists_dropRules whole
      have apart : Rule.mergeScope (rule :: after) = false := by
        rw [← Bool.not_eq_true]
        rw [whole, ← Bool.not_eq_true] at unmerged
        exact mt (Rule.mergeScope_of_sublist (List.sublist_append_right before _)) unmerged
      obtain ⟨plan, planned⟩ := exists_plan_of_no_block (rest ▸ apart) (rest ▸ clear)
      refine ⟨position, rule, plan, stands, relevant, unconditional, rest ▸ clear, planned, ?_⟩
      -- every check stops at the unconditional rule, if not before
      rintro object rfl
      rw [can, can, whole, rest, List.reverse_append, List.reverse_cons, List.append_assoc]
      exact Rule.firstVerdict_append_of_applies
        (Rule.appliesTo_of_isUnconditional object unconditional) after.reverse before.reverse
  · rintro ⟨position, rule, plan, stands, relevant, unconditional, clear, _⟩
    obtain ⟨before, after, whole, rest⟩ := relevant_dropRules stands relevant
    exact .inr ⟨before, rule, after, whole, unconditional, rest ▸ clear⟩

end Policy

/-!
### An open day

The last rule lets everybody in, so that no check gets to the list of banned visitors. Read in order
of declaration, the list meets the grant to members first.
-/

namespace OpenDay

def everybody : Rule Record := Rule.declare .allow ["enter"] ["Museum"] .unconditional

def policy : Policy Record where
  rules := [
    Rule.declare .allow ["enter"] ["Museum"] (.hash [("member", .equals (.boolean true))]),
    Rule.declare .deny ["enter"] ["Museum"] (.block (fun visit => visit.id == .integer 9)),
    everybody]
  settings := .standard

def banned : Record := Record.ofId "Museum" (.integer 9)

theorem not_exposesBlock : ¬ Rule.ExposesBlock (policy.relevant "enter" "Museum") := by
  apply not_unopposed_iff.mpr
  exact .inr ⟨policy.rules.take 2, everybody, [], rfl, rfl,
    List.forall_mem_singleton.mpr Bool.false_ne_true⟩

end OpenDay

theorem Policy.open_day_without_list :
    OpenDay.policy.plan "enter" "Museum" = .error (.blockOnly "enter" "Museum") ∧
    ¬ Rule.ExposesBlock (OpenDay.policy.relevant "enter" "Museum") ∧
    (OpenDay.policy.dropRules 2).plan "enter" "Museum" = .ok ⟨.always, Joins.empty⟩ ∧
    ∃ position plan, (OpenDay.policy.dropRules position).plan "enter" "Museum" = .ok plan ∧
      OpenDay.policy.can "enter" OpenDay.banned =
        (OpenDay.policy.dropRules position).can "enter" OpenDay.banned ∧
      OpenDay.policy.can "enter" OpenDay.banned = .ok true := by
  have hidden := OpenDay.not_exposesBlock
  obtain ⟨position, _, plan, _, _, _, _, planned, checks⟩ := (block_refusal_reach rfl).mp hidden
  exact ⟨rfl, hidden, rfl, position, plan, planned, checks OpenDay.banned rfl, rfl⟩

/-- There is no plan for the open day, although no check gets to its only block. -/
theorem Policy.open_day_refused_in_vain :
    OpenDay.policy.plan "enter" "Museum" = .error (.blockOnly "enter" "Museum") ∧
    ¬ Rule.ExposesBlock (OpenDay.policy.relevant "enter" "Museum") :=
  ⟨rfl, OpenDay.not_exposesBlock⟩

end Permit
