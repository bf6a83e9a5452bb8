/-
Module: Permit.Proofs.Verdict.Outcome
Layer: Proofs
Purpose: The verdict on an object, read forwards. Scanning rules from the last to the first and
  stopping at the first that applies gives the word of the last rule that applies, as long as no
  rule on the way is for a store to decide. The judgement of a type is a word of the same kind.
Main exports: Guard.isOpaque, Guard.decide?_eq_none_iff, Rule.outcome, Rule.outcome_concat,
  Rule.outcome_append_congr, Rule.outcome_append, Rule.outcome_eq_find?, Rule.stops,
  Rule.firstVerdict_append_of_stops, Rule.firstVerdict_append, Rule.eq_outcome_of_firstVerdict,
  Rule.unevaluable_of_firstVerdict, Rule.firstVerdict_eq_outcome, Policy.canType_eq_outcome,
  Policy.can_eq_outcome
-/
import Mathlib.Data.List.Induction
import Permit.Policy

namespace Permit

variable {ρ : Type}

/-- Only a store can tell whether the guard lets an object pass. -/
def Guard.isOpaque : Guard ρ → Bool
  | .fragment _ none => true
  | .scope _ none => true
  | _ => false

/-- Whether a guard can be decided depends on the guard alone. -/
theorem Guard.decide?_eq_none_iff [Resource ρ] {guard : Guard ρ} (object : ρ) :
    guard.decide? object = none ↔ guard.isOpaque = true := by
  rcases guard with _ | _ | ⟨_, _ | _⟩ | ⟨_, _ | _⟩ | _ <;> simp [decide?, isOpaque]

/-- Nothing escapes an unconditional guard. -/
theorem Guard.decide?_of_isUnconditional [Resource ρ] {guard : Guard ρ} (object : ρ)
    (unconditional : guard.isUnconditional = true) : guard.decide? object = some true := by
  cases guard with
  | unconditional => rfl
  | hash conditions =>
      rw [List.isEmpty_iff.mp unconditional]
      rfl
  | fragment => cases unconditional
  | scope => cases unconditional
  | block => cases unconditional

namespace Rule

theorem isAllow_of_allow {rule : Rule ρ} (allows : rule.polarity = .allow) :
    rule.isAllow = true := by
  rw [isAllow, allows, Polarity.isAllow]

theorem isAllow_of_deny {rule : Rule ρ} (denies : rule.polarity = .deny) :
    rule.isAllow = false := by
  rw [isAllow, denies, Polarity.isAllow]

/-- The word of the last rule that applies, and no where none does. -/
def outcome (applies : Rule ρ → Bool) (rules : List (Rule ρ)) : Bool :=
  rules.foldl (fun verdict rule => if applies rule then rule.isAllow else verdict) false

/-- A rule at the end overrides the rules before it where it applies. -/
theorem outcome_concat (applies : Rule ρ → Bool) (rules : List (Rule ρ)) (rule : Rule ρ) :
    outcome applies (rules ++ [rule]) =
      if applies rule then rule.isAllow else outcome applies rules := by
  simp [outcome]

/-- Of the rules before others only their word counts. -/
theorem outcome_append_congr {applies : Rule ρ → Bool} {rules others : List (Rule ρ)}
    (same : outcome applies rules = outcome applies others) (after : List (Rule ρ)) :
    outcome applies (rules ++ after) = outcome applies (others ++ after) := by
  unfold outcome at same ⊢
  rw [List.foldl_append, List.foldl_append, same]

/-- A later list of rules has the word where one of its rules applies. -/
theorem outcome_append (applies : Rule ρ → Bool) (rules after : List (Rule ρ)) :
    outcome applies (rules ++ after) =
      if after.any applies then outcome applies after else outcome applies rules := by
  induction after using List.reverseRecOn with
  | nil => simp
  | append_singleton after rule ih =>
      rw [← List.append_assoc, outcome_concat, outcome_concat, ih, List.any_append]
      cases applied : applies rule <;> simp [applied]

/-- The last rule that applies is the first that applies from the end. -/
theorem outcome_eq_find? (applies : Rule ρ → Bool) (rules : List (Rule ρ)) :
    outcome applies rules = (rules.reverse.find? applies).any isAllow := by
  induction rules using List.reverseRecOn with
  | nil => rfl
  | append_singleton rules rule ih =>
      rw [outcome_concat, List.reverse_concat, List.find?_cons, ih]
      cases applies rule <;> rfl

variable [Resource ρ]

/-- A rule answers for an object what its guard decides. -/
theorem appliesTo_eq_ok_iff {rule : Rule ρ} {object : ρ} {answer : Bool} :
    rule.appliesTo object = .ok answer ↔ rule.guard.decide? object = some answer := by
  unfold appliesTo
  cases rule.guard.decide? object <;> simp

/-- A rule cannot be decided where its guard is opaque, and the fault names the rule. -/
theorem appliesTo_eq_error_iff {rule : Rule ρ} {object : ρ} {fault : Fault} :
    rule.appliesTo object = .error fault ↔
      rule.guard.isOpaque = true ∧
        fault = .unevaluable rule.declaredAction rule.declaredSubject rule.guard.kind := by
  rw [← Guard.decide?_eq_none_iff object]
  unfold appliesTo
  cases rule.guard.decide? object <;> simp [eq_comm]

/-- The scan for an object goes no further than the rule: it applies, or it cannot be decided. -/
def stops (object : ρ) (rule : Rule ρ) : Bool :=
  match rule.appliesTo object with
  | .ok answer => answer
  | .error _ => true

/-- A scan goes on behind a rule exactly where the rule is decided and does not apply. -/
theorem stops_eq_false_iff {object : ρ} {rule : Rule ρ} :
    rule.stops object = false ↔ rule.appliesTo object = .ok false := by
  unfold stops
  cases rule.appliesTo object <;> simp

/-- Where the first list stops the scan the second one is not looked at. -/
theorem firstVerdict_append_of_stops {object : ρ} {first : List (Rule ρ)} (rest : List (Rule ρ))
    (stopped : first.any (stops object) = true) :
    firstVerdict object (first ++ rest) = firstVerdict object first := by
  induction first with
  | nil => cases stopped
  | cons rule others ih =>
      rw [List.cons_append, firstVerdict, firstVerdict]
      cases applied : rule.appliesTo object with
      | error fault => rfl
      | ok answer =>
          cases answer with
          | true => rfl
          | false =>
              rw [List.any_cons, stops_eq_false_iff.mpr applied, Bool.false_or] at stopped
              exact ih stopped

/-- A scan over two lists is that over the first where something in it stops the scan. -/
theorem firstVerdict_append (object : ρ) (first rest : List (Rule ρ)) :
    firstVerdict object (first ++ rest) =
      if first.any (stops object) then firstVerdict object first
      else firstVerdict object rest := by
  split
  · next stopped => exact firstVerdict_append_of_stops rest stopped
  · next passed =>
      apply firstVerdict_append_of_none
      rw [Bool.not_eq_true, List.any_eq_false] at passed
      exact fun rule member => stops_eq_false_iff.mp (Bool.not_eq_true _ ▸ passed rule member)

/-- The verdict is the outcome under every reading of the rules that says what they say on the
    object themselves, whatever it says of opaque ones. -/
theorem eq_outcome_of_firstVerdict {applies : Rule ρ → Bool} {object : ρ} {verdict : Bool}
    {rules : List (Rule ρ)}
    (agrees : ∀ rule ∈ rules, ∀ answer, rule.guard.decide? object = some answer →
      applies rule = answer)
    (decided : firstVerdict object rules.reverse = .ok verdict) :
    verdict = outcome applies rules := by
  induction rules using List.reverseRecOn with
  | nil =>
      rw [List.reverse_nil, firstVerdict, Except.ok.injEq] at decided
      exact decided.symm
  | append_singleton rules rule ih =>
      rw [outcome_concat]
      rw [List.reverse_concat, firstVerdict] at decided
      cases applied : rule.appliesTo object with
      | error fault => simp [applied] at decided
      | ok answer =>
          have reading : applies rule = answer :=
            agrees rule (by simp) answer (appliesTo_eq_ok_iff.mp applied)
          cases answer with
          | true =>
              simp only [applied, Except.ok.injEq] at decided
              simp [reading, decided]
          | false =>
              simp only [applied] at decided
              have others := ih (fun other member => agrees other (by simp [member])) decided
              simp [reading, others]

/-- The scan fails at an opaque rule only. -/
theorem unevaluable_of_firstVerdict {object : ρ} {fault : Fault} {rules : List (Rule ρ)}
    (failed : firstVerdict object rules = .error fault) :
    ∃ rule ∈ rules, rule.guard.isOpaque = true ∧
      fault = .unevaluable rule.declaredAction rule.declaredSubject rule.guard.kind := by
  induction rules with
  | nil => simp [firstVerdict] at failed
  | cons rule rest ih =>
      rw [firstVerdict] at failed
      cases applied : rule.appliesTo object with
      | error cause =>
          simp only [applied, Except.error.injEq] at failed
          exact ⟨rule, List.mem_cons_self, appliesTo_eq_error_iff.mp (failed ▸ applied)⟩
      | ok answer =>
          cases answer with
          | true => simp [applied] at failed
          | false =>
              simp only [applied] at failed
              obtain ⟨other, member, reason⟩ := ih failed
              exact ⟨other, List.mem_cons_of_mem _ member, reason⟩

/-- The rule's guard decides by itself that the object passes. -/
def letsPass (object : ρ) (rule : Rule ρ) : Bool := (rule.guard.decide? object).getD false

/-- A rule that is not opaque can be decided. -/
theorem appliesTo_of_clear {rule : Rule ρ} {object : ρ} (clear : rule.guard.isOpaque = false) :
    rule.appliesTo object = .ok (rule.letsPass object) := by
  rw [appliesTo_eq_ok_iff, letsPass]
  cases decided : rule.guard.decide? object with
  | some answer => rfl
  | none =>
      rw [Guard.decide?_eq_none_iff, clear] at decided
      cases decided

/-- Where no rule is opaque the scan always ends in a verdict. -/
theorem firstVerdict_eq_outcome (object : ρ) {rules : List (Rule ρ)}
    (clear : ∀ rule ∈ rules, rule.guard.isOpaque = false) :
    firstVerdict object rules.reverse = .ok (outcome (letsPass object) rules) := by
  cases decided : firstVerdict object rules.reverse with
  | ok verdict =>
      apply congrArg Except.ok
      apply eq_outcome_of_firstVerdict ?_ decided
      intro rule _ answer answered
      rw [letsPass, answered, Option.getD_some]
  | error fault =>
      obtain ⟨rule, member, isOpaque, _⟩ := unevaluable_of_firstVerdict decided
      rw [clear rule (List.mem_reverse.mp member)] at isOpaque
      cases isOpaque

end Rule

namespace Policy

/-- The judgement of a type is the word of the last rule that decides types. -/
theorem canType_eq_outcome (policy : Policy ρ) (action subject : String) :
    policy.canType action subject =
      Rule.outcome Rule.decidesType (policy.relevant action subject) :=
  (Rule.outcome_eq_find? _ _).symm

/-- The verdict on an object is the word of the last rule that lets it pass, where no relevant rule
    is opaque. -/
theorem can_eq_outcome [Resource ρ] {policy : Policy ρ} {action subject : String} {object : ρ}
    (clear : ∀ rule ∈ policy.relevant action subject, rule.guard.isOpaque = false)
    (type : Resource.subjectType object = subject) :
    policy.can action object =
      .ok (Rule.outcome (Rule.letsPass object) (policy.relevant action subject)) := by
  rw [can, type]
  exact Rule.firstVerdict_eq_outcome object clear

end Policy

end Permit
