/-
Module: Permit.Proofs.Policy.Repetition
Layer: Proofs
Purpose: Copies of a rule in its place. What is asked of a rule is asked of its polarity and its
  guard, so that one copy has the say of many: under every reading of the rules, for the scan over
  an object up to the names in a fault, and for what keeps a scope or a block out of a plan.
Main exports: Rule.Repeats, Rule.Multiplies, Rule.Concur, Rule.Multiplies.outcome_eq,
  Rule.Multiplies.concur, Rule.Multiplies.forall_guard_iff, Rule.Multiplies.mergeScope_eq,
  Rule.Multiplies.onlyBlocks_eq
-/
import Mathlib.Data.List.Basic
import Permit.Policy
import Permit.Proofs.Verdict.Outcome

namespace Permit

variable {ρ : Type}

namespace Rule

/-- The rule says the same as another under the same guard, whatever the two are about. -/
structure Repeats (copy rule : Rule ρ) : Prop where
  polarity : copy.polarity = rule.polarity
  guard : copy.guard = rule.guard

/-- The second list has one copy of the rule or several where the first has one, and is otherwise
    the first. -/
inductive Multiplies (rule : Rule ρ) : List (Rule ρ) → List (Rule ρ) → Prop where
  | absent (rules : List (Rule ρ)) : Multiplies rule rules rules
  | present (before after : List (Rule ρ)) {one : Rule ρ} {copies : List (Rule ρ)}
      (single : one.Repeats rule) (several : copies ≠ [])
      (repeated : ∀ copy ∈ copies, copy.Repeats rule) :
      Multiplies rule (before ++ one :: after) (before ++ (copies ++ after))

namespace Repeats

variable {copy rule : Rule ρ}

theorem isAllow_eq (repeats : copy.Repeats rule) : copy.isAllow = rule.isAllow :=
  congrArg Polarity.isAllow repeats.polarity

theorem decidesType_eq (repeats : copy.Repeats rule) : copy.decidesType = rule.decidesType := by
  rw [decidesType, decidesType, repeats.guard, repeats.isAllow_eq]

end Repeats

namespace Multiplies

variable {rule : Rule ρ} {rules others : List (Rule ρ)}

/-!
### Readings
-/

/-- Under a reading that sees polarity and guard only, copies have the word of the rule. -/
theorem outcome_eq {applies : Rule ρ → Bool} (multiplies : Multiplies rule rules others)
    (reads : ∀ copy : Rule ρ, copy.Repeats rule → applies copy = applies rule) :
    outcome applies rules = outcome applies others := by
  cases multiplies with
  | absent => rfl
  | @present before after one copies single several repeated =>
      -- the last copy decides where the rule applies, and none does where it does not
      obtain ⟨init, last, rfl⟩ := (List.eq_nil_or_concat' copies).resolve_left several
      have lastRepeats : last.Repeats rule := repeated last (by simp)
      have settled : outcome applies (before ++ [one]) =
          outcome applies (before ++ init ++ [last]) := by
        rw [outcome_concat, outcome_concat, reads one single, reads last lastRepeats,
          single.isAllow_eq, lastRepeats.isAllow_eq]
        cases applied : applies rule with
        | true => rfl
        | false =>
            have passed : init.any applies = false := by
              rw [List.any_eq_false]
              intro copy member
              rw [reads copy (repeated copy (by simp [member])), applied]
              exact Bool.false_ne_true
            rw [outcome_append, passed]
            rfl
      simpa using outcome_append_congr settled after

/-- What holds of all guards holds of them with copies and without. -/
theorem forall_guard_iff (multiplies : Multiplies rule rules others) (holds : Guard ρ → Prop) :
    (∀ rule ∈ rules, holds rule.guard) ↔ ∀ rule ∈ others, holds rule.guard := by
  cases multiplies with
  | absent => rfl
  | @present before after one copies single several repeated =>
      have middle : holds one.guard ↔ ∀ copy ∈ copies, holds copy.guard := by
        obtain ⟨copy, member⟩ := List.exists_mem_of_ne_nil copies several
        constructor
        · intro held other otherMember
          rwa [(repeated other otherMember).guard, ← single.guard]
        · intro held
          rw [single.guard, ← (repeated copy member).guard]
          exact held copy member
      rw [List.forall_mem_append, List.forall_mem_append, List.forall_mem_append,
        List.forall_mem_cons, middle]

/-!
### Plans
-/

/-- Some guard passes a test in the one list where some guard does in the other. -/
theorem any_guard_eq (multiplies : Multiplies rule rules others) (test : Guard ρ → Bool) :
    rules.any (fun rule => test rule.guard) = others.any (fun rule => test rule.guard) := by
  rw [Bool.eq_iff_iff, ← not_iff_not, Bool.not_eq_true, Bool.not_eq_true, List.any_eq_false,
    List.any_eq_false]
  exact multiplies.forall_guard_iff (fun guard => ¬ test guard = true)

/-- All guards pass a test in the one list where all do in the other. -/
theorem all_guard_eq (multiplies : Multiplies rule rules others) (test : Guard ρ → Bool) :
    rules.all (fun rule => test rule.guard) = others.all (fun rule => test rule.guard) := by
  rw [Bool.eq_iff_iff, List.all_eq_true, List.all_eq_true]
  exact multiplies.forall_guard_iff (fun guard => test guard = true)

/-- Copies of a rule that is not a scope merge no scope. -/
theorem mergeScope_eq (multiplies : Multiplies rule rules others)
    (noScope : rule.guard.isScope = false) : mergeScope rules = mergeScope others := by
  have scopes : rules.countP (fun rule => rule.guard.isScope) =
      others.countP (fun rule => rule.guard.isScope) := by
    cases multiplies with
    | absent => rfl
    | @present before after one copies single several repeated =>
        have none : copies.countP (fun rule => rule.guard.isScope) = 0 := by
          rw [List.countP_eq_zero]
          intro copy member
          rw [(repeated copy member).guard, noScope]
          exact Bool.false_ne_true
        simp [List.countP_append, single.guard, noScope, none]
  rw [mergeScope, mergeScope, scopes, multiplies.any_guard_eq Guard.isPredicate]

/-- Copies of a block leave a list of blocks one. -/
theorem onlyBlocks_eq (multiplies : Multiplies rule rules others) :
    onlyBlocks rules = onlyBlocks others := by
  have empty : rules.isEmpty = others.isEmpty := by
    cases multiplies with
    | absent => rfl
    | present before after single several repeated =>
        rw [Bool.eq_iff_iff, List.isEmpty_iff, List.isEmpty_iff]
        simp [several]
  rw [onlyBlocks, onlyBlocks, empty, multiplies.all_guard_eq Guard.isBlock]

end Multiplies

/-!
### Verdicts
-/

/-- The same verdict, or two rules of one kind that cannot be decided. -/
inductive Concur : Except Fault Bool → Except Fault Bool → Prop where
  | verdict (answer : Bool) : Concur (.ok answer) (.ok answer)
  | unevaluable (action subject otherAction otherSubject : String) (kind : GuardKind) :
      Concur (.error (.unevaluable action subject kind))
        (.error (.unevaluable otherAction otherSubject kind))

/-- Only the same verdict concurs with a verdict. -/
theorem Concur.eq_ok {answer : Bool} {other : Except Fault Bool}
    (concur : Concur (.ok answer) other) : other = .ok answer := by
  cases concur
  rfl

variable [Resource ρ] {rule : Rule ρ} {rules others : List (Rule ρ)}

/-- A scan fails at a rule that cannot be decided only, and so concurs with itself. -/
theorem concur_self (object : ρ) (rules : List (Rule ρ)) :
    Concur (firstVerdict object rules) (firstVerdict object rules) := by
  cases scanned : firstVerdict object rules with
  | ok answer => exact .verdict answer
  | error fault =>
      obtain ⟨rule, _, _, rfl⟩ := unevaluable_of_firstVerdict scanned
      exact .unevaluable _ _ _ _ _

/-- Scans that come to copies of a rule first concur, if they go on with the same rules. -/
theorem concur_of_repeats {one : Rule ρ} {copies : List (Rule ρ)} (object : ρ)
    (single : one.Repeats rule) (several : copies ≠ [])
    (repeated : ∀ copy ∈ copies, copy.Repeats rule) (rest : List (Rule ρ)) :
    Concur (firstVerdict object (one :: rest)) (firstVerdict object (copies ++ rest)) := by
  cases copies with
  | nil => exact absurd rfl several
  | cons first later =>
      have firstRepeats : first.Repeats rule := repeated first List.mem_cons_self
      cases decided : rule.guard.decide? object with
      | none =>
          have stuck : ∀ copy : Rule ρ, copy.Repeats rule → copy.appliesTo object =
              .error (.unevaluable copy.declaredAction copy.declaredSubject rule.guard.kind) := by
            intro copy repeats
            rw [appliesTo, repeats.guard, decided]
          rw [List.cons_append, firstVerdict, firstVerdict, stuck one single,
            stuck first firstRepeats]
          exact .unevaluable _ _ _ _ _
      | some answer =>
          have applied : ∀ copy : Rule ρ, copy.Repeats rule →
              copy.appliesTo object = .ok answer := by
            intro copy repeats
            rw [appliesTo_eq_ok_iff, repeats.guard, decided]
          cases answer with
          | true =>
              rw [List.cons_append, firstVerdict, firstVerdict, applied one single,
                applied first firstRepeats, single.isAllow_eq, firstRepeats.isAllow_eq]
              exact .verdict rule.isAllow
          | false =>
              have skipped := firstVerdict_append_of_none object rest
                (fun copy member => applied copy (repeated copy member))
              rw [skipped, firstVerdict, applied one single]
              exact concur_self object rest

/-- Copies of a rule say of an object what the rule says, up to the names in a fault. -/
theorem Multiplies.concur (multiplies : Multiplies rule rules others) (object : ρ) :
    Concur (firstVerdict object rules.reverse) (firstVerdict object others.reverse) := by
  cases multiplies with
  | absent => exact concur_self object rules.reverse
  | @present before after one copies single several repeated =>
      have reversed : ∀ copy ∈ copies.reverse, copy.Repeats rule :=
        fun copy member => repeated copy (List.mem_reverse.mp member)
      have onward := concur_of_repeats object single (List.reverse_ne_nil_iff.mpr several) reversed
        before.reverse
      have whole : (before ++ one :: after).reverse = after.reverse ++ one :: before.reverse := by
        simp
      have separate : (before ++ (copies ++ after)).reverse =
          after.reverse ++ (copies.reverse ++ before.reverse) := by simp
      rw [whole, separate, firstVerdict_append, firstVerdict_append]
      split
      · exact concur_self object after.reverse
      · exact onward

end Rule

end Permit
