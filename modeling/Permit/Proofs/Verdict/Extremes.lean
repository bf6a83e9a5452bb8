/-
Module: Permit.Proofs.Verdict.Extremes
Layer: Proofs
Purpose: Where three readings of the same rules have to agree: the judgement of a type, the verdict
  on each object of the type, and the query over them. A type that is refused has no object that is
  permitted and a query that selects none. A query that selects every object by its form belongs
  to a type that is not refused, and no object of it is.
Main exports: ConfinedTo, Rule.confined_concat, Query.grants_of_absorbs,
  Policy.type_verdict_at_extremes
-/
import Permit.Proofs.Plan.Refusal
import Permit.Proofs.Verdict.Outcome
import Permit.Record

namespace Permit

variable {ρ : Type}

open Query (Folds Absorbs)

/-- The answer is the word, or a rule that is for a store to decide stands before an answer. -/
def ConfinedTo (word : Bool) (answer : Except Fault Bool) : Prop :=
  answer = .ok word ∨ ∃ declaredAction declaredSubject kind,
    answer = .error (.unevaluable declaredAction declaredSubject kind)

namespace Rule

/-- A rule with the word keeps the scan to the word, if the rules before it do where it does not
    apply. -/
theorem confined_concat [Resource ρ] {rules : List (Rule ρ)} {rule : Rule ρ} {object : ρ}
    {word : Bool} (speaks : rule.isAllow = word)
    (earlier : rule.appliesTo object = .ok false →
      ConfinedTo word (firstVerdict object rules.reverse)) :
    ConfinedTo word (firstVerdict object (rules ++ [rule]).reverse) := by
  rw [List.reverse_concat, firstVerdict]
  cases applied : rule.appliesTo object with
  | error fault =>
      obtain ⟨_, reason⟩ := appliesTo_eq_error_iff.mp applied
      exact .inr ⟨_, _, _, congrArg Except.error reason⟩
  | ok answer =>
      cases answer with
      | true => exact .inl (congrArg Except.ok speaks)
      | false => exact earlier applied

/-- A rule that spares an object has a condition. -/
theorem isUnconditional_of_appliesTo [Resource ρ] {rule : Rule ρ} {object : ρ}
    (spared : rule.appliesTo object = .ok false) : rule.guard.isUnconditional = false := by
  rw [← Bool.not_eq_true]
  intro unconditional
  have passes := Guard.decide?_of_isUnconditional object unconditional
  rw [appliesTo_eq_ok_iff, passes] at spared
  cases spared

/-- A type is refused after one more rule if the rule denies, and denies everything or comes after
    rules that refuse the type. -/
theorem outcome_decidesType_concat {rules : List (Rule ρ)} {rule : Rule ρ} :
    outcome decidesType (rules ++ [rule]) = false ↔
      rule.isAllow = false ∧
        (rule.guard.isUnconditional = true ∨ outcome decidesType rules = false) := by
  rw [outcome_concat, decidesType]
  cases rule.isAllow <;> cases rule.guard.isUnconditional <;> simp

/-- Rules that refuse a type permit no object of it. -/
theorem confined_of_outcome [Resource ρ] (object : ρ) {rules : List (Rule ρ)}
    (refused : outcome decidesType rules = false) :
    ConfinedTo false (firstVerdict object rules.reverse) := by
  induction rules using List.reverseRecOn with
  | nil => exact .inl rfl
  | append_singleton rules rule ih =>
      obtain ⟨denies, settled⟩ := outcome_decidesType_concat.mp refused
      apply confined_concat denies
      intro spared
      have conditional := isUnconditional_of_appliesTo spared
      exact ih (settled.resolve_left (by simp [conditional]))

end Rule

namespace Query

variable {rules : List (Rule ρ)} {rule : Rule ρ} {query leaf : Query}

/-- A guard is expressed by the query that always holds exactly where it is unconditional. -/
theorem eq_always_iff_of_query? {guard : Guard ρ} (expressed : guard.query? = some leaf) :
    leaf = .always ↔ guard.isUnconditional = true := by
  rcases Guard.query?_cases expressed with ⟨unconditional, rfl⟩ | ⟨conditional, hasLeaf⟩
  · simp [unconditional]
  · simp only [conditional, Bool.false_eq_true, iff_false]
    exact fun always => hasLeaf.not_constant (.inl always)

/-- No denial leaves everything: its query would have to hold never, and no guard has such
    a query. -/
theorem negate_ne_always_of_query? {guard : Guard ρ} (expressed : guard.query? = some leaf) :
    leaf.negate ≠ .always := by
  rcases Guard.query?_cases expressed with ⟨_, rfl⟩ | ⟨_, hasLeaf⟩
  · simp [negate]
  · simp [hasLeaf.negate_eq]

/-- Rules that refuse a type come to the query that selects nothing. -/
theorem eq_never_of_outcome (folds : Folds rules query)
    (refused : Rule.outcome Rule.decidesType rules = false) : query = .never := by
  induction folds with
  | nil => rfl
  | @concat rules rule query next _ absorbed ih =>
      obtain ⟨denies, settled⟩ := Rule.outcome_decidesType_concat.mp refused
      cases absorbed with
      | grant _ allows => simp [Rule.isAllow_of_allow allows] at denies
      | denial expressed =>
          rw [conjoin_eq_never_iff, negate_eq_never_iff_of_query? expressed]
          exact settled.symm.imp_left ih
      | skippedGrant _ allows => simp [Rule.isAllow_of_allow allows] at denies
      | skippedDenial _ _ nothing => exact nothing

/-- Rules without block grants refuse a type where their query selects nothing by its form. -/
theorem outcome_of_eq_never (folds : Folds rules query)
    (noBlockGrant : ∀ rule ∈ rules, rule.polarity = .allow → rule.guard.isBlock = false)
    (nothing : query = .never) : Rule.outcome Rule.decidesType rules = false := by
  induction folds with
  | nil => rfl
  | @concat rules rule query next _ absorbed ih =>
      have before := ih (fun other member => noBlockGrant other (by simp [member]))
      cases absorbed with
      | grant expressed =>
          obtain ⟨_, leafNever⟩ := disjoin_eq_never_iff.mp nothing
          exact absurd leafNever (ne_never_of_query? expressed)
      | denial expressed denies =>
          rw [conjoin_eq_never_iff, negate_eq_never_iff_of_query? expressed] at nothing
          rw [Rule.outcome_decidesType_concat]
          exact ⟨Rule.isAllow_of_deny denies, nothing.symm.imp_right before⟩
      | skippedGrant block allows =>
          have isOpen := noBlockGrant rule (by simp) allows
          rw [block] at isOpen
          cases isOpen
      | skippedDenial _ denies =>
          rw [Rule.outcome_decidesType_concat]
          exact ⟨Rule.isAllow_of_deny denies, .inr (before nothing)⟩

/-- A step to the query that selects everything is a grant, of everything or after that query. -/
theorem grants_of_absorbs {next : Query} (absorbed : Absorbs query rule next)
    (everything : next = .always) :
    rule.isAllow = true ∧ (rule.guard.isUnconditional = true ∨ query = .always) := by
  cases absorbed with
  | grant expressed allows =>
      have sides := disjoin_eq_always_iff.mp everything
      rw [eq_always_iff_of_query? expressed] at sides
      exact ⟨Rule.isAllow_of_allow allows, sides.symm⟩
  | denial expressed =>
      obtain ⟨_, negated⟩ := conjoin_eq_always_iff.mp everything
      exact absurd negated (negate_ne_always_of_query? expressed)
  | skippedGrant _ allows => exact ⟨Rule.isAllow_of_allow allows, .inr everything⟩
  | skippedDenial _ _ nothing =>
      rw [nothing] at everything
      cases everything

/-- Rules whose query selects everything do not refuse the type. -/
theorem outcome_of_eq_always (folds : Folds rules query) (everything : query = .always) :
    Rule.outcome Rule.decidesType rules = true := by
  cases folds with
  | nil => cases everything
  | concat _ absorbed =>
      obtain ⟨allows, _⟩ := grants_of_absorbs absorbed everything
      simp [Rule.outcome_concat, Rule.decidesType, allows]

/-- Rules whose query selects everything refuse no object. -/
theorem confined_of_eq_always [Resource ρ] (object : ρ) (folds : Folds rules query)
    (everything : query = .always) :
    ConfinedTo true (Rule.firstVerdict object rules.reverse) := by
  induction folds with
  | nil => cases everything
  | @concat rules rule query next _ absorbed ih =>
      obtain ⟨allows, settled⟩ := grants_of_absorbs absorbed everything
      apply Rule.confined_concat allows
      intro spared
      have conditional := Rule.isUnconditional_of_appliesTo spared
      exact ih (settled.resolve_left (by simp [conditional]))

end Query

namespace Policy

/-- A refused type has no permitted object and a query that selects nothing, without joins. A query
    that selects nothing by its form belongs to a refused type, unless a block grants. A query that
    selects everything by its form belongs to a type that is not refused and has no refused
    object. -/
theorem type_verdict_at_extremes [Resource ρ] (policy : Policy ρ) (action subject : String) :
    (policy.canType action subject = false →
      (∀ object : ρ, Resource.subjectType object = subject →
        ConfinedTo false (policy.can action object)) ∧
      ∀ plan, policy.plan action subject = .ok plan →
        plan.query = .never ∧ plan.joins = Joins.empty) ∧
    (∀ plan, policy.plan action subject = .ok plan → plan.query = .never →
      (∀ rule ∈ policy.relevant action subject,
        rule.polarity = .allow → rule.guard.isBlock = false) →
      policy.canType action subject = false) ∧
    ∀ plan, policy.plan action subject = .ok plan → plan.query = .always →
      policy.canType action subject = true ∧
      ∀ object : ρ, Resource.subjectType object = subject →
        ConfinedTo true (policy.can action object) := by
  rw [canType_eq_outcome]
  refine ⟨fun refused => ⟨?_, ?_⟩, ?_, ?_⟩
  · rintro object rfl
    exact Rule.confined_of_outcome object refused
  · intro plan planned
    obtain ⟨folds, joins⟩ := folds_of_plan planned
    have nothing := Query.eq_never_of_outcome folds refused
    refine ⟨nothing, ?_⟩
    rw [joins, nothing]
    rfl
  · intro plan planned nothing noBlockGrant
    obtain ⟨folds, _⟩ := folds_of_plan planned
    exact Query.outcome_of_eq_never folds noBlockGrant nothing
  · intro plan planned everything
    obtain ⟨folds, _⟩ := folds_of_plan planned
    refine ⟨Query.outcome_of_eq_always folds everything, ?_⟩
    rintro object rfl
    exact Query.confined_of_eq_always object folds everything

end Policy

/-!
### A gallery

Viewing is granted on everything, and two more grants follow. Editing is denied on everything after
a grant, and two more denials follow. One of the rules that follow is for a store to decide, so that
a check gives the word for some pictures and cannot tell for the others.
-/

namespace Gallery

def policy : Policy Record where
  rules := [
    Rule.declare .deny ["view"] ["Picture"] (.hash [("hidden", .equals (.boolean true))]),
    Rule.declare .allow ["view"] ["all"] (.hash []),
    Rule.declare .allow ["view"] ["Picture"] (.fragment ⟨"curated", []⟩ none),
    Rule.declare .allow ["view"] ["Picture"] (.hash [("featured", .equals (.boolean true))]),
    Rule.declare .allow ["edit"] ["Picture"] (.hash [("owner", .nested [])]),
    Rule.declare .deny ["edit"] ["all"] .unconditional,
    Rule.declare .deny ["edit"] ["Picture"] (.fragment ⟨"lent", []⟩ none),
    Rule.declare .deny ["edit"] ["Picture"] (.block (fun picture => picture.id == .integer 1))]
  settings := .standard

def portrait : Record := (Record.ofId "Picture" (.integer 1)).set "featured" (.boolean true)

def sketch : Record := (Record.ofId "Picture" (.integer 2)).set "hidden" (.boolean true)

end Gallery

theorem Policy.gallery_extremes :
    (Gallery.policy.canType "edit" "Picture" = false ∧
      Gallery.policy.plan "edit" "Picture" = .ok ⟨.never, Joins.empty⟩ ∧
      (∀ rule ∈ Gallery.policy.relevant "edit" "Picture",
        rule.polarity = .allow → rule.guard.isBlock = false) ∧
      Gallery.policy.can "edit" Gallery.portrait = .ok false ∧
      Gallery.policy.can "edit" Gallery.sketch =
        .error (.unevaluable "edit" "Picture" .fragment) ∧
      ∀ object : Record, Resource.subjectType object = "Picture" →
        ConfinedTo false (Gallery.policy.can "edit" object)) ∧
    Gallery.policy.plan "view" "Picture" = .ok ⟨.always, Joins.empty⟩ ∧
      Gallery.policy.canType "view" "Picture" = true ∧
      Gallery.policy.can "view" Gallery.portrait = .ok true ∧
      Gallery.policy.can "view" Gallery.sketch =
        .error (.unevaluable "view" "Picture" .fragment) ∧
      ∀ object : Record, Resource.subjectType object = "Picture" →
        ConfinedTo true (Gallery.policy.can "view" object) := by
  obtain ⟨atRefusal, atNever, _⟩ := type_verdict_at_extremes Gallery.policy "edit" "Picture"
  obtain ⟨_, _, atAlways⟩ := type_verdict_at_extremes Gallery.policy "view" "Picture"
  have editPlanned : Gallery.policy.plan "edit" "Picture" = .ok ⟨.never, Joins.empty⟩ := rfl
  have viewPlanned : Gallery.policy.plan "view" "Picture" = .ok ⟨.always, Joins.empty⟩ := rfl
  have noBlockGrant : ∀ rule ∈ Gallery.policy.relevant "edit" "Picture",
      rule.polarity = .allow → rule.guard.isBlock = false := by
    have relevant : Gallery.policy.relevant "edit" "Picture" = Gallery.policy.rules.drop 4 := rfl
    rw [relevant]
    simp [Gallery.policy, Rule.declare, Guard.isBlock, Guard.kind]
  have refused := atNever _ editPlanned rfl noBlockGrant
  have granted := atAlways _ viewPlanned rfl
  exact ⟨⟨refused, editPlanned, noBlockGrant, rfl, rfl, (atRefusal refused).1⟩,
    viewPlanned, granted.1, rfl, rfl, granted.2⟩

end Permit
