/-
Module: Permit.Proofs.Plan.Repetition
Layer: Proofs
Purpose: Copies of a rule in the query of a plan. Absorbing a guard once more adds its leaf once
  more, and so the queries differ, but only where neither is a constant, and not in their joins: the
  joins of the leaf are there already. Later rules cannot tell such queries apart. So there is a
  plan with copies where there is one without, and the two join the same.
Main exports: Polarity.adjust, Query.Alike, Query.Alike.absorb?, Query.absorb?_again,
  Query.rel_ofRules?, Policy.plan_of_multiplies
-/
import Permit.Proofs.Joins.Algebra
import Permit.Proofs.Plan.Shadowing
import Permit.Proofs.Policy.Repetition

namespace Permit

variable {ρ : Type}

/-- What a rule of the polarity makes of the query of the rules before it, if its guard stands for
    the leaf. -/
def Polarity.adjust : Polarity → Query → Query → Query
  | .allow, query, leaf => query.disjoin leaf
  | .deny, query, leaf => query.conjoin leaf.negate

theorem Polarity.isConstant_constant (polarity : Polarity) : polarity.constant.IsConstant := by
  cases polarity with
  | allow => exact .inl rfl
  | deny => exact .inr rfl

/-- An unconditional rule leaves nothing of the query before it. -/
theorem Polarity.adjust_always (polarity : Polarity) (query : Query) :
    polarity.adjust query .always = polarity.constant := by
  cases polarity with
  | allow => exact Query.disjoin_always query
  | deny => exact Query.conjoin_never query

/-- What is granted or denied altogether is not changed by a further rule of that polarity. -/
theorem Polarity.adjust_constant (polarity : Polarity) (leaf : Query) :
    polarity.adjust polarity.constant leaf = polarity.constant := by
  cases polarity <;> rfl

namespace Query

variable {query other next leaf : Query} {guard : Guard ρ} {rule copy : Rule ρ}

/-- A leaf leaves the constant of the polarity alone, and otherwise stands last in the result. -/
theorem adjust_cases (polarity : Polarity) (query : Query) (hasLeaf : guard.HasLeaf leaf) :
    (query = polarity.constant ∧ polarity.adjust query leaf = polarity.constant) ∨
      (¬ (polarity.adjust query leaf).IsConstant ∧
        (polarity.adjust query leaf).hashLeaves = query.hashLeaves ++ leaf.hashLeaves) := by
  have leafOpen := hasLeaf.not_constant
  cases polarity with
  | allow =>
      rw [Polarity.adjust, Polarity.constant]
      rcases disjoin_cases query leaf with
        ⟨always | always, joined⟩ | ⟨rfl, joined⟩ | ⟨never, _⟩ | ⟨_, _, joined⟩
      · exact .inl ⟨always, joined⟩
      · exact absurd (.inl always) leafOpen
      · exact .inr ⟨by rwa [joined], by rw [joined]; rfl⟩
      · exact absurd (.inr never) leafOpen
      · exact .inr ⟨by simp [joined, IsConstant], congrArg hashLeaves joined⟩
  | deny =>
      rw [Polarity.adjust, Polarity.constant, hasLeaf.negate_eq]
      rcases conjoin_cases query (.not leaf) with
        ⟨never | never, joined⟩ | ⟨rfl, joined⟩ | ⟨always, _⟩ | ⟨_, _, joined⟩
      · exact .inl ⟨never, joined⟩
      · cases never
      · exact .inr ⟨by simp [joined, IsConstant], by rw [joined]; rfl⟩
      · cases always
      · exact .inr ⟨by simp [joined, IsConstant], congrArg hashLeaves joined⟩

/-- A rule with a query is absorbed by joining it on or by taking it off, as its polarity has it. -/
theorem absorb?_of_query? (expressed : rule.guard.query? = some leaf) (query : Query) :
    query.absorb? rule = some (rule.polarity.adjust query leaf) := by
  cases polarity : rule.polarity <;> simp [absorb?, expressed, polarity, Polarity.adjust]

/-!
### Joins
-/

/-- Conditions at the end of a query are joined last. -/
theorem joins_of_hashLeaves_append
    (leaves : next.hashLeaves = query.hashLeaves ++ leaf.hashLeaves) :
    next.joins = query.joins.mergeLeaves leaf.hashLeaves := by
  rw [joins_eq_mergeLeaves, joins_eq_mergeLeaves, leaves]
  exact List.foldl_append

/-- Conditions at the end of a query that stand in it before are not joined again. -/
theorem joins_of_hashLeaves_repeated
    (leaves : next.hashLeaves = query.hashLeaves ++ leaf.hashLeaves)
    (repeated : leaf.hashLeaves ⊆ query.hashLeaves) : next.joins = query.joins := by
  rw [joins_of_hashLeaves_append leaves]
  apply Joins.mergeLeaves_eq_self (distinct_joins query)
  exact fun _ member => joins_cover (repeated member)

/-!
### Queries that rules cannot tell apart
-/

/-- The same query, or two queries with the same joins that are not constants. -/
inductive Alike : Query → Query → Prop where
  | refl (query : Query) : Alike query query
  | undecided {query other : Query} (queryOpen : ¬ query.IsConstant)
      (otherOpen : ¬ other.IsConstant) (joined : query.joins = other.joins) : Alike query other

namespace Alike

/-- Alike queries ask for the same associations: a repeated leaf asks for what was asked for. -/
theorem joins_eq (alike : Alike query other) : query.joins = other.joins := by
  cases alike with
  | refl => rfl
  | undecided _ _ joined => exact joined

/-- Alike queries are empty together, so that a block meets a grant in both of them or
    in neither. -/
theorem isNever_eq (alike : Alike query other) : query.isNever = other.isNever := by
  cases alike with
  | refl => rfl
  | undecided queryOpen otherOpen _ =>
      have left : query.isNever ≠ true := fun never => queryOpen (.inr (isNever_iff.mp never))
      have right : other.isNever ≠ true := fun never => otherOpen (.inr (isNever_iff.mp never))
      rw [Bool.eq_false_of_not_eq_true left, Bool.eq_false_of_not_eq_true right]

/-- Leaves may be repeated in several steps. -/
theorem trans (first : Alike query other) (second : Alike other next) : Alike query next := by
  cases first with
  | refl => exact second
  | undecided queryOpen otherOpen joined =>
      cases second with
      | refl => exact .undecided queryOpen otherOpen joined
      | undecided _ nextOpen again => exact .undecided queryOpen nextOpen (joined.trans again)

/-- A rule that is absorbed into alike queries leaves them alike. -/
theorem adjust (alike : Alike query other) (polarity : Polarity) (hasLeaf : guard.HasLeaf leaf) :
    Alike (polarity.adjust query leaf) (polarity.adjust other leaf) := by
  cases alike with
  | refl => exact .refl _
  | undecided queryOpen otherOpen joined =>
      have constant := polarity.isConstant_constant
      rcases adjust_cases polarity query hasLeaf with ⟨rfl, _⟩ | ⟨nextOpen, leaves⟩
      · exact absurd constant queryOpen
      · rcases adjust_cases polarity other hasLeaf with ⟨rfl, _⟩ | ⟨lastOpen, lastLeaves⟩
        · exact absurd constant otherOpen
        · apply undecided nextOpen lastOpen
          rw [joins_of_hashLeaves_append leaves, joins_of_hashLeaves_append lastLeaves, joined]

/-- One more rule takes alike queries to alike ones, or fails on both. -/
theorem absorb? (alike : Alike query other) (rule : Rule ρ) :
    Option.Rel Alike (query.absorb? rule) (other.absorb? rule) := by
  cases expressed : rule.guard.query? with
  | some leaf =>
      rw [absorb?_of_query? expressed, absorb?_of_query? expressed]
      rcases Guard.query?_cases expressed with ⟨_, rfl⟩ | ⟨_, hasLeaf⟩
      · rw [Polarity.adjust_always, Polarity.adjust_always]
        exact .some (.refl _)
      · exact .some (alike.adjust rule.polarity hasLeaf)
  | none =>
      cases polarity : rule.polarity with
      | allow =>
          simp only [Query.absorb?, expressed, polarity]
          exact .some alike
      | deny =>
          simp only [Query.absorb?, expressed, polarity, alike.isNever_eq]
          split
          · exact .some alike
          · exact .none

end Alike

/-!
### Repeated steps
-/

/-- A query cannot tell a copy of a rule from the rule. -/
theorem absorb?_of_repeats (repeats : copy.Repeats rule) (query : Query) :
    query.absorb? copy = query.absorb? rule := by
  rw [absorb?, absorb?, repeats.guard, repeats.polarity]

/-- A rule that is absorbed twice in succession adds its leaf once more, and nothing else. -/
theorem alike_adjust_again (polarity : Polarity) (query : Query) (hasLeaf : guard.HasLeaf leaf) :
    Alike (polarity.adjust query leaf) (polarity.adjust (polarity.adjust query leaf) leaf) := by
  rcases adjust_cases polarity query hasLeaf with ⟨_, settled⟩ | ⟨nextOpen, leaves⟩
  · rw [settled, Polarity.adjust_constant]
    exact .refl _
  · rcases adjust_cases polarity (polarity.adjust query leaf) hasLeaf with
      ⟨settled, _⟩ | ⟨againOpen, againLeaves⟩
    · exact absurd (settled ▸ polarity.isConstant_constant) nextOpen
    · apply Alike.undecided nextOpen againOpen
      apply (joins_of_hashLeaves_repeated againLeaves _).symm
      rw [leaves]
      exact List.subset_append_right _ _

/-- What absorbed a rule absorbs it once more, and comes to a query like itself. -/
theorem absorb?_again (absorbed : query.absorb? rule = some next) :
    ∃ again, next.absorb? rule = some again ∧ Alike next again := by
  cases expressed : rule.guard.query? with
  | some leaf =>
      rw [absorb?_of_query? expressed, Option.some.injEq] at absorbed
      refine ⟨_, absorb?_of_query? expressed next, ?_⟩
      rw [← absorbed]
      rcases Guard.query?_cases expressed with ⟨_, rfl⟩ | ⟨_, hasLeaf⟩
      · rw [Polarity.adjust_always, Polarity.adjust_always]
        exact .refl _
      · exact alike_adjust_again rule.polarity query hasLeaf
  | none =>
      have unchanged : query = next := by
        cases absorbs_of_absorb? absorbed with
        | grant some => cases expressed.symm.trans some
        | denial some => cases expressed.symm.trans some
        | skippedGrant => rfl
        | skippedDenial => rfl
      exact ⟨next, unchanged ▸ absorbed, .refl next⟩

/-- Folds that start alike and go on alike end alike, or both break off. -/
theorem rel_bind {first second : Option Query} {onward otherOnward : Query → Option Query}
    (related : Option.Rel Alike first second)
    (step : ∀ query other, Alike query other →
      Option.Rel Alike (onward query) (otherOnward other)) :
    Option.Rel Alike (first.bind onward) (second.bind otherOnward) := by
  cases related with
  | none => exact .none
  | some alike => exact step _ _ alike

/-- Rules take alike queries to alike ones, or fail on both. -/
theorem rel_foldlM (alike : Alike query other) (rules : List (Rule ρ)) :
    Option.Rel Alike (rules.foldlM absorb? query) (rules.foldlM absorb? other) := by
  induction rules generalizing query other with
  | nil => exact .some alike
  | cons rule rest ih => exact rel_bind (alike.absorb? rule) fun _ _ onward => ih onward

/-- Copies of a rule that was absorbed leave a query like the one with the rule. -/
theorem rel_foldlM_copies {copies : List (Rule ρ)} (absorbed : query.absorb? rule = some next)
    (repeated : ∀ copy ∈ copies, copy.Repeats rule) (alike : Alike next other) :
    Option.Rel Alike (some next) (copies.foldlM absorb? other) := by
  induction copies generalizing other with
  | nil => exact .some alike
  | cons copy rest ih =>
      obtain ⟨again, absorbedAgain, alikeAgain⟩ := absorb?_again absorbed
      have step := alike.absorb? rule
      rw [absorbedAgain] at step
      rw [List.foldlM_cons, absorb?_of_repeats (repeated copy List.mem_cons_self)]
      generalize other.absorb? rule = last at step
      cases step with
      | some onward =>
          apply ih (fun other member => repeated other (List.mem_cons_of_mem _ member))
          exact alikeAgain.trans onward

/-- Absorbing copies of a rule, one or several, is like absorbing the rule. -/
theorem rel_copies {one : Rule ρ} {copies : List (Rule ρ)} (single : one.Repeats rule)
    (several : copies ≠ []) (repeated : ∀ copy ∈ copies, copy.Repeats rule) (query : Query) :
    Option.Rel Alike (query.absorb? one) (copies.foldlM absorb? query) := by
  cases copies with
  | nil => exact absurd rfl several
  | cons first later =>
      rw [List.foldlM_cons, absorb?_of_repeats single,
        absorb?_of_repeats (repeated first List.mem_cons_self)]
      cases absorbed : query.absorb? rule with
      | none => exact .none
      | some next =>
          apply rel_foldlM_copies absorbed _ (.refl next)
          exact fun other member => repeated other (List.mem_cons_of_mem _ member)

/-- Rules with copies come to a query like that of the rules without, or to none as they do. -/
theorem rel_ofRules? {rules others : List (Rule ρ)} (multiplies : rule.Multiplies rules others) :
    Option.Rel Alike (ofRules? rules) (ofRules? others) := by
  cases multiplies with
  | absent => exact rel_foldlM (.refl .never) rules
  | @present before after one copies single several repeated =>
      simp only [ofRules?, List.foldlM_append, List.foldlM_cons]
      cases before.foldlM absorb? .never with
      | none => exact .none
      | some query =>
          change Option.Rel Alike ((query.absorb? one).bind (after.foldlM absorb?))
            ((copies.foldlM absorb? query).bind (after.foldlM absorb?))
          apply rel_bind (rel_copies single several repeated query)
          exact fun _ _ alike => rel_foldlM alike after

end Query

/-- Policies that differ in copies of a relevant rule that is not a scope are refused a plan for the
    same reason, or have plans with the same joins. -/
theorem Policy.plan_of_multiplies {policy other : Policy ρ} {rule : Rule ρ}
    {action subject : String}
    (multiplies : rule.Multiplies (policy.relevant action subject) (other.relevant action subject))
    (noScope : rule.guard.isScope = false) :
    (∃ fault, policy.plan action subject = .error fault ∧
      other.plan action subject = .error fault) ∨
    ∃ plan otherPlan, policy.plan action subject = .ok plan ∧
      other.plan action subject = .ok otherPlan ∧ plan.joins = otherPlan.joins := by
  have folded := Query.rel_ofRules? multiplies
  simp only [plan, ← multiplies.mergeScope_eq noScope, ← multiplies.onlyBlocks_eq]
  generalize Query.ofRules? (policy.relevant action subject) = query at folded
  generalize Query.ofRules? (other.relevant action subject) = otherQuery at folded
  split
  · exact .inl ⟨_, rfl, rfl⟩
  · split
    · exact .inl ⟨_, rfl, rfl⟩
    · cases folded with
      | none => exact .inl ⟨_, rfl, rfl⟩
      | some alike => exact .inr ⟨_, _, rfl, rfl, alike.joins_eq⟩

end Permit
