/-
Module: Permit.Proofs.Plan.Refusal
Layer: Proofs
Purpose: When there is no plan, and for which of two reasons, read off the relevant rules. A query
  selects nothing by its form exactly where no grant stands, and so the fold over the rules gives up
  at the first block denial that meets a standing grant.
Main exports: Unopposed, unopposed_concat, not_unopposed_iff, Rule.CombinesScope, Rule.Standing,
  Rule.BlockMeetsGrant, Rule.standing_concat, Query.eq_never_iff_of_folds,
  Query.ofRules?_eq_none_iff, Policy.plan_refusal
-/
import Mathlib.Data.List.Basic
import Permit.Proofs.Plan.Absorption

namespace Permit

variable {ρ : Type}

/-!
### Unopposed entries

What an entry of a list says may stand until a later one says otherwise.
-/

section Unopposed

variable {α : Type} {list before after : List α} {last entry : α} {chosen barring : α → Prop}

/-- An entry of a list with one more at the end is that last one or an entry of the list. -/
theorem concat_eq_split (split : list ++ [last] = before ++ entry :: after) :
    (entry = last ∧ before = list ∧ after = []) ∨
      ∃ others, list = before ++ entry :: others ∧ after = others ++ [last] := by
  rcases List.eq_nil_or_concat' after with rfl | ⟨others, final, rfl⟩
  · obtain ⟨rfl, same⟩ := List.append_inj' split rfl
    cases same
    exact .inl ⟨rfl, rfl, rfl⟩
  · have shifted : list ++ [last] = (before ++ entry :: others) ++ [final] := by simpa using split
    obtain ⟨rfl, same⟩ := List.append_inj' shifted rfl
    cases same
    exact .inr ⟨others, rfl, rfl⟩

/-- Some entry is chosen, and none after it bars it. -/
def Unopposed (chosen barring : α → Prop) (list : List α) : Prop :=
  ∃ before entry after, list = before ++ entry :: after ∧ chosen entry ∧
    ∀ later ∈ after, ¬ barring later

theorem not_unopposed_nil : ¬ Unopposed chosen barring [] := by
  rintro ⟨before, entry, after, split, _⟩
  simp at split

/-- One more entry at the end is chosen itself, or leaves things as they are unless it bars. -/
theorem unopposed_concat :
    Unopposed chosen barring (list ++ [last]) ↔
      chosen last ∨ (Unopposed chosen barring list ∧ ¬ barring last) := by
  constructor
  · rintro ⟨before, entry, after, split, picked, spared⟩
    rcases concat_eq_split split with ⟨rfl, _, _⟩ | ⟨others, rfl, rfl⟩
    · exact .inl picked
    · refine .inr ⟨⟨before, entry, others, rfl, picked, ?_⟩, spared last (by simp)⟩
      exact fun later member => spared later (by simp [member])
  · rintro (picked | ⟨⟨before, entry, after, rfl, picked, spared⟩, passes⟩)
    · exact ⟨list, last, [], rfl, picked, by simp⟩
    · refine ⟨before, entry, after ++ [last], by simp, picked, ?_⟩
      intro later member
      rcases List.mem_append.mp member with earlier | final
      · exact spared later earlier
      · rwa [List.mem_singleton.mp final]

/-- No chosen entry is left unopposed where none is chosen, or none from some barring one on. -/
theorem not_unopposed_iff :
    ¬ Unopposed chosen barring list ↔
      (∀ entry ∈ list, ¬ chosen entry) ∨
        ∃ before entry after, list = before ++ entry :: after ∧ barring entry ∧
          ∀ later ∈ entry :: after, ¬ chosen later := by
  induction list using List.reverseRecOn with
  | nil => simp [not_unopposed_nil]
  | append_singleton list last ih =>
      rw [unopposed_concat, not_or, not_and_or, not_not, ih, List.forall_mem_append,
        List.forall_mem_singleton]
      constructor
      · rintro ⟨passed, (nothing | ⟨before, entry, after, rfl, bars, clear⟩) | bars⟩
        · exact .inl ⟨nothing, passed⟩
        · refine .inr ⟨before, entry, after ++ [last], by simp, bars, ?_⟩
          rw [← List.cons_append, List.forall_mem_append, List.forall_mem_singleton]
          exact ⟨clear, passed⟩
        · exact .inr ⟨list, last, [], rfl, bars, List.forall_mem_singleton.mpr passed⟩
      · rintro (⟨nothing, passed⟩ | ⟨before, entry, after, split, bars, clear⟩)
        · exact ⟨passed, .inl (.inl nothing)⟩
        · rcases concat_eq_split split with ⟨rfl, _, rfl⟩ | ⟨others, rfl, rfl⟩
          · exact ⟨clear entry List.mem_cons_self, .inr bars⟩
          · rw [← List.cons_append, List.forall_mem_append, List.forall_mem_singleton] at clear
            exact ⟨clear.2, .inl (.inr ⟨before, entry, others, rfl, bars, clear.1⟩)⟩

end Unopposed

/-- The guard compares attributes, or is a fragment. -/
def Guard.Predicates (guard : Guard ρ) : Prop :=
  (∃ conditions, guard = .hash conditions ∧ conditions ≠ []) ∨
    ∃ predicate fallback, guard = .fragment predicate fallback

namespace Rule

/-- Two scopes, or one scope and a rule with conditions or a fragment. -/
def CombinesScope (rules : List (Rule ρ)) : Prop :=
  2 ≤ rules.countP (fun rule => rule.guard.isScope) ∨
    (rules.countP (fun rule => rule.guard.isScope) = 1 ∧ ∃ rule ∈ rules, rule.guard.Predicates)

/-- The rule denies whatever the object. -/
def DeniesAll (rule : Rule ρ) : Prop :=
  rule.polarity = .deny ∧ rule.guard.isUnconditional = true

/-- A rule that is not a block grants, a block denies later, and no rule in between denies
    everything. -/
def BlockMeetsGrant (rules : List (Rule ρ)) : Prop :=
  ∃ before grant between denial after, rules = before ++ grant :: (between ++ denial :: after) ∧
    (grant.polarity = .allow ∧ grant.guard.isBlock = false) ∧
    (denial.polarity = .deny ∧ denial.guard.isBlock = true) ∧
    ∀ rule ∈ between, ¬ rule.DeniesAll

/-- There are rules and all are blocks, or a block denial meets a grant. -/
def StoppedByBlock (rules : List (Rule ρ)) : Prop :=
  (rules ≠ [] ∧ ∀ rule ∈ rules, rule.guard.isBlock = true) ∨ BlockMeetsGrant rules

/-- Some rule that is not a block grants, and no later rule denies everything. -/
def Standing (rules : List (Rule ρ)) : Prop :=
  ∃ before grant after, rules = before ++ grant :: after ∧
    (grant.polarity = .allow ∧ grant.guard.isBlock = false) ∧ ∀ rule ∈ after, ¬ rule.DeniesAll

/-- A block meets a grant where a denying block stands behind rules of which a grant still
    stands. -/
theorem blockMeetsGrant_iff {rules : List (Rule ρ)} :
    BlockMeetsGrant rules ↔ ∃ before denial after, rules = before ++ denial :: after ∧
      (denial.polarity = .deny ∧ denial.guard.isBlock = true) ∧ Standing before := by
  constructor
  · rintro ⟨before, grant, between, denial, after, rfl, grants, denies, spared⟩
    exact ⟨before ++ grant :: between, denial, after, by simp, denies,
      before, grant, between, rfl, grants, spared⟩
  · rintro ⟨_, denial, after, rfl, denies, before, grant, between, rfl, grants, spared⟩
    exact ⟨before, grant, between, denial, after, by simp, grants, denies, spared⟩

/-- A grant stands after one more rule if it is that rule, or stood before and is not denied. -/
theorem standing_concat {rules : List (Rule ρ)} {rule : Rule ρ} :
    Standing (rules ++ [rule]) ↔
      (rule.polarity = .allow ∧ rule.guard.isBlock = false) ∨
        (Standing rules ∧ ¬ rule.DeniesAll) :=
  unopposed_concat

theorem not_standing_nil : ¬ Standing ([] : List (Rule ρ)) :=
  not_unopposed_nil

/-- The test on the rules decides whether a scope would be combined with anything. -/
theorem mergeScope_iff {rules : List (Rule ρ)} :
    mergeScope rules = true ↔ CombinesScope rules := by
  have predicates : ∀ guard : Guard ρ, guard.isPredicate = true ↔ guard.Predicates := by
    intro guard
    cases guard <;> simp [Guard.isPredicate, Guard.Predicates]
  unfold mergeScope CombinesScope
  generalize rules.countP (fun rule => rule.guard.isScope) = scopes
  rcases scopes with _ | _ | scopes <;> simp [predicates]

end Rule

namespace Query

variable {rules : List (Rule ρ)} {query leaf : Query}

/-- No guard is expressed by the query that never holds. -/
theorem ne_never_of_query? {guard : Guard ρ} (expressed : guard.query? = some leaf) :
    leaf ≠ .never := by
  rcases Guard.query?_cases expressed with ⟨_, rfl⟩ | ⟨_, hasLeaf⟩
  · simp
  · exact fun never => hasLeaf.not_constant (.inr never)

/-- A denial takes everything away exactly where its guard is unconditional. -/
theorem negate_eq_never_iff_of_query? {guard : Guard ρ} (expressed : guard.query? = some leaf) :
    leaf.negate = .never ↔ guard.isUnconditional = true := by
  rcases Guard.query?_cases expressed with ⟨unconditional, rfl⟩ | ⟨conditional, hasLeaf⟩
  · simp [negate, unconditional]
  · simp [hasLeaf.negate_eq, conditional]

/-- The query of rules selects nothing by its form exactly where no grant stands. -/
theorem eq_never_iff_of_folds (folds : Folds rules query) :
    query = .never ↔ ¬ Rule.Standing rules := by
  induction folds with
  | nil => simp [Rule.not_standing_nil]
  | @concat rules rule query next _ absorbed ih =>
      rw [Rule.standing_concat]
      cases absorbed with
      | grant expressed allows =>
          have isOpen := Guard.isBlock_of_query? expressed
          simp [disjoin_eq_never_iff, ne_never_of_query? expressed, allows, isOpen]
      | denial expressed denies =>
          have negated := negate_eq_never_iff_of_query? expressed
          simp [conjoin_eq_never_iff, ih, negated, denies, Rule.DeniesAll, imp_iff_not_or]
      | skippedGrant block allows =>
          simp [ih, block, allows, Rule.DeniesAll]
      | skippedDenial block denies nothing =>
          have nothingStands := ih.mp nothing
          simp [nothing, nothingStands, denies]

/-- Rules come to no query exactly where a block denial meets a standing grant. -/
theorem ofRules?_eq_none_iff : ofRules? rules = none ↔ Rule.BlockMeetsGrant rules := by
  rw [Rule.blockMeetsGrant_iff]
  induction rules using List.reverseRecOn with
  | nil => simp [ofRules?_nil]
  | append_singleton rules rule ih =>
      rw [ofRules?_concat, Option.bind_eq_none_iff]
      constructor
      · intro fails
        cases folded : ofRules? rules with
        | none =>
            obtain ⟨before, denial, after, rfl, denies, stands⟩ := ih.mp folded
            exact ⟨before, denial, after ++ [rule], by simp, denies, stands⟩
        | some query =>
            obtain ⟨denies, block, granted⟩ := absorb?_eq_none_iff.mp (fails query folded)
            have stands := mt (eq_never_iff_of_folds (folds_of_ofRules? folded)).mpr granted
            exact ⟨rules, rule, [], rfl, ⟨denies, block⟩, not_not.mp stands⟩
      · rintro ⟨before, denial, after, split, denies, stands⟩ query folded
        rcases concat_eq_split split with ⟨rfl, rfl, _⟩ | ⟨others, same, _⟩
        · have folds := folds_of_ofRules? folded
          exact absorb?_eq_none_iff.mpr ⟨denies.1, denies.2, fun nothing =>
            (eq_never_iff_of_folds folds).mp nothing stands⟩
        · have fails := ih.mpr ⟨before, denial, others, same, denies, stands⟩
          rw [folded] at fails
          cases fails

/-- A plan is stopped by a block where the rules are blocks only, or where the folding of them
    breaks off. -/
theorem stoppedByBlock_iff :
    Rule.StoppedByBlock rules ↔ Rule.onlyBlocks rules = true ∨ ofRules? rules = none := by
  simp [Rule.StoppedByBlock, Rule.onlyBlocks, ofRules?_eq_none_iff]

end Query

/-- A plan is refused for a scope that would be combined, failing that for a block, and for nothing
    else. -/
theorem Policy.plan_refusal (policy : Policy ρ) (action subject : String) :
    (policy.plan action subject = .error (.scopeMerge action subject) ↔
      Rule.CombinesScope (policy.relevant action subject)) ∧
    (policy.plan action subject = .error (.blockOnly action subject) ↔
      ¬ Rule.CombinesScope (policy.relevant action subject) ∧
        Rule.StoppedByBlock (policy.relevant action subject)) ∧
    ((∃ plan, policy.plan action subject = .ok plan) ↔
      ¬ Rule.CombinesScope (policy.relevant action subject) ∧
        ¬ Rule.StoppedByBlock (policy.relevant action subject)) ∧
    ∀ fault, policy.plan action subject = .error fault →
      fault = .scopeMerge action subject ∨ fault = .blockOnly action subject := by
  rw [← Rule.mergeScope_iff, Query.stoppedByBlock_iff]
  rcases policy.plan_cases action subject with
    ⟨merged, refused⟩ | ⟨apart, blocked, refused⟩ | ⟨apart, mixed, query, folded, planned⟩
  · simp [merged, refused]
  · simp [apart, blocked, refused]
  · simp [apart, mixed, folded, planned]

end Permit
