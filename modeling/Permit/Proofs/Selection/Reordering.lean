/-
Module: Permit.Proofs.Selection.Reordering
Layer: Proofs
Purpose: Which order of the rules counts. Neighbours of one polarity may change places: whichever of
  them applies last, the word is the same. So only the order between grants and denials counts, for
  the judgement of a type, for the verdict on an object and for the listing from a store, although
  the queries of the two policies differ. That a scope would be merged does not depend on any order.
Main exports: Rule.Swaps, Rule.Reordered, Rule.Reordered.outcome_eq, Rule.Reordered.filter,
  Rule.Reordered.perm, Policy.reordering_within_polarities
-/
import Mathlib.Logic.Relation
import Permit.Proofs.Selection.Agreement

namespace Permit

variable {ρ : Type}

namespace Rule

/-- Two neighbours of one polarity change places. -/
inductive Swaps : List (Rule ρ) → List (Rule ρ) → Prop where
  | swap (before : List (Rule ρ)) (first second : Rule ρ) (after : List (Rule ρ))
      (alike : first.polarity = second.polarity) :
      Swaps (before ++ first :: second :: after) (before ++ second :: first :: after)

/-- Neighbours of one polarity change places any number of times. -/
def Reordered : List (Rule ρ) → List (Rule ρ) → Prop := Relation.ReflTransGen Swaps

variable {rules others : List (Rule ρ)}

namespace Swaps

theorem perm (swaps : Swaps rules others) : rules.Perm others := by
  obtain ⟨before, first, second, after, _⟩ := swaps
  exact (List.Perm.swap _ _ after).append_left before

/-- The word of the last rule that applies is that of either neighbour, if one of them applies. -/
theorem outcome_eq (applies : Rule ρ → Bool) (swaps : Swaps rules others) :
    outcome applies rules = outcome applies others := by
  obtain ⟨before, first, second, after, alike⟩ := swaps
  have sameWord : first.isAllow = second.isAllow := congrArg Polarity.isAllow alike
  have settled : outcome applies (before ++ [first] ++ [second]) =
      outcome applies (before ++ [second] ++ [first]) := by
    simp only [outcome_concat, sameWord]
    cases applies first <;> cases applies second <;> rfl
  simpa using outcome_append_congr settled after

/-- Where one of the neighbours is left out, there is nothing left to swap. -/
theorem filter (keep : Rule ρ → Bool) (swaps : Swaps rules others) :
    Reordered (rules.filter keep) (others.filter keep) := by
  obtain ⟨before, first, second, after, alike⟩ := swaps
  simp only [List.filter_append, List.filter_cons]
  cases keep first with
  | false => exact .refl
  | true =>
      cases keep second with
      | false => exact .refl
      | true => exact .single (.swap _ first second _ alike)

end Swaps

namespace Reordered

/-- Reordered lists have the same rules. -/
theorem perm (reordered : Reordered rules others) : rules.Perm others := by
  induction reordered with
  | refl => exact .refl _
  | tail _ swaps ih => exact ih.trans swaps.perm

/-- Under every reading of the rules the word of the last that applies is the same. -/
theorem outcome_eq (applies : Rule ρ → Bool) (reordered : Reordered rules others) :
    outcome applies rules = outcome applies others := by
  induction reordered with
  | refl => rfl
  | tail _ swaps ih => exact ih.trans (swaps.outcome_eq applies)

/-- Rules that are left out are not in the way of the others. -/
theorem filter (keep : Rule ρ → Bool) (reordered : Reordered rules others) :
    Reordered (rules.filter keep) (others.filter keep) := by
  induction reordered with
  | refl => exact .refl
  | tail _ swaps ih => exact ih.trans (swaps.filter keep)

end Reordered

/-- Whether a scope would be merged is a matter of how many rules there are of which kind. -/
theorem mergeScope_of_perm (perm : rules.Perm others) : mergeScope rules = mergeScope others := by
  rw [mergeScope, mergeScope, perm.countP_eq, perm.any_eq]

end Rule

namespace Policy

/-- Policies whose rules differ in the order within runs of one polarity judge types alike, refuse
    a plan for a scope alike, say the same of an object where no relevant rule is opaque, and, where
    both have a plan, list the same records of a store that knows all fragments and scopes. -/
theorem reordering_within_polarities (action subject : String) :
    (∀ {ρ : Type} (policy other : Policy ρ), Rule.Reordered policy.rules other.rules →
      policy.canType action subject = other.canType action subject ∧
      (policy.plan action subject = .error (.scopeMerge action subject) ↔
        other.plan action subject = .error (.scopeMerge action subject))) ∧
    (∀ {ρ : Type} [Resource ρ] (policy other : Policy ρ),
      Rule.Reordered policy.rules other.rules →
      (∀ rule ∈ policy.relevant action subject, rule.guard.isOpaque = false) →
      ∀ object : ρ, Resource.subjectType object = subject →
        policy.can action object = other.can action object) ∧
    ∀ (policy other : Policy Record) (store : MemoryStore) (plan otherPlan : Plan),
      Rule.Reordered policy.rules other.rules →
      (∀ rule ∈ policy.relevant action subject, store.Registers rule.guard) →
      policy.plan action subject = .ok plan → other.plan action subject = .ok otherPlan →
      ∃ listed, policy.accessibleBy store action subject = .ok listed ∧
        other.accessibleBy store action subject = .ok listed := by
  -- irrelevant rules may stand between relevant ones, and may be swapped with them
  have relevant : ∀ {ρ : Type} {policy other : Policy ρ},
      Rule.Reordered policy.rules other.rules →
      Rule.Reordered (policy.relevant action subject) (other.relevant action subject) :=
    fun reordered => reordered.filter _
  refine ⟨?_, ?_, ?_⟩
  · intro ρ policy other reordered
    rw [canType_eq_outcome, canType_eq_outcome, plan_eq_scopeMerge_iff, plan_eq_scopeMerge_iff,
      Rule.mergeScope_of_perm (relevant reordered).perm]
    exact ⟨(relevant reordered).outcome_eq _, Iff.rfl⟩
  · intro ρ _ policy other reordered clear object type
    have otherClear := fun rule member =>
      clear rule ((relevant reordered).perm.mem_iff.mpr member)
    rw [can_eq_outcome clear type, can_eq_outcome otherClear type,
      (relevant reordered).outcome_eq]
  · intro policy other store plan otherPlan reordered registered planned otherPlanned
    have otherRegistered := fun rule member =>
      registered rule ((relevant reordered).perm.mem_iff.mpr member)
    refine ⟨_, accessibleBy_eq_outcome planned registered, ?_⟩
    rw [accessibleBy_eq_outcome otherPlanned otherRegistered]
    simp only [(relevant reordered).outcome_eq]

end Policy

/-!
### A magazine

The denial of drafts moves in front of a block denial, and the two grants change places. The queries
differ in the order of their sides.
-/

namespace Magazine

def issueDenial : Rule Record :=
  Rule.declare .deny ["read"] ["Article"] (.block (fun article => article.id == .integer 3))

def draftDenial : Rule Record :=
  Rule.declare .deny ["read"] ["Article"] (.hash [("draft", .equals (.boolean true))])

def featuredGrant : Rule Record :=
  Rule.declare .allow ["read"] ["Article"] (.fragment ⟨"featured", []⟩
    (some (fun article => Resource.attr article "featured" == .boolean true)))

def ownerGrant : Rule Record :=
  Rule.declare .allow ["read"] ["all"]
    (.hash [("owner", .nested [("active", .equals (.boolean true))])])

def hiddenDenial : Rule Record :=
  Rule.declare .deny ["manage"] ["all"] (.hash [("hidden", .equals (.boolean true))])

def policy : Policy Record where
  rules := [issueDenial, draftDenial, featuredGrant, ownerGrant, hiddenDenial]
  settings := .standard

def reordered : Policy Record where
  rules := [draftDenial, issueDenial, ownerGrant, featuredGrant, hiddenDenial]
  settings := .standard

theorem rules_reordered : Rule.Reordered policy.rules reordered.rules :=
  (Relation.ReflTransGen.single
    (.swap [] issueDenial draftDenial [featuredGrant, ownerGrant, hiddenDenial] rfl)).tail
    (.swap [draftDenial, issueDenial] featuredGrant ownerGrant [hiddenDenial] rfl)

def featuredArticle : Record :=
  (Record.ofId "Article" (.integer 1)).set "featured" (.boolean true)

def hiddenArticle : Record :=
  ((Record.ofId "Article" (.integer 2)).set "featured" (.boolean true)).set "hidden" (.boolean true)

def stand : MemoryStore where
  records := [hiddenArticle, featuredArticle]
  fragments := [("featured", fun article _ => Resource.attr article "featured" == .boolean true)]
  scopes := []

def featured : Query := .fragment ⟨"featured", []⟩

def owned : Query := .hash [("owner", .nested [("active", .equals (.boolean true))])]

def hidden : Query := .hash [("hidden", .equals (.boolean true))]

def joins : Joins := ⟨[("owner", ⟨[]⟩)]⟩

end Magazine

theorem Policy.magazine_reordered :
    (∀ rule ∈ Magazine.policy.relevant "read" "Article",
      rule.guard.isOpaque = false ∧ Magazine.stand.Registers rule.guard) ∧
    Magazine.policy.plan "read" "Article" =
      .ok ⟨.and (.or Magazine.featured Magazine.owned) (.not Magazine.hidden), Magazine.joins⟩ ∧
    Magazine.reordered.plan "read" "Article" =
      .ok ⟨.and (.or Magazine.owned Magazine.featured) (.not Magazine.hidden), Magazine.joins⟩ ∧
    (Magazine.policy.canType "read" "Article" = true ∧
      Magazine.reordered.canType "read" "Article" = true) ∧
    (Magazine.policy.can "read" Magazine.hiddenArticle = .ok false ∧
      Magazine.reordered.can "read" Magazine.hiddenArticle = .ok false) ∧
    (Magazine.policy.can "read" Magazine.featuredArticle = .ok true ∧
      Magazine.reordered.can "read" Magazine.featuredArticle = .ok true) ∧
    Magazine.policy.accessibleBy Magazine.stand "read" "Article" =
      .ok [Magazine.featuredArticle] ∧
    Magazine.reordered.accessibleBy Magazine.stand "read" "Article" =
      .ok [Magazine.featuredArticle] := by
  have decides : ∀ rule ∈ Magazine.policy.relevant "read" "Article",
      rule.guard.isOpaque = false ∧ Magazine.stand.Registers rule.guard := by
    have relevant : Magazine.policy.relevant "read" "Article" = Magazine.policy.rules := rfl
    rw [relevant]
    intro rule member
    simp only [Magazine.policy, List.mem_cons, List.not_mem_nil, or_false] at member
    rcases member with rfl | rfl | rfl | rfl | rfl <;> exact ⟨rfl, by trivial⟩
  obtain ⟨types, objects, listings⟩ := reordering_within_polarities "read" "Article"
  have sameType := (types _ _ Magazine.rules_reordered).1
  have sameVerdict := objects _ _ Magazine.rules_reordered
    (fun rule member => (decides rule member).1)
  obtain ⟨listed, here, there⟩ := listings _ _ Magazine.stand _ _ Magazine.rules_reordered
    (fun rule member => (decides rule member).2) rfl rfl
  cases here
  exact ⟨decides, rfl, rfl, ⟨rfl, sameType.symm⟩, ⟨rfl, (sameVerdict _ rfl).symm⟩,
    ⟨rfl, (sameVerdict _ rfl).symm⟩, rfl, there⟩

end Permit
