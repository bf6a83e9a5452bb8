/-
Module: Permit.Proofs.Selection.ExactJoins
Layer: Proofs
Purpose: The joins of a plan are exactly those that its query needs. A listing is therefore never
  refused for a join. What is left to fail is the plan, or a fragment or scope that the store does
  not know.
Main exports: MemoryStore.Lacks, MemoryStore.lacks_of_evaluate, Plan.ExactJoins,
  Policy.planned_joins_exact
-/
import Permit.Proofs.Joins.Merge
import Permit.Proofs.Plan.Absorption
import Permit.Proofs.Selection.Agreement

namespace Permit

namespace MemoryStore

/-- The fault names the fragment or scope of a leaf, and the store does not know it. -/
inductive Lacks (store : MemoryStore) : Query → StoreFault → Prop where
  | fragment {predicate : Fragment} (unknown : store.fragments.get? predicate.text = none) :
      Lacks store (.fragment predicate) (.unknownFragment predicate.text)
  | scope {named : Scope} (unknown : store.scopes.get? named.name = none) :
      Lacks store (.scope named) (.unknownScope named.name)

variable {store : MemoryStore} {record : Record} {query left right : Query} {fault : StoreFault}

/-- A conjunction fails only where one of its sides fails. -/
theorem evaluate_and_eq_error (failed : store.evaluate record (.and left right) = .error fault) :
    store.evaluate record left = .error fault ∨ store.evaluate record right = .error fault := by
  rw [evaluate] at failed
  split at failed
  · next evaluated => exact .inl (evaluated.trans failed)
  · cases failed
  · exact .inr failed

/-- A disjunction fails only where one of its sides fails. -/
theorem evaluate_or_eq_error (failed : store.evaluate record (.or left right) = .error fault) :
    store.evaluate record left = .error fault ∨ store.evaluate record right = .error fault := by
  rw [evaluate] at failed
  split at failed
  · next evaluated => exact .inl (evaluated.trans failed)
  · cases failed
  · exact .inr failed

theorem evaluate_not_eq_error (failed : store.evaluate record (.not query) = .error fault) :
    store.evaluate record query = .error fault := by
  rw [evaluate] at failed
  cases evaluated : store.evaluate record query with
  | ok answer => simp [evaluated, Except.map] at failed
  | error cause => simpa [evaluated, Except.map] using failed

theorem lacks_append {first second : List Query}
    (lacking : (∃ leaf ∈ first, store.Lacks leaf fault) ∨ ∃ leaf ∈ second, store.Lacks leaf fault) :
    ∃ leaf ∈ first ++ second, store.Lacks leaf fault := by
  simpa only [List.mem_append, or_and_right, exists_or] using lacking

/-- Evaluation fails at a leaf that the store does not know, and nowhere else. -/
theorem lacks_of_evaluate (failed : store.evaluate record query = .error fault) :
    ∃ leaf ∈ query.leaves, store.Lacks leaf fault := by
  induction query with
  | always => cases failed
  | never => cases failed
  | not query ih => exact ih (evaluate_not_eq_error failed)
  | and left right leftIh rightIh =>
      apply lacks_append
      exact (evaluate_and_eq_error failed).imp leftIh rightIh
  | or left right leftIh rightIh =>
      apply lacks_append
      exact (evaluate_or_eq_error failed).imp leftIh rightIh
  | hash conditions => cases failed
  | fragment predicate =>
      rw [evaluate] at failed
      split at failed
      · cases failed
      · next unknown =>
          cases failed
          exact ⟨_, List.mem_singleton_self _, .fragment unknown⟩
  | scope named =>
      rw [evaluate] at failed
      split at failed
      · cases failed
      · next unknown =>
          cases failed
          exact ⟨_, List.mem_singleton_self _, .scope unknown⟩

/-- Keeping records fails only at a leaf that the store does not know. -/
theorem lacks_of_keep {records : List Record} (failed : store.keep query records = .error fault) :
    ∃ leaf ∈ query.leaves, store.Lacks leaf fault := by
  induction records with
  | nil => cases failed
  | cons record rest ih =>
      rw [keep] at failed
      cases evaluated : store.evaluate record query with
      | error cause =>
          simp only [evaluated, Except.error.injEq] at failed
          exact lacks_of_evaluate (failed ▸ evaluated)
      | ok selected =>
          apply ih
          cases kept : store.keep query rest with
          | error cause => simpa [evaluated, kept, Except.map] using failed
          | ok records => simp [evaluated, kept, Except.map] at failed

end MemoryStore

/-- The joins of the plan cover each leaf of its query, hold no path that no leaf follows, and hold
    each name once at every level. -/
structure Plan.ExactJoins (plan : Plan) : Prop where
  covers : ∀ leaf ∈ plan.query.hashLeaves, plan.joins.covers leaf = true
  reaches_iff : ∀ path, path ≠ [] →
    (plan.joins.Reaches path ↔ ∃ leaf ∈ plan.query.hashLeaves, leaf.Follows path)
  distinct : plan.joins.Distinct

namespace Policy

/-- Every plan joins what its query needs, once, and nothing else. -/
theorem exactJoins_of_plan {ρ : Type} {policy : Policy ρ} {action subject : String} {plan : Plan}
    (planned : policy.plan action subject = .ok plan) : plan.ExactJoins := by
  obtain ⟨_, joins⟩ := folds_of_plan planned
  constructor
  · intro leaf member
    rw [joins]
    exact Query.joins_cover member
  · intro path nonempty
    rw [joins]
    exact Query.reaches_joins_iff nonempty
  · rw [joins]
    exact Query.distinct_joins plan.query

/-- A listing that fails has no plan, or meets a rule with a fragment or scope that the store does
    not know. -/
theorem fault_of_accessibleBy {policy : Policy Record} {store : MemoryStore}
    {action subject : String} {fault : Fault}
    (failed : policy.accessibleBy store action subject = .error fault) :
    policy.plan action subject = .error fault ∨
      ∃ rule ∈ policy.relevant action subject, ∃ leaf cause,
        rule.guard.HasLeaf leaf ∧ store.Lacks leaf cause ∧ fault = .store cause := by
  cases planned : policy.plan action subject with
  | error cause =>
      simp only [accessibleBy, planned, Except.error.injEq] at failed
      exact .inl (congrArg Except.error failed)
  | ok plan =>
      obtain ⟨folds, _⟩ := folds_of_plan planned
      rw [accessibleBy_eq_keep planned] at failed
      cases kept : store.keep plan.query (store.ofType subject) with
      | ok records => simp [kept, Except.mapError] at failed
      | error cause =>
          simp only [kept, Except.mapError, Except.error.injEq] at failed
          obtain ⟨leaf, member, lacks⟩ := MemoryStore.lacks_of_keep kept
          obtain ⟨rule, relevant, hasLeaf⟩ := Query.exists_rule_of_mem_leaves folds member
          exact .inr ⟨rule, relevant, leaf, cause, hasLeaf, lacks, failed.symm⟩

/-- Plans join exactly what their queries need, and so no listing fails for a missing join: it
    fails as its plan does, or at a fragment or scope of a relevant rule that the store does not
    know. -/
theorem planned_joins_exact (action subject : String) :
    (∀ {ρ : Type} (policy : Policy ρ) (plan : Plan),
      policy.plan action subject = .ok plan → plan.ExactJoins) ∧
    ∀ (policy : Policy Record) (store : MemoryStore) (fault : Fault),
      policy.accessibleBy store action subject = .error fault →
      policy.plan action subject = .error fault ∨
        ∃ rule ∈ policy.relevant action subject, ∃ leaf cause,
          rule.guard.HasLeaf leaf ∧ store.Lacks leaf cause ∧ fault = .store cause := by
  constructor
  · intro ρ policy plan planned
    exact exactJoins_of_plan planned
  · intro policy store fault failed
    exact fault_of_accessibleBy failed

end Policy

/-!
### A syndicate

A grant that a denial of everything absorbs, two rules that share an association, and a fragment
that the store does not know.
-/

namespace Syndicate

def policy : Policy Record where
  rules := [
    Rule.declare .allow ["read"] ["Article"]
      (.hash [("region", .nested [("open", .equals (.boolean true))])]),
    Rule.declare .deny ["manage"] ["all"] .unconditional,
    Rule.declare .allow ["read"] ["Article"]
      (.hash [("owner", .nested [("team", .nested [("active", .equals (.boolean true))])])]),
    Rule.declare .deny ["read"] ["Article"]
      (.hash [("flag", .anyOf [.text "hidden"]), ("owner", .nested [("manager", .nested [])])]),
    Rule.declare .allow ["read"] ["Article"] (.fragment ⟨"featured", []⟩ none)]
  settings := .standard

def plan : Plan where
  query := .or
    (.and
      (.hash [("owner", .nested [("team", .nested [("active", .equals (.boolean true))])])])
      (.not (.hash
        [("flag", .anyOf [.text "hidden"]), ("owner", .nested [("manager", .nested [])])])))
    (.fragment ⟨"featured", []⟩)
  joins := ⟨[("owner", ⟨[("team", ⟨[]⟩), ("manager", ⟨[]⟩)]⟩)]⟩

def store : MemoryStore := MemoryStore.empty.insert (Record.ofId "Article" (.integer 1))

end Syndicate

theorem Policy.syndication_joins_exact :
    Syndicate.policy.plan "read" "Article" = .ok Syndicate.plan ∧
    Syndicate.plan.ExactJoins ∧
    Syndicate.policy.accessibleBy Syndicate.store "read" "Article" =
      .error (.store (.unknownFragment "featured")) ∧
    ∃ rule ∈ Syndicate.policy.relevant "read" "Article", ∃ leaf cause,
      rule.guard.HasLeaf leaf ∧ Syndicate.store.Lacks leaf cause ∧
      Fault.store (.unknownFragment "featured") = .store cause := by
  have planned : Syndicate.policy.plan "read" "Article" = .ok Syndicate.plan := rfl
  have failed : Syndicate.policy.accessibleBy Syndicate.store "read" "Article" =
      .error (.store (.unknownFragment "featured")) := rfl
  refine ⟨planned, (planned_joins_exact _ _).1 _ _ planned, failed, ?_⟩
  rcases (planned_joins_exact _ _).2 _ _ _ failed with refused | blamed
  · rw [planned] at refused
    cases refused
  · exact blamed

end Permit
