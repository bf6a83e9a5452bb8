/-
Module: Permit.Policy
Layer: Engine
Purpose: The rules of one actor in the order in which they were declared, and what follows from
  them: verdicts on single objects and on subject types, the query that selects the objects on which
  an action is permitted, and the ways to objects through a store. A rule is expanded through the
  policy's aliases when it is added. Later rules take precedence over earlier ones, so merging two
  policies lets the second override the first.
Main exports: Policy, Policy.add, Policy.allow, Policy.deny, Policy.merge, Policy.relevant,
  Policy.attributesFor, Rule.firstVerdict, Policy.can, Policy.cannot, Policy.canType,
  Policy.authorize, Plan, Query.absorb?, Query.ofRules?, Rule.mergeScope, Rule.onlyBlocks,
  Policy.plan, Store, Policy.accessibleBy, Policy.load
-/
import Permit.Rule

namespace Permit

variable {ρ : Type}

/-- What one actor may do: rules in order of declaration, and the settings they share. -/
structure Policy (ρ : Type) where
  rules : List (Rule ρ)
  settings : Settings

namespace Policy

/-- A policy without rules. -/
def start (settings : Settings) : Policy ρ := ⟨[], settings⟩

/-- A policy without rules under the standard settings. It permits nothing. -/
def empty : Policy ρ := start Settings.standard

/-- Declare one more rule, with its actions expanded through the policy's aliases. -/
def add (policy : Policy ρ) (rule : Rule ρ) : Policy ρ :=
  { policy with rules := policy.rules ++ [rule.expand policy.settings] }

/-- Grant the actions on the subjects. -/
def allow (policy : Policy ρ) (actions subjects : List String) (guard : Guard ρ) : Policy ρ :=
  policy.add (Rule.declare .allow actions subjects guard)

/-- Deny the actions on the subjects. -/
def deny (policy : Policy ρ) (actions subjects : List String) (guard : Guard ρ) : Policy ρ :=
  policy.add (Rule.declare .deny actions subjects guard)

/-- These rules followed by the other's, as they are, under these settings. -/
def merge (policy other : Policy ρ) : Policy ρ :=
  { policy with rules := policy.rules ++ other.rules }

/-- The rules about an action on a subject type, in order of declaration. -/
def relevant (policy : Policy ρ) (action subject : String) : List (Rule ρ) :=
  policy.rules.filter (fun rule => rule.isRelevant action subject)

/-- The attribute values that the equalities of relevant grants ask of a new object. A later grant
    overrides an earlier one. -/
def attributesFor (policy : Policy ρ) (action subject : String) : Entries Value :=
  Entries.ofList (((policy.relevant action subject).filter Rule.isAllow).flatMap Rule.attributes)

/-- What is relevant to merged policies is relevant to one of them, the second after the first. -/
theorem relevant_merge (policy other : Policy ρ) (action subject : String) :
    (policy.merge other).relevant action subject =
      policy.relevant action subject ++ other.relevant action subject :=
  List.filter_append _ _

end Policy

/-!
### Verdicts

Rules are tried from the last to the first, and the first that applies decides. Where none applies
the answer is no.
-/

section Verdicts

variable [Resource ρ]

/-- The verdict of the first rule in a list that applies to the object. A rule that cannot be
    decided before that is a fault. -/
def Rule.firstVerdict (object : ρ) : List (Rule ρ) → Except Fault Bool
  | [] => .ok false
  | rule :: rest =>
      match rule.appliesTo object with
      | .error fault => .error fault
      | .ok true => .ok rule.isAllow
      | .ok false => Rule.firstVerdict object rest

/-- Further rules are tried only where the first list holds no rule that applies. -/
theorem Rule.firstVerdict_append_of_none (object : ρ) {first : List (Rule ρ)}
    (rest : List (Rule ρ)) (skip : ∀ rule ∈ first, rule.appliesTo object = .ok false) :
    Rule.firstVerdict object (first ++ rest) = Rule.firstVerdict object rest := by
  induction first with
  | nil => rfl
  | cons rule others ih =>
      have skipped := skip rule List.mem_cons_self
      have tail := ih (fun other member => skip other (List.mem_cons_of_mem _ member))
      rw [List.cons_append, Rule.firstVerdict, skipped]
      exact tail

namespace Policy

/-- Whether the action is permitted on the object. -/
def can (policy : Policy ρ) (action : String) (object : ρ) : Except Fault Bool :=
  Rule.firstVerdict object (policy.relevant action (Resource.subjectType object)).reverse

/-- Whether the action is not permitted on the object. -/
def cannot (policy : Policy ρ) (action : String) (object : ρ) : Except Fault Bool :=
  (policy.can action object).map Bool.not

omit [Resource ρ] in
/-- Whether the action may be permitted on some object of the type. -/
def canType (policy : Policy ρ) (action subject : String) : Bool :=
  ((policy.relevant action subject).reverse.find? Rule.decidesType).any Rule.isAllow

/-- A denial as a fault that carries the message of the settings. -/
def authorize (policy : Policy ρ) (action : String) (object : ρ) : Except Fault Unit :=
  match policy.can action object with
  | .error fault => .error fault
  | .ok true => .ok ()
  | .ok false =>
      .error (.denied action (Resource.subjectType object) policy.settings.unauthorizedMessage)

end Policy

end Verdicts

/-!
### Plans

Rules contribute in order of declaration: a grant adds its objects, a denial takes its objects away.
A scope is never combined with other predicates. A block cannot be part of a query: leaving out a
grant only narrows the query, and leaving out a denial is sound only while nothing is granted.
-/

/-- A query over objects of one type, and the associations a store joins to run it. -/
structure Plan where
  query : Query
  joins : Joins
deriving Repr

/-- The query after one more rule, or `none` at a block denial once something is granted. -/
def Query.absorb? (query : Query) (rule : Rule ρ) : Option Query :=
  match rule.guard.query?, rule.polarity with
  | some leaf, .allow => some (query.disjoin leaf)
  | some leaf, .deny => some (query.conjoin leaf.negate)
  | none, .allow => some query
  | none, .deny => if query.isNever then some query else none

/-- The query of rules in order of declaration, starting from no objects at all. -/
def Query.ofRules? (rules : List (Rule ρ)) : Option Query :=
  rules.foldlM Query.absorb? Query.never

/-- The rules would combine a scope with another scope, with conditions or with a fragment. -/
def Rule.mergeScope (rules : List (Rule ρ)) : Bool :=
  match rules.countP (fun rule => rule.guard.isScope) with
  | 0 => false
  | 1 => rules.any (fun rule => rule.guard.isPredicate)
  | _ => true

/-- There are rules, and each is a block. -/
def Rule.onlyBlocks (rules : List (Rule ρ)) : Bool :=
  !rules.isEmpty && rules.all (fun rule => rule.guard.isBlock)

/-- The plan for an action on a subject type. -/
def Policy.plan (policy : Policy ρ) (action subject : String) : Except Fault Plan :=
  let rules := policy.relevant action subject
  if Rule.mergeScope rules then .error (.scopeMerge action subject)
  else if Rule.onlyBlocks rules then .error (.blockOnly action subject)
  else match Query.ofRules? rules with
    | none => .error (.blockOnly action subject)
    | some query => .ok ⟨query, query.joins⟩

/-!
### Objects from a store

The engine lists all objects that an action is permitted on, and loads one by its identifier.
-/

/-- A store of objects that can look one up and run queries. -/
class Store (σ : Type) (ρ : outParam Type) where
  /-- The object of a subject type with an identifier, if there is one. -/
  find : σ → String → Value → Except Fault (Option ρ)
  /-- The objects of a subject type that a query selects, with joins for what it follows. -/
  select : σ → String → Query → Joins → Except Fault (List ρ)

namespace Policy

variable {σ ρ : Type} [Store σ ρ]

/-- Every object of the type on which the action is permitted. -/
def accessibleBy (policy : Policy ρ) (store : σ) (action subject : String) :
    Except Fault (List ρ) :=
  match policy.plan action subject with
  | .error fault => .error fault
  | .ok plan => Store.select store subject plan.query plan.joins

/-- The object with the identifier, if there is one and the action is permitted on it. -/
def load [Resource ρ] (policy : Policy ρ) (store : σ) (action subject : String) (id : Value) :
    Except Fault ρ :=
  match Store.find store subject id with
  | .error fault => .error fault
  | .ok none => .error (.notFound subject id.display)
  | .ok (some object) =>
      match policy.authorize action object with
      | .error fault => .error fault
      | .ok () => .ok object

end Policy

end Permit
