/-
Module: Permit.Proofs.Policy.Declaration
Layer: Proofs
Purpose: Policies as they come from declarations, and policies put together. Each rule is expanded
  by itself through the aliases of the settings, and a declared rule is relevant where one of its
  actions reaches the action, or the wildcard, and one of its subjects is the type, or stands for
  every type. Merging is overriding with fallback, where each policy keeps the actions to which its
  own aliases took its rules.
Main exports: Policy.declared, Policy.declared_eq, Policy.relevant_declared,
  Policy.relevant_declared_append, Policy.mem_relevant_declared, Rule.isRelevant_expand_iff,
  Policy.can_merge, Policy.canType_merge, Policy.merge_overrides
-/
import Permit.Proofs.Settings.Reachability
import Permit.Proofs.Verdict.Outcome
import Permit.Record

namespace Permit

variable {ρ : Type}

/-- The policy that comes from declaring rules one after another. -/
def Policy.declared (settings : Settings) (rules : List (Rule ρ)) : Policy ρ :=
  rules.foldl Policy.add (Policy.start settings)

/-- Declaring rules adds the expansion of each of them and keeps the settings. -/
theorem Policy.foldl_add (policy : Policy ρ) (rules : List (Rule ρ)) :
    rules.foldl Policy.add policy =
      ⟨policy.rules ++ rules.map (Rule.expand policy.settings), policy.settings⟩ := by
  induction rules generalizing policy with
  | nil => rw [List.foldl_nil, List.map_nil, List.append_nil]
  | cons rule rest ih =>
      rw [List.foldl_cons, ih]
      simp [Policy.add]

/-- Declaring rules one by one expands the actions of each, and leaves the settings as they are. -/
theorem Policy.declared_eq (settings : Settings) (rules : List (Rule ρ)) :
    Policy.declared settings rules = ⟨rules.map (Rule.expand settings), settings⟩ :=
  Policy.foldl_add (Policy.start settings) rules

/-- The relevant rules of a declared policy are the expanded rules that name the action and the
    subject. -/
theorem Policy.relevant_declared (settings : Settings) (rules : List (Rule ρ))
    (action subject : String) :
    (Policy.declared settings rules).relevant action subject =
      (rules.map (Rule.expand settings)).filter (fun rule => rule.isRelevant action subject) := by
  rw [Policy.declared_eq, Policy.relevant]

/-- What is declared later is relevant after what is declared earlier. -/
theorem Policy.relevant_declared_append (settings : Settings) (first second : List (Rule ρ))
    (action subject : String) :
    (Policy.declared settings (first ++ second)).relevant action subject =
      (Policy.declared settings first).relevant action subject ++
        (Policy.declared settings second).relevant action subject := by
  simp only [relevant_declared, List.map_append, List.filter_append]

theorem Policy.relevant_declared_cons (settings : Settings) (rule : Rule ρ)
    (rules : List (Rule ρ)) (action subject : String) :
    (Policy.declared settings (rule :: rules)).relevant action subject =
      if (rule.expand settings).isRelevant action subject
      then rule.expand settings :: (Policy.declared settings rules).relevant action subject
      else (Policy.declared settings rules).relevant action subject := by
  simp only [relevant_declared, List.map_cons, List.filter_cons]

/-- A relevant rule of a declared policy is the expansion of a rule that was declared. -/
theorem Policy.mem_relevant_declared {settings : Settings} {rules : List (Rule ρ)}
    {action subject : String} {expanded : Rule ρ} :
    expanded ∈ (Policy.declared settings rules).relevant action subject ↔
      (∃ rule ∈ rules, rule.expand settings = expanded) ∧
        expanded.isRelevant action subject = true := by
  rw [relevant_declared, List.mem_filter, List.mem_map]

namespace Rule

variable {rule : Rule ρ} {settings : Settings} {action subject : String}

/-- One action of a declared rule reaches the action through the aliases, or the wildcard, and one
    of its subjects is the subject, or stands for all of them. -/
theorem isRelevant_expand_iff :
    (rule.expand settings).isRelevant action subject = true ↔
      ∃ listed ∈ rule.actions, ∃ named ∈ rule.subjects,
        (Settings.Reaches settings.aliases listed manage ∨
          Settings.Reaches settings.aliases listed action) ∧
        (named = everySubject ∨ named = subject) := by
  have actions : (rule.expand settings).coversAction action = true ↔
      ∃ listed ∈ rule.actions, Settings.Reaches settings.aliases listed manage ∨
        Settings.Reaches settings.aliases listed action := by
    simp only [coversAction, expand, Bool.or_eq_true, List.contains_iff_mem,
      Settings.mem_expandActions, and_or_left, exists_or]
  have subjects : (rule.expand settings).coversSubject subject = true ↔
      ∃ named ∈ rule.subjects, named = everySubject ∨ named = subject := by
    simp [coversSubject, expand, and_or_left, exists_or]
  rw [isRelevant, Bool.and_eq_true, actions, subjects]
  constructor
  · intro ⟨⟨listed, isListed, reached⟩, named, isNamed, covered⟩
    exact ⟨listed, isListed, named, isNamed, reached, covered⟩
  · intro ⟨listed, isListed, named, isNamed, reached, covered⟩
    exact ⟨⟨listed, isListed, reached⟩, named, isNamed, covered⟩

end Rule

/-!
### Merging

The scan over merged policies goes through the rules of the second one first. Where one of them
applies to the object, or cannot be decided, it stops there, and the first policy has no say; where
none does, it is the scan of the first policy.
-/

namespace Policy

/-- The verdict of merged policies is that of the second where one of its rules stops the scan. -/
theorem can_merge [Resource ρ] (policy other : Policy ρ) (action : String) (object : ρ) :
    (policy.merge other).can action object =
      if (other.relevant action (Resource.subjectType object)).any (Rule.stops object)
      then other.can action object else policy.can action object := by
  rw [can, relevant_merge, List.reverse_append, Rule.firstVerdict_append, List.any_reverse, can,
    can]

/-- Merged policies judge a type as the second does where one of its rules decides types. -/
theorem canType_merge (policy other : Policy ρ) (action subject : String) :
    (policy.merge other).canType action subject =
      if (other.relevant action subject).any Rule.decidesType
      then other.canType action subject else policy.canType action subject := by
  rw [canType_eq_outcome, relevant_merge, Rule.outcome_append, ← canType_eq_outcome,
    ← canType_eq_outcome]

/-- Policies may be merged from either end: the rules follow in one order, under the settings of the
    first. -/
theorem merge_assoc (policy other third : Policy ρ) :
    (policy.merge other).merge third = policy.merge (other.merge third) := by
  simp [merge, List.append_assoc]

/-- Nothing is overridden by a policy without rules, whatever its settings. -/
theorem merge_start (policy : Policy ρ) (settings : Settings) :
    policy.merge (start settings) = policy := by
  simp [merge, start]

/-- The second of two merged policies overrides the first, faults included, and the first decides
    where the second has nothing to say. Rules stay as the aliases of their own policy expanded
    them, and the settings are those of the first. -/
theorem merge_overrides [Resource ρ] (policy other : Policy ρ) :
    (∀ action (object : ρ), (policy.merge other).can action object =
      if (other.relevant action (Resource.subjectType object)).any (Rule.stops object)
      then other.can action object else policy.can action object) ∧
    (∀ action subject, (policy.merge other).canType action subject =
      if (other.relevant action subject).any Rule.decidesType
      then other.canType action subject else policy.canType action subject) ∧
    policy.merge other = ⟨policy.rules ++ other.rules, policy.settings⟩ ∧
    (∀ settings otherSettings (rules others : List (Rule ρ)),
      (declared settings rules).merge (declared otherSettings others) =
        ⟨rules.map (Rule.expand settings) ++ others.map (Rule.expand otherSettings), settings⟩) ∧
    (∀ third, (policy.merge other).merge third = policy.merge (other.merge third)) ∧
    policy.merge empty = policy := by
  refine ⟨can_merge policy other, canType_merge policy other, rfl, ?_, merge_assoc policy other,
    merge_start policy _⟩
  intro settings otherSettings rules others
  rw [declared_eq, declared_eq, merge]

end Policy

/-!
### A museum

The alias of the lending desk takes its denial from tours to showing, also where the rules of the
desk come second and the settings are those of the collection.
-/

namespace Museum

def collection : Policy Record := Policy.declared .standard
  [Rule.declare .allow ["read"] ["Exhibit"] .unconditional]

def lending : Policy Record := Policy.declared (Settings.standard.declareAlias "tour" ["show"])
  [Rule.declare .deny ["tour"] ["Exhibit"] (.hash [("lent", .equals (.boolean true))])]

theorem expansions :
    Settings.standard.expandActions ["read"] = ["read", "show", "index"] ∧
    (Settings.standard.declareAlias "tour" ["show"]).expandActions ["tour"] =
      ["tour", "show"] := by
  simp [Settings.expandActions, Settings.expandFrom_cons, Settings.expandFrom, Settings.standard,
    Settings.declareAlias, Settings.addLast, Entries.put, Entries.get?_cons, Entries.erase]

theorem collection_eq :
    collection = ⟨[Rule.declare .allow ["read", "show", "index"] ["Exhibit"] .unconditional],
      .standard⟩ := by
  rw [collection, Policy.declared_eq]
  change Policy.mk [{ Rule.declare .allow ["read"] ["Exhibit"] .unconditional with
    actions := Settings.standard.expandActions ["read"] }] .standard = _
  rw [expansions.1]
  rfl

theorem lending_eq :
    lending = ⟨[Rule.declare .deny ["tour", "show"] ["Exhibit"]
      (.hash [("lent", .equals (.boolean true))])],
      Settings.standard.declareAlias "tour" ["show"]⟩ := by
  rw [lending, Policy.declared_eq]
  change Policy.mk [{ Rule.declare .deny ["tour"] ["Exhibit"] _ with
    actions := (Settings.standard.declareAlias "tour" ["show"]).expandActions ["tour"] }] _ = _
  rw [expansions.2]
  rfl

def vase : Record := (Record.ofId "Exhibit" (.integer 1)).set "lent" (.boolean true)

def coin : Record := Record.ofId "Exhibit" (.integer 2)

end Museum

example :
    (Museum.collection.merge Museum.lending).can "show" Museum.vase = .ok false ∧
    (Museum.collection.merge Museum.lending).can "show" Museum.coin = .ok true ∧
    (Museum.lending.merge Museum.collection).can "show" Museum.vase = .ok true ∧
    (Museum.lending.merge Museum.collection).can "tour" Museum.vase = .ok false := by
  rw [Museum.collection_eq, Museum.lending_eq]
  exact ⟨rfl, rfl, rfl, rfl⟩

end Permit
