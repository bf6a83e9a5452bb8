/-
Module: Permit.Rule
Layer: Data
Purpose: One declared grant or denial of actions on subject types under a guard, and what can go
  wrong while permissions are checked, queries planned or objects loaded. The first action and
  subject are remembered as the pair the rule was declared for, whatever expansion adds later.
Main exports: GuardKind, Guard, Guard.decide?, Guard.query?, StoreFault, Fault, Fault.message,
  Polarity, Rule, Rule.declare, Rule.expand, Rule.isRelevant, Rule.appliesTo, Rule.decidesType,
  Rule.attributes
-/
import Permit.Query
import Permit.Settings

namespace Permit

/-!
### Guards

Conditions work on both sides. Fragments and scopes are for a store to decide, and may bring a
predicate to decide single objects with. A block is a predicate over objects, and no store can run
it.
-/

/-- The kinds of guards. -/
inductive GuardKind where
  | unconditional
  | hash
  | fragment
  | scope
  | block
deriving DecidableEq, Repr

/-- The name of a kind in messages. -/
def GuardKind.name : GuardKind → String
  | .unconditional => "unconditional"
  | .hash => "hash"
  | .fragment => "fragment"
  | .scope => "scope"
  | .block => "block"

/-- What decides whether a rule applies to an object of its subjects. -/
inductive Guard (ρ : Type) where
  /-- The rule applies to every object. -/
  | unconditional
  /-- The rule applies where the conditions hold. -/
  | hash (conditions : Conditions)
  /-- The store decides by a fragment, the fallback decides for a single object. -/
  | fragment (predicate : Fragment) (fallback : Option (ρ → Bool))
  /-- The store decides by a scope, the fallback decides for a single object. -/
  | scope (named : Scope) (fallback : Option (ρ → Bool))
  /-- The predicate decides, for single objects only. -/
  | block (predicate : ρ → Bool)

namespace Guard

variable {ρ : Type}

/-- The kind of a guard. -/
def kind : Guard ρ → GuardKind
  | .unconditional => .unconditional
  | .hash _ => .hash
  | .fragment _ _ => .fragment
  | .scope _ _ => .scope
  | .block _ => .block

/-- The rule applies to every object, as it also does under no conditions at all. -/
def isUnconditional : Guard ρ → Bool
  | .unconditional => true
  | .hash conditions => conditions.isEmpty
  | _ => false

/-- The guard for conditions; without any condition it is unconditional. -/
def ofConditions (conditions : Conditions) : Guard ρ :=
  if conditions.isEmpty then .unconditional else .hash conditions

/-- The guard is a scope. -/
def isScope (guard : Guard ρ) : Bool := guard.kind == .scope

/-- The guard is a block. -/
def isBlock (guard : Guard ρ) : Bool := guard.kind == .block

/-- The guard is a fragment, or conditions of which there is at least one. -/
def isPredicate : Guard ρ → Bool
  | .hash conditions => !conditions.isEmpty
  | .fragment _ _ => true
  | _ => false

/-- Whether the guard lets an object pass, or `none` where only a store can tell. -/
def decide? [Resource ρ] (object : ρ) : Guard ρ → Option Bool
  | .unconditional => some true
  | .hash conditions => some (conditions.holdFor object)
  | .fragment _ fallback => fallback.map (fun predicate => predicate object)
  | .scope _ fallback => fallback.map (fun predicate => predicate object)
  | .block predicate => some (predicate object)

/-- The query for what the guard lets pass, or `none` where a store cannot tell. -/
def query? : Guard ρ → Option Query
  | .unconditional => some .always
  | .hash conditions => some (Query.ofConditions conditions)
  | .fragment predicate _ => some (.fragment predicate)
  | .scope named _ => some (.scope named)
  | .block _ => none

end Guard

/-!
### Faults

Faults are causes, with the words for each cause in one place. Names stand in quotes.
-/

/-- Why a store cannot run a query. -/
inductive StoreFault where
  /-- No fragment of this text is registered. -/
  | unknownFragment (text : String)
  /-- No scope of this name is registered. -/
  | unknownScope (name : String)
  /-- The conditions follow associations that are not joined. -/
  | missingJoins (conditions : Conditions) (joins : Joins)
  /-- Any other reason, in words. -/
  | other (message : String)
deriving Repr

/-- The reason in words. -/
def StoreFault.message : StoreFault → String
  | .unknownFragment text => "Unknown fragment " ++ Quoted.quote text
  | .unknownScope name => "Unknown scope " ++ Quoted.quote name
  | .missingJoins conditions joins =>
      "Conditions " ++ conditions.display ++ " need associations missing from joins " ++
        joins.display
  | .other message => message

/-- What stands in the way of an answer. -/
inductive Fault where
  /-- A rule, declared for the action and subject, has a guard that only a store can decide. -/
  | unevaluable (action subject : String) (kind : GuardKind)
  /-- A scope would have to be combined with something else in one query. -/
  | scopeMerge (action subject : String)
  /-- A block decides, and no query can express it. -/
  | blockOnly (action subject : String)
  /-- The action is not permitted. -/
  | denied (action subject message : String)
  /-- There is no such object. -/
  | notFound (subject id : String)
  /-- The store failed. -/
  | store (fault : StoreFault)
  /-- The settings are refused. -/
  | settings (fault : SettingsFault)
deriving Repr

/-- The fault in words. -/
def Fault.message : Fault → String
  | .unevaluable action subject kind =>
      "Cannot check " ++ Quoted.quote action ++ " on " ++ Quoted.quote subject ++
        " against a single instance: the rule uses a " ++ kind.name ++
        " condition without a block"
  | .scopeMerge action subject =>
      "Unable to merge a scope with other conditions for " ++ Quoted.quote action ++ " on " ++
        Quoted.quote subject ++ "; use hash conditions or fragments instead"
  | .blockOnly action subject =>
      "Cannot build query conditions for " ++ Quoted.quote action ++ " on " ++
        Quoted.quote subject ++ ": a rule is declared with a block only"
  | .denied _ _ message => message
  | .notFound subject id => "No " ++ Quoted.quote subject ++ " found with id " ++ id
  | .store fault => "Store error: " ++ fault.message
  | .settings fault => "Invalid settings: " ++ fault.message

/-!
### Rules
-/

/-- Whether a rule grants or denies. -/
inductive Polarity where
  | allow
  | deny
deriving DecidableEq, Repr

/-- The rule grants. -/
def Polarity.isAllow : Polarity → Bool
  | .allow => true
  | .deny => false

/-- A grant or a denial. Actions and subjects are sets: none occurs twice. -/
structure Rule (ρ : Type) where
  polarity : Polarity
  actions : List String
  subjects : List String
  guard : Guard ρ
  /-- The action that messages name. -/
  declaredAction : String
  /-- The subject type that messages name. -/
  declaredSubject : String

namespace Rule

variable {ρ : Type}

/-- A rule for every pair of an action and a subject type. -/
def declare (polarity : Polarity) (actions subjects : List String) (guard : Guard ρ) :
    Rule ρ where
  polarity := polarity
  actions := actions.eraseDups
  subjects := subjects.eraseDups
  guard := guard
  declaredAction := actions.head?.getD ""
  declaredSubject := subjects.head?.getD ""

/-- The rule with every action that aliases reach from its actions. -/
def expand (settings : Settings) (rule : Rule ρ) : Rule ρ :=
  { rule with actions := settings.expandActions rule.actions }

/-- The rule grants. -/
def isAllow (rule : Rule ρ) : Bool := rule.polarity.isAllow

/-- The rule is about the action. -/
def coversAction (rule : Rule ρ) (action : String) : Bool :=
  rule.actions.contains manage || rule.actions.contains action

/-- The rule is about the subject type. -/
def coversSubject (rule : Rule ρ) (subject : String) : Bool :=
  rule.subjects.contains everySubject || rule.subjects.contains subject

/-- The rule is about the action on the subject type. -/
def isRelevant (rule : Rule ρ) (action subject : String) : Bool :=
  rule.coversAction action && rule.coversSubject subject

/-- The rule's guard lets the object pass. A guard that only a store can decide is a fault. -/
def appliesTo [Resource ρ] (rule : Rule ρ) (object : ρ) : Except Fault Bool :=
  match rule.guard.decide? object with
  | some answer => .ok answer
  | none => .error (.unevaluable rule.declaredAction rule.declaredSubject rule.guard.kind)

/-- The rule decides for a subject type as a whole. A grant under a condition does, because some
    object may qualify; a denial under a condition does not. -/
def decidesType (rule : Rule ρ) : Bool :=
  rule.guard.isUnconditional || rule.isAllow

/-- The attribute values that the rule's own equalities ask for. -/
def attributes (rule : Rule ρ) : List (String × Value) :=
  match rule.guard with
  | .hash conditions => conditions.filterMap (fun entry =>
      match entry.2 with
      | .equals value => some (entry.1, value)
      | _ => none)
  | _ => []

end Rule

end Permit
