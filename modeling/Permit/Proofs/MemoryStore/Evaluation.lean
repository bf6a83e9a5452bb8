/-
Module: Permit.Proofs.MemoryStore.Evaluation
Layer: Proofs
Purpose: What a query means to a store that knows each fragment and scope in it. Evaluation then
  never fails, the simplifying constructors are the boolean operations, and a selection is a plain
  filter. A guard gets the meaning of its query, and a block its own predicate.
Main exports: MemoryStore.Knows, MemoryStore.selects, MemoryStore.evaluate_eq_selects,
  MemoryStore.select_eq_keep, MemoryStore.Registers, MemoryStore.AgreesOn, MemoryStore.passes,
  MemoryStore.passes_of_decide?
-/
import Permit.MemoryStore
import Permit.Proofs.Joins.Paths
import Permit.Proofs.Query.Simplification

namespace Permit.MemoryStore

/-- Each fragment and scope in the query is registered. -/
def Knows (store : MemoryStore) : Query → Prop
  | .always => True
  | .never => True
  | .not query => store.Knows query
  | .and left right => store.Knows left ∧ store.Knows right
  | .or left right => store.Knows left ∧ store.Knows right
  | .hash _ => True
  | .fragment predicate => (store.fragments.get? predicate.text).isSome = true
  | .scope named => (store.scopes.get? named.name).isSome = true

/-- The query selects the record, where what is not registered selects nothing. -/
def selects (store : MemoryStore) (record : Record) : Query → Bool
  | .always => true
  | .never => false
  | .not query => !store.selects record query
  | .and left right => store.selects record left && store.selects record right
  | .or left right => store.selects record left || store.selects record right
  | .hash conditions => conditions.holdFor record
  | .fragment predicate =>
      (store.fragments.get? predicate.text).any (fun meaning =>
        meaning record predicate.parameters)
  | .scope named => (store.scopes.get? named.name).any (fun meaning => meaning record)

variable {store : MemoryStore} {record : Record}

/-!
### The simplifying constructors
-/

/-- A disjunction asks for no predicate that neither of its sides asks for. -/
theorem knows_disjoin {left right : Query} (leftKnown : store.Knows left)
    (rightKnown : store.Knows right) : store.Knows (left.disjoin right) := by
  rcases left.disjoin_cases right with
    ⟨_, joined⟩ | ⟨_, joined⟩ | ⟨_, joined⟩ | ⟨_, _, joined⟩ <;> rw [joined]
  · trivial
  · exact rightKnown
  · exact leftKnown
  · exact ⟨leftKnown, rightKnown⟩

/-- A conjunction asks for no predicate that neither of its sides asks for. -/
theorem knows_conjoin {left right : Query} (leftKnown : store.Knows left)
    (rightKnown : store.Knows right) : store.Knows (left.conjoin right) := by
  rcases left.conjoin_cases right with
    ⟨_, joined⟩ | ⟨_, joined⟩ | ⟨_, joined⟩ | ⟨_, _, joined⟩ <;> rw [joined]
  · trivial
  · exact rightKnown
  · exact leftKnown
  · exact ⟨leftKnown, rightKnown⟩

theorem knows_negate {query : Query} (known : store.Knows query) : store.Knows query.negate := by
  rcases query.negate_cases with
    ⟨_, negated⟩ | ⟨_, negated⟩ | ⟨inner, rfl, negated⟩ | ⟨_, negated⟩ <;> rw [negated]
  · trivial
  · trivial
  · exact known
  · exact known

/-- The disjunction of two queries selects what either of them selects, also where one side absorbs
    the other. -/
theorem selects_disjoin (left right : Query) :
    store.selects record (left.disjoin right) =
      (store.selects record left || store.selects record right) := by
  rcases left.disjoin_cases right with
    ⟨rfl | rfl, joined⟩ | ⟨rfl, joined⟩ | ⟨rfl, joined⟩ | ⟨_, _, joined⟩ <;>
    simp [joined, selects]

/-- The conjunction of two queries selects what both of them select, also where one side absorbs the
    other. -/
theorem selects_conjoin (left right : Query) :
    store.selects record (left.conjoin right) =
      (store.selects record left && store.selects record right) := by
  rcases left.conjoin_cases right with
    ⟨rfl | rfl, joined⟩ | ⟨rfl, joined⟩ | ⟨rfl, joined⟩ | ⟨_, _, joined⟩ <;>
    simp [joined, selects]

/-- The negation of a query selects what the query leaves out. -/
theorem selects_negate (query : Query) :
    store.selects record query.negate = !store.selects record query := by
  rcases query.negate_cases with
    ⟨rfl, negated⟩ | ⟨rfl, negated⟩ | ⟨inner, rfl, negated⟩ | ⟨_, negated⟩ <;>
    simp [negated, selects]

/-!
### Selection
-/

/-- A query whose fragments and scopes are all registered is evaluated without a fault. -/
theorem evaluate_eq_selects (record : Record) {query : Query} (known : store.Knows query) :
    store.evaluate record query = .ok (store.selects record query) := by
  induction query with
  | always => rfl
  | never => rfl
  | not query ih => simp [evaluate, selects, ih known, Except.map]
  | and left right leftIh rightIh =>
      rw [evaluate, leftIh known.1, rightIh known.2, selects]
      cases store.selects record left <;> rfl
  | or left right leftIh rightIh =>
      rw [evaluate, leftIh known.1, rightIh known.2, selects]
      cases store.selects record left <;> rfl
  | hash conditions => rfl
  | fragment predicate =>
      obtain ⟨meaning, registered⟩ := Option.isSome_iff_exists.mp known
      simp [evaluate, selects, registered]
  | scope named =>
      obtain ⟨meaning, registered⟩ := Option.isSome_iff_exists.mp known
      simp [evaluate, selects, registered]

/-- A store that knows every predicate of a query keeps exactly the records that the query selects,
    without a fault. -/
theorem keep_eq_filter {query : Query} (known : store.Knows query) (records : List Record) :
    store.keep query records = .ok (records.filter (fun record => store.selects record query)) := by
  induction records with
  | nil => rfl
  | cons record rest ih =>
      rw [keep, evaluate_eq_selects record known]
      cases selected : store.selects record query <;> simp [ih, selected, Except.map]

/-- A query with its own joins is never refused for them. -/
theorem select_eq_keep (store : MemoryStore) (subject : String) (query : Query) :
    store.select subject query query.joins = store.keep query (store.ofType subject) := by
  have covered : query.hashLeaves.find? (fun leaf => !query.joins.covers leaf) = none := by
    rw [List.find?_eq_none]
    intro leaf member
    simp [Query.joins_cover member]
  rw [select, covered]

/-!
### Guards
-/

/-- The fragment or scope of the guard, if it has one, is registered. -/
def Registers {ρ : Type} (store : MemoryStore) : Guard ρ → Prop
  | .fragment predicate _ => (store.fragments.get? predicate.text).isSome = true
  | .scope named _ => (store.scopes.get? named.name).isSome = true
  | _ => True

/-- The fallback of the guard, if it has one, answers for the record as what is registered for
    the fragment or scope does. -/
def AgreesOn (store : MemoryStore) (record : Record) : Guard Record → Prop
  | .fragment predicate (some fallback) =>
      ∀ meaning, store.fragments.get? predicate.text = some meaning →
        fallback record = meaning record predicate.parameters
  | .scope named (some fallback) =>
      ∀ meaning, store.scopes.get? named.name = some meaning → fallback record = meaning record
  | _ => True

/-- The guard lets the record pass, as the store reads its query, or as the guard decides itself
    where it has no query. -/
def passes (store : MemoryStore) (record : Record) (guard : Guard Record) : Bool :=
  match guard.query? with
  | some query => store.selects record query
  | none => (guard.decide? record).getD false

/-- A store that registers the predicates of a guard knows the query by which the guard is
    expressed. -/
theorem knows_of_registers {ρ : Type} {guard : Guard ρ} {query : Query}
    (registered : store.Registers guard) (expressed : guard.query? = some query) :
    store.Knows query := by
  cases guard with
  | unconditional => cases expressed; trivial
  | hash conditions =>
      cases expressed
      cases conditions <;> trivial
  | fragment predicate fallback => cases expressed; exact registered
  | scope named fallback => cases expressed; exact registered
  | block predicate => cases expressed

/-- Where a guard can decide by itself, the store reads it alike. -/
theorem passes_of_decide? {guard : Guard Record} {answer : Bool}
    (registered : store.Registers guard) (agrees : store.AgreesOn record guard)
    (decided : guard.decide? record = some answer) : store.passes record guard = answer := by
  rcases guard with _ | conditions | ⟨predicate, _ | fallback⟩ | ⟨named, _ | fallback⟩ | block
  · simpa [passes, Guard.query?, Guard.decide?, selects] using decided
  · cases conditions <;>
      simpa [passes, Guard.query?, Guard.decide?, Query.ofConditions, selects,
        Conditions.holdFor] using decided
  · simp [Guard.decide?] at decided
  · obtain ⟨meaning, known⟩ := Option.isSome_iff_exists.mp registered
    have same := agrees meaning known
    simpa [passes, Guard.query?, Guard.decide?, selects, known, same] using decided
  · simp [Guard.decide?] at decided
  · obtain ⟨meaning, known⟩ := Option.isSome_iff_exists.mp registered
    have same := agrees meaning known
    simpa [passes, Guard.query?, Guard.decide?, selects, known, same] using decided
  · simpa [passes, Guard.query?, Guard.decide?] using decided

end Permit.MemoryStore
