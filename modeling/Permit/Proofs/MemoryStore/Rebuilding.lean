/-
Module: Permit.Proofs.MemoryStore.Rebuilding
Layer: Proofs
Purpose: Simplifying a query changes no answer. Evaluation passes over operands that cannot matter
  and may fail at the others, so that a simpler query can do without a fault of the longer one; what
  the longer one answers it answers too. The conditions that are left are covered by the joins that
  covered all of them, so a selection that succeeds stays as it is.
Main exports: MemoryStore.Upholds, MemoryStore.upholds_conjoin, MemoryStore.upholds_disjoin,
  MemoryStore.upholds_negate, MemoryStore.upholds_simplify, MemoryStore.select_of_upholds,
  MemoryStore.simplification_only_removes_faults
-/
import Permit.MemoryStore
import Permit.Proofs.Query.Simplification

namespace Permit.MemoryStore

variable {store : MemoryStore} {record : Record} {query other left right : Query} {answer : Bool}

/-!
### Answers of connectives
-/

/-- A negation is decided where the query below it is, the other way round. -/
theorem evaluate_not_eq_ok_iff :
    store.evaluate record (.not query) = .ok answer ↔
      store.evaluate record query = .ok !answer := by
  rw [evaluate]
  cases store.evaluate record query <;> cases answer <;> simp [Except.map]

/-- A conjunction is answered by its left operand alone if that fails to hold. -/
theorem evaluate_and_eq_ok_iff :
    store.evaluate record (.and left right) = .ok answer ↔
      (store.evaluate record left = .ok false ∧ answer = false) ∨
      (store.evaluate record left = .ok true ∧ store.evaluate record right = .ok answer) := by
  rw [evaluate]
  rcases store.evaluate record left with fault | _ | _ <;> simp [eq_comm]

/-- A disjunction is answered by its left operand alone if that holds. -/
theorem evaluate_or_eq_ok_iff :
    store.evaluate record (.or left right) = .ok answer ↔
      (store.evaluate record left = .ok true ∧ answer = true) ∨
      (store.evaluate record left = .ok false ∧ store.evaluate record right = .ok answer) := by
  rw [evaluate]
  rcases store.evaluate record left with fault | _ | _ <;> simp [eq_comm]

/-!
### Queries that answer no less
-/

/-- What the one query answers, the other answers too. Only a fault of the one may be gone. -/
def Upholds (store : MemoryStore) (record : Record) (query other : Query) : Prop :=
  ∀ answer, store.evaluate record query = .ok answer → store.evaluate record other = .ok answer

theorem Upholds.refl (query : Query) : store.Upholds record query query :=
  fun _ answered => answered

theorem Upholds.trans {between : Query} (first : store.Upholds record query between)
    (second : store.Upholds record between other) : store.Upholds record query other :=
  fun answer answered => second answer (first answer answered)

/-- A rebuilt tree may stand below a negation. -/
theorem Upholds.not (upheld : store.Upholds record query other) :
    store.Upholds record (.not query) (.not other) := by
  intro answer answered
  rw [evaluate_not_eq_ok_iff] at answered ⊢
  exact upheld _ answered

/-- The sides of a conjunction may be rebuilt one by one. The right side counts only where the left
    one holds. -/
theorem Upholds.and {left' right' : Query} (leftUpheld : store.Upholds record left left')
    (rightUpheld : store.Upholds record right right') :
    store.Upholds record (.and left right) (.and left' right') := by
  intro answer answered
  rw [evaluate_and_eq_ok_iff] at answered ⊢
  exact answered.imp (And.imp_left (leftUpheld _)) (And.imp (leftUpheld _) (rightUpheld _))

/-- The sides of a disjunction may be rebuilt one by one. The right side counts only where the left
    one fails. -/
theorem Upholds.or {left' right' : Query} (leftUpheld : store.Upholds record left left')
    (rightUpheld : store.Upholds record right right') :
    store.Upholds record (.or left right) (.or left' right') := by
  intro answer answered
  rw [evaluate_or_eq_ok_iff] at answered ⊢
  exact answered.imp (And.imp_left (leftUpheld _)) (And.imp (leftUpheld _) (rightUpheld _))

/-!
### The simplifying constructors
-/

/-- Negating by rule upholds the negation as it is written. -/
theorem upholds_negate (query : Query) : store.Upholds record (.not query) query.negate := by
  intro answer answered
  rcases query.negate_cases with
    ⟨rfl, negated⟩ | ⟨rfl, negated⟩ | ⟨inner, rfl, negated⟩ | ⟨_, negated⟩ <;> rw [negated]
  · exact answered
  · exact answered
  · rw [evaluate_not_eq_ok_iff, evaluate_not_eq_ok_iff, Bool.not_not] at answered
    exact answered
  · exact answered

/-- An operand that absorbs the other does so whatever the other would have come to. -/
theorem upholds_conjoin (left right : Query) :
    store.Upholds record (.and left right) (left.conjoin right) := by
  intro answer answered
  rcases left.conjoin_cases right with
    ⟨rfl | rfl, joined⟩ | ⟨rfl, joined⟩ | ⟨rfl, joined⟩ | ⟨_, _, joined⟩ <;> rw [joined]
  · simpa [evaluate] using answered
  · rcases evaluate_and_eq_ok_iff.mp answered with ⟨_, rfl⟩ | ⟨_, decided⟩
    · rfl
    · exact decided
  · simpa [evaluate] using answered
  · rcases evaluate_and_eq_ok_iff.mp answered with ⟨decided, rfl⟩ | ⟨decided, holds⟩
    · exact decided
    · rw [decided]
      exact holds
  · exact answered

/-- Joining by rule upholds the disjunction as it is written. A side that it drops could change no
    answer, and could only fail. -/
theorem upholds_disjoin (left right : Query) :
    store.Upholds record (.or left right) (left.disjoin right) := by
  intro answer answered
  rcases left.disjoin_cases right with
    ⟨rfl | rfl, joined⟩ | ⟨rfl, joined⟩ | ⟨rfl, joined⟩ | ⟨_, _, joined⟩ <;> rw [joined]
  · simpa [evaluate] using answered
  · rcases evaluate_or_eq_ok_iff.mp answered with ⟨_, rfl⟩ | ⟨_, decided⟩
    · rfl
    · exact decided
  · simpa [evaluate] using answered
  · rcases evaluate_or_eq_ok_iff.mp answered with ⟨decided, rfl⟩ | ⟨decided, holds⟩
    · exact decided
    · rw [decided]
      exact holds
  · exact answered

/-- Conditions that ask for nothing become the query that always holds. -/
theorem upholds_ofConditions (conditions : Conditions) :
    store.Upholds record (.hash conditions) (Query.ofConditions conditions) := by
  intro answer answered
  cases conditions with
  | nil => exact answered
  | cons entry rest => exact answered

/-- Each connective is simplified once its operands are, so one step per connective is enough. -/
theorem upholds_simplify (query : Query) : store.Upholds record query query.simplify := by
  induction query with
  | always => exact .refl _
  | never => exact .refl _
  | not query ih => exact ih.not.trans (upholds_negate _)
  | and left right leftIh rightIh => exact (leftIh.and rightIh).trans (upholds_conjoin _ _)
  | or left right leftIh rightIh => exact (leftIh.or rightIh).trans (upholds_disjoin _ _)
  | hash conditions => exact upholds_ofConditions conditions
  | fragment predicate => exact .refl _
  | scope named => exact .refl _

/-!
### Selections
-/

/-- What a query selects, the tree rebuilt from it selects too: each record was decided, and is
    decided likewise. -/
theorem keep_of_upholds {records kept : List Record}
    (upheld : ∀ record, store.Upholds record query other)
    (succeeded : store.keep query records = .ok kept) : store.keep other records = .ok kept := by
  induction records generalizing kept with
  | nil => exact succeeded
  | cons record rest ih =>
      rw [keep] at succeeded ⊢
      cases evaluated : store.evaluate record query with
      | error fault => simp [evaluated] at succeeded
      | ok selected =>
          cases later : store.keep query rest with
          | error fault => simp [evaluated, later, Except.map] at succeeded
          | ok others =>
              simp only [evaluated, later] at succeeded
              simpa only [upheld record selected evaluated, ih later] using succeeded

/-- A selection stays if each answer does and no condition is new to the joins. -/
theorem select_of_upholds {subject : String} {joins : Joins} {selected : List Record}
    (upheld : ∀ record, store.Upholds record query other)
    (fewer : ∀ leaf ∈ other.hashLeaves, leaf ∈ query.hashLeaves)
    (succeeded : store.select subject query joins = .ok selected) :
    store.select subject other joins = .ok selected := by
  rw [select] at succeeded ⊢
  split at succeeded
  · cases succeeded
  · next covered =>
      have stillCovered : other.hashLeaves.find? (fun leaf => !joins.covers leaf) = none := by
        rw [List.find?_eq_none] at covered ⊢
        exact fun leaf member => covered leaf (fewer leaf member)
      rw [stillCovered]
      exact keep_of_upholds upheld succeeded

/-- A query of any shape loses by simplification some of its conditions and perhaps a fault: the
    conditions that stay are in their order, and what a store selects with the query, whatever it
    has registered, it selects with the simplified one, with the same joins. -/
theorem simplification_only_removes_faults (query : Query) :
    query.simplify.hashLeaves.Sublist query.hashLeaves ∧
    ∀ (store : MemoryStore) (subject : String) (joins : Joins) (selected : List Record),
      store.select subject query joins = .ok selected →
      store.select subject query.simplify joins = .ok selected := by
  have sublist := query.hashLeaves_simplify_sublist
  refine ⟨sublist, ?_⟩
  intro store subject joins selected succeeded
  exact select_of_upholds (fun record => upholds_simplify query)
    (fun leaf member => sublist.subset member) succeeded

end Permit.MemoryStore

namespace Permit

/-!
### A retired scope

The store no longer knows the scope. The query never gets to it, but keeps the store asking for an
association that nothing needs.
-/

namespace Retired

def query : Query :=
  .or
    (.and .never (.and (.scope ⟨"retired"⟩) (.hash [("region", .nested [])])))
    (.not (.not (.and (.hash []) (.hash [("pinned", .equals (.boolean true))]))))

def simplified : Query := .hash [("pinned", .equals (.boolean true))]

def pinned : Record := (Record.ofId "Article" (.integer 1)).set "pinned" (.boolean true)

def store : MemoryStore :=
  ⟨[Record.ofId "Article" (.integer 2), pinned, Record.ofId "Comment" (.integer 3)], [], []⟩

def joins : Joins := ⟨[("region", ⟨[]⟩)]⟩

end Retired

theorem MemoryStore.retired_scope_simplified :
    Retired.query.simplify = Retired.simplified ∧
    Retired.query.simplify.hashLeaves.Sublist Retired.query.hashLeaves ∧
    Retired.store.select "Article" Retired.query Retired.joins = .ok [Retired.pinned] ∧
    Retired.store.select "Article" Retired.query.simplify Retired.joins = .ok [Retired.pinned] := by
  obtain ⟨sublist, keeps⟩ := simplification_only_removes_faults Retired.query
  exact ⟨rfl, sublist, rfl, keeps Retired.store "Article" Retired.joins [Retired.pinned] rfl⟩

/-- A fault goes where the operand that settles the query stands behind the one that fails. -/
example :
    Retired.store.select "Article" (.and (.scope ⟨"retired"⟩) .never) Joins.empty =
        .error (.unknownScope "retired") ∧
      Retired.store.select "Article" (Query.and (.scope ⟨"retired"⟩) .never).simplify Joins.empty =
        .ok [] :=
  ⟨rfl, rfl⟩

end Permit
