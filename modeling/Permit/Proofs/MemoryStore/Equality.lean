/-
Module: Permit.Proofs.MemoryStore.Equality
Layer: Proofs
Purpose: A store cannot tell equal queries apart. Equal queries have one form and equal conditions
  at each of its places, so that they come to the same answer on a record, or to the same fault. A
  selection is refused for the conditions at one place or for none, and otherwise ends alike.
Main exports: Query.Reordered, Query.reordered_of_same, Query.Reordered.leaves,
  MemoryStore.evaluate_of_reordered, MemoryStore.select_of_reordered,
  Conditions.equality_is_congruence
-/
import Mathlib.Data.List.Forall2
import Permit.MemoryStore
import Permit.Proofs.Condition.Equality

namespace Permit

namespace Query

/-- No name occurs twice at any level of the conditions in the query. -/
def Distinct (query : Query) : Prop := ∀ leaf ∈ query.hashLeaves, leaf.Distinct

/-- Queries of one form, with conditions at each place that are equal up to order. -/
inductive Reordered : Query → Query → Prop where
  | always : Reordered .always .always
  | never : Reordered .never .never
  | not {query other : Query} (inner : Reordered query other) :
      Reordered (.not query) (.not other)
  | and {left right left' right' : Query} (first : Reordered left left')
      (second : Reordered right right') : Reordered (.and left right) (.and left' right')
  | or {left right left' right' : Query} (first : Reordered left left')
      (second : Reordered right right') : Reordered (.or left right) (.or left' right')
  | hash {conditions others : Conditions} (reordered : conditions.Reordered others) :
      Reordered (.hash conditions) (.hash others)
  | fragment (predicate : Fragment) : Reordered (.fragment predicate) (.fragment predicate)
  | scope (named : Scope) : Reordered (.scope named) (.scope named)

variable {query other left right : Query}

theorem distinct_and_iff : (Query.and left right).Distinct ↔ left.Distinct ∧ right.Distinct :=
  List.forall_mem_append

theorem distinct_or_iff : (Query.or left right).Distinct ↔ left.Distinct ∧ right.Distinct :=
  List.forall_mem_append

theorem distinct_hash_iff {conditions : Conditions} :
    (Query.hash conditions).Distinct ↔ conditions.Distinct :=
  List.forall_mem_singleton

/-- Where no name occurs twice in a leaf, trees that the equality test takes for equal differ in the
    order of their entries only. -/
theorem reordered_of_same (distinct : query.Distinct) (otherDistinct : other.Distinct)
    (equal : query.same other = true) : Reordered query other := by
  induction query generalizing other with
  | always =>
      cases other with
      | always => exact .always
      | _ => cases equal
  | never =>
      cases other with
      | never => exact .never
      | _ => cases equal
  | not query ih =>
      cases other with
      | not other => exact .not (ih distinct otherDistinct equal)
      | _ => cases equal
  | and left right leftIh rightIh =>
      cases other with
      | and left' right' =>
          rw [distinct_and_iff] at distinct otherDistinct
          rw [same, Bool.and_eq_true] at equal
          exact .and (leftIh distinct.1 otherDistinct.1 equal.1)
            (rightIh distinct.2 otherDistinct.2 equal.2)
      | _ => cases equal
  | or left right leftIh rightIh =>
      cases other with
      | or left' right' =>
          rw [distinct_or_iff] at distinct otherDistinct
          rw [same, Bool.and_eq_true] at equal
          exact .or (leftIh distinct.1 otherDistinct.1 equal.1)
            (rightIh distinct.2 otherDistinct.2 equal.2)
      | _ => cases equal
  | hash conditions =>
      cases other with
      | hash others =>
          rw [distinct_hash_iff] at distinct otherDistinct
          exact .hash ⟨distinct, otherDistinct, equal⟩
      | _ => cases equal
  | fragment predicate =>
      cases other with
      | fragment predicate' =>
          rw [same, beq_iff_eq] at equal
          exact equal ▸ .fragment predicate
      | _ => cases equal
  | scope named =>
      cases other with
      | scope named' =>
          rw [same, beq_iff_eq] at equal
          exact equal ▸ .scope named
      | _ => cases equal

/-- The conditions stand in the same order from left to right. -/
theorem Reordered.leaves (reordered : Reordered query other) :
    List.Forall₂ Conditions.Reordered query.hashLeaves other.hashLeaves := by
  induction reordered with
  | always => exact .nil
  | never => exact .nil
  | not _ ih => exact ih
  | and _ _ first second => exact List.rel_append first second
  | or _ _ first second => exact List.rel_append first second
  | hash reordered => exact .cons reordered .nil
  | fragment => exact .nil
  | scope => exact .nil

end Query

namespace MemoryStore

variable {query other : Query} {joins others : Joins}

/-- A record is checked against both trees with one outcome, faults included: the checks run in the
    order of the leaves, and that order is kept. -/
theorem evaluate_of_reordered (store : MemoryStore) (record : Record)
    (reordered : query.Reordered other) :
    store.evaluate record query = store.evaluate record other := by
  induction reordered with
  | always => rfl
  | never => rfl
  | not _ ih => rw [evaluate, evaluate, ih]
  | and _ _ first second => rw [evaluate, evaluate, first, second]
  | or _ _ first second => rw [evaluate, evaluate, first, second]
  | hash reordered => rw [evaluate, evaluate, reordered.holdFor_eq]
  | fragment => rfl
  | scope => rfl

/-- Both trees keep the same records, or stop at the same fault. -/
theorem keep_of_reordered (store : MemoryStore) (reordered : query.Reordered other)
    (records : List Record) : store.keep query records = store.keep other records := by
  induction records with
  | nil => rfl
  | cons record rest ih => rw [keep, keep, store.evaluate_of_reordered record reordered, ih]

/-- The first conditions that one forest does not cover stand where those stand that an equal forest
    does not cover. -/
theorem uncovered_of_reordered {leaves otherLeaves : List Conditions}
    (reordered : List.Forall₂ Conditions.Reordered leaves otherLeaves)
    (alike : ∀ conditions, joins.covers conditions = others.covers conditions) :
    Option.Rel Conditions.Reordered (leaves.find? fun leaf => !joins.covers leaf)
      (otherLeaves.find? fun leaf => !others.covers leaf) := by
  induction reordered with
  | nil => exact .none
  | @cons leaf otherLeaf _ _ first _ ih =>
      have covered : joins.covers leaf = others.covers otherLeaf :=
        (Joins.covers_of_reordered first joins).trans (alike otherLeaf)
      rw [List.find?_cons, List.find?_cons, covered]
      cases others.covers otherLeaf with
      | true => exact ih
      | false => exact .some first

/-- Both selections are refused for want of joins, or they end alike. -/
theorem select_of_reordered (store : MemoryStore) (subject : String)
    (reordered : query.Reordered other)
    (alike : ∀ conditions, joins.covers conditions = others.covers conditions) :
    (∃ leaf otherLeaf : Conditions, leaf.Reordered otherLeaf ∧
      store.select subject query joins = .error (.missingJoins leaf joins) ∧
      store.select subject other others = .error (.missingJoins otherLeaf others)) ∨
    store.select subject query joins = store.select subject other others := by
  have uncovered := uncovered_of_reordered reordered.leaves alike
  rw [select, select]
  revert uncovered
  cases query.hashLeaves.find? (fun leaf => !joins.covers leaf) <;>
    cases other.hashLeaves.find? (fun leaf => !others.covers leaf) <;> intro uncovered
  · exact .inr (store.keep_of_reordered reordered _)
  · cases uncovered
  · cases uncovered
  · cases uncovered with
    | some leaf => exact .inl ⟨_, _, leaf, rfl, rfl⟩

end MemoryStore

/-- Equality up to order is a congruence. Conditions are compared by their number and name by name,
    and those without repeated names are equal where they ask the same everywhere, however their
    names are ordered. Equal ones hold for the same objects, are covered by the same forests and
    need equal joins. Of equal queries with equal joins a store selects the same records, or
    neither. -/
theorem Conditions.equality_is_congruence :
    (∀ left right : Conditions,
      (left.same right = true ↔ left.length = right.length ∧
        ∀ entry ∈ left, ∃ other, Entries.get? right entry.1 = some other ∧
          entry.2.same other = true) ∧
      (left.Distinct → right.Distinct → (left.same right = true ↔
        ∀ path name, left.demandAt? path name = right.demandAt? path name))) ∧
    (∀ conditions : Conditions, conditions.Distinct → conditions.same conditions = true) ∧
    (∀ left right : Conditions, left.Distinct → right.Distinct → left.same right = true →
      right.same left = true) ∧
    (∀ left middle right : Conditions, left.Distinct → middle.Distinct → right.Distinct →
      left.same middle = true → middle.same right = true → left.same right = true) ∧
    (∀ left right : Conditions, left.Distinct → right.Distinct → left.same right = true →
      (∀ {ρ : Type} [Resource ρ] (object : ρ), left.holdFor object = right.holdFor object) ∧
      (∀ joins : Joins, joins.covers left = joins.covers right) ∧
      (Joins.ofConditions left).same (Joins.ofConditions right) = true) ∧
    ∀ (query other : Query) (joins others : Joins), query.Distinct → other.Distinct →
      joins.Distinct → others.Distinct → query.same other = true → joins.same others = true →
      ∀ (store : MemoryStore) (subject : String),
        (∀ records, store.select subject query joins = .ok records ↔
          store.select subject other others = .ok records) ∧
        ((∃ fault, store.select subject query joins = .error fault) ↔
          ∃ fault, store.select subject other others = .error fault) := by
  refine ⟨fun left right => ⟨same_iff_found, same_iff_demands⟩, fun _ => same_refl,
    fun _ _ => same_symm, fun _ _ _ => same_trans, ?_, ?_⟩
  · intro left right leftDistinct rightDistinct equal
    have reordered : left.Reordered right := ⟨leftDistinct, rightDistinct, equal⟩
    exact ⟨reordered.holdFor_eq, Joins.covers_of_reordered reordered,
      Joins.same_ofConditions reordered⟩
  · intro query other joins others distinct otherDistinct joinsDistinct othersDistinct equal
      equalJoins store subject
    have reordered := Query.reordered_of_same distinct otherDistinct equal
    have alike := Joins.covers_of_same joinsDistinct othersDistinct equalJoins
    rcases store.select_of_reordered subject reordered alike with
      ⟨leaf, otherLeaf, _, refused, otherRefused⟩ | ends
    · simp [refused, otherRefused]
    · simp [ends]

/-!
### A greenhouse

The names stand in another order on each of three levels, and so do those of the joins, which join
more than is asked for. The order of the heights counts.
-/

namespace Greenhouse

def asked : Conditions :=
  [("heated", .equals (.boolean true)),
    ("plant", .nested [("height", .anyOf [.integer 1, .null]),
      ("bed", .nested [("area", .equals (.integer 4)), ("sunny", .equals .null)])])]

def askedAgain : Conditions :=
  [("plant", .nested [("bed", .nested [("sunny", .equals .null), ("area", .equals (.integer 4))]),
      ("height", .anyOf [.integer 1, .null])]),
    ("heated", .equals (.boolean true))]

def joins : Joins :=
  (Joins.empty.join "plant" ((Joins.empty.join "bed" Joins.empty).join "pot" Joins.empty)).join
    "owner" Joins.empty

def joinsAgain : Joins :=
  (Joins.empty.join "owner" Joins.empty).join "plant"
    ((Joins.empty.join "pot" Joins.empty).join "bed" Joins.empty)

def query : Query := .and (.hash asked) (.not (.scope ⟨"sold"⟩))

def queryAgain : Query := .and (.hash askedAgain) (.not (.scope ⟨"sold"⟩))

def bed : Record := (Record.ofId "Bed" (.integer 3)).set "area" (.integer 4)

def house : Record :=
  ((Record.ofId "House" (.integer 1)).set "heated" (.boolean true)).associate "plant"
    (.many [Record.ofId "Plant" (.integer 2),
      (Record.ofId "Plant" (.integer 2)).associate "bed" (.one bed)])

def catalogue : MemoryStore := MemoryStore.empty.insert house

end Greenhouse

theorem Conditions.greenhouse_asked_again :
    (Greenhouse.asked.Distinct ∧ Greenhouse.askedAgain.Distinct ∧
      Greenhouse.asked.same Greenhouse.askedAgain = true) ∧
    Greenhouse.askedAgain.same Greenhouse.asked = true ∧
    Greenhouse.askedAgain.same Greenhouse.askedAgain = true ∧
    Greenhouse.asked.holdFor Greenhouse.house = Greenhouse.askedAgain.holdFor Greenhouse.house ∧
    Greenhouse.joins.covers Greenhouse.asked = Greenhouse.joins.covers Greenhouse.askedAgain ∧
    (Joins.ofConditions Greenhouse.asked).same (Joins.ofConditions Greenhouse.askedAgain) = true ∧
    (Greenhouse.joins.Distinct ∧ Greenhouse.joinsAgain.Distinct ∧
      Greenhouse.query.same Greenhouse.queryAgain = true ∧
      Greenhouse.joins.same Greenhouse.joinsAgain = true) ∧
    (Greenhouse.catalogue.withScope "sold" fun _ => false).select "House" Greenhouse.queryAgain
      Greenhouse.joinsAgain = .ok [Greenhouse.house] ∧
    (∃ fault, Greenhouse.catalogue.select "House" Greenhouse.queryAgain Greenhouse.joinsAgain =
      .error fault) ∧
    Condition.same (.anyOf [.integer 1, .null]) (.anyOf [.null, .integer 1]) = false := by
  have distinct : Greenhouse.asked.Distinct := by decide
  have distinctAgain : Greenhouse.askedAgain.Distinct := by decide
  have joins : Greenhouse.joins.Distinct := (Joins.distinct_empty.join _ _).join _ _
  have joinsAgain : Greenhouse.joinsAgain.Distinct := (Joins.distinct_empty.join _ _).join _ _
  have query : Greenhouse.query.Distinct := List.forall_mem_singleton.mpr distinct
  have queryAgain : Greenhouse.queryAgain.Distinct := List.forall_mem_singleton.mpr distinctAgain
  obtain ⟨_, reflexive, symmetric, _, alike, selections⟩ := equality_is_congruence
  obtain ⟨holds, covered, needed⟩ := alike _ _ distinct distinctAgain rfl
  have selected := selections _ _ _ _ query queryAgain joins joinsAgain rfl rfl
  refine ⟨⟨distinct, distinctAgain, rfl⟩, symmetric _ _ distinct distinctAgain rfl,
    reflexive _ distinctAgain, holds _, covered _, needed, ⟨joins, joinsAgain, rfl, rfl⟩, ?_, ?_,
    rfl⟩
  · exact ((selected _ "House").1 _).mp rfl
  · exact (selected _ "House").2.mp ⟨.unknownScope "sold", rfl⟩

end Permit
