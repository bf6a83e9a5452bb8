/-
Module: Permit.Proofs.Condition.Equality
Layer: Proofs
Purpose: Equality of conditions up to order. Where no name is repeated, conditions are equal in this
  sense exactly where they make the same demand under the same name below the same path, and so
  equality is an equivalence. It is a congruence as well: equal conditions hold for the same
  objects, follow the same paths, are covered by the same forests and need equal joins.
Main exports: Condition.Agrees, Conditions.same_iff, Demand, Conditions.demandAt?,
  Conditions.same_iff_demands, Conditions.same_refl, Conditions.same_symm, Conditions.same_trans,
  Conditions.Reordered, Conditions.Reordered.holdFor_eq, Conditions.Reordered.follows_iff,
  Joins.covers_of_reordered, Joins.same_ofConditions
-/
import Permit.Proofs.Condition.Choices
import Permit.Proofs.Joins.Equality

namespace Permit

/-!
### The comparison, one level at a time
-/

/-- Two conditions of one kind that ask for the same value or offer the same values in the same
    order, and have related conditions nested in them. -/
inductive Condition.Agrees (related : Conditions → Conditions → Prop) :
    Condition → Condition → Prop where
  | equals (value : Value) : Agrees related (.equals value) (.equals value)
  | anyOf (values : List Value) : Agrees related (.anyOf values) (.anyOf values)
  | nested {inner other : Conditions} (below : related inner other) :
      Agrees related (.nested inner) (.nested other)

namespace Condition

variable {condition other : Condition}

/-- Conditions are compared by kind, equalities and choices as they stand and nested conditions up
    to order again. -/
theorem same_iff :
    condition.same other = true ↔
      Agrees (fun inner others => inner.same others = true) condition other := by
  constructor
  · intro equal
    cases condition <;> cases other <;> simp only [same, beq_iff_eq, Bool.false_eq_true] at equal
    · exact equal ▸ .equals _
    · exact equal ▸ .anyOf _
    · exact .nested equal
  · intro agrees
    cases agrees with
    | equals value => exact beq_self_eq_true value
    | anyOf values => exact beq_self_eq_true values
    | nested below => exact below

/-- Only conditions that are nested on both sides are compared. -/
theorem agrees_congr {related linked : Conditions → Conditions → Prop}
    (alike : ∀ inner others, condition = .nested inner → other = .nested others →
      (related inner others ↔ linked inner others)) :
    Agrees related condition other ↔ Agrees linked condition other := by
  constructor
  · intro agrees
    cases agrees with
    | equals value => exact .equals value
    | anyOf values => exact .anyOf values
    | nested below => exact .nested ((alike _ _ rfl rfl).mp below)
  · intro agrees
    cases agrees with
    | equals value => exact .equals value
    | anyOf values => exact .anyOf values
    | nested below => exact .nested ((alike _ _ rfl rfl).mpr below)

end Condition

namespace Conditions

variable {left middle right : Conditions}

/-- Each condition on the one side has to find its equal under its own name on the other. -/
theorem foundIn_eq_all (others conditions : Conditions) :
    others.foundIn conditions =
      conditions.all (fun entry => (Entries.get? others entry.1).any entry.2.same) := by
  induction conditions with
  | nil => rfl
  | cons entry rest ih =>
      obtain ⟨name, condition⟩ := entry
      rw [foundIn, ih, List.all_cons]
      cases Entries.get? others name <;> rfl

/-- Conditions are compared like all entries. -/
theorem same_eq_sameBy (left right : Conditions) :
    left.same right = Entries.sameBy Condition.same left right := by
  rw [same, foundIn_eq_all]
  rfl

/-- There are as many conditions on both sides, and each on the left has its equal under the same
    name on the right. -/
theorem same_iff_found :
    left.same right = true ↔ left.length = right.length ∧
      ∀ entry ∈ left, ∃ other, Entries.get? right entry.1 = some other ∧
        entry.2.same other = true := by
  rw [same_eq_sameBy, Entries.sameBy_iff_found]

/-- Equal conditions have equal ones under each name. -/
theorem same_iff (leftDistinct : left.Distinct) (rightDistinct : right.Distinct) :
    left.same right = true ↔
      Entries.Matches (Condition.Agrees fun inner other => inner.same other = true) left right := by
  rw [same_eq_sameBy, Entries.sameBy_iff leftDistinct.1 rightDistinct.1]
  simp only [Condition.same_iff]

/-- What holds of conditions if it holds of those nested in them holds of all conditions. -/
@[elab_as_elim]
theorem nesting_induction {motive : Conditions → Prop}
    (level : ∀ conditions : Conditions,
      (∀ name inner, (name, Condition.nested inner) ∈ conditions → motive inner) →
      motive conditions)
    (conditions : Conditions) : motive conditions :=
  level conditions fun _name inner _member => nesting_induction level inner
termination_by sizeOf conditions
decreasing_by
  have smaller := List.sizeOf_lt_of_mem _member
  simp at smaller
  omega

end Conditions

/-!
### Demands

Conditions read as what is asked at each place. Two sets of conditions ask the same everywhere just
where they are equal, so that equality has no more to it than an equation.
-/

/-- What a condition asks, apart from what is nested in it. -/
inductive Demand where
  | equals (value : Value)
  | anyOf (values : List Value)
  | nested
deriving DecidableEq

/-- What the condition itself asks. -/
def Condition.demand : Condition → Demand
  | .equals value => .equals value
  | .anyOf values => .anyOf values
  | .nested _ => .nested

namespace Conditions

variable {left middle right : Conditions}

/-- What is asked under a name below the nested conditions of a path. -/
def demandAt? (conditions : Conditions) (path : List String) (name : String) : Option Demand :=
  (conditions.conditionAt? path name).map Condition.demand

/-- The same is asked everywhere where conditions of the same kind stand under each name, with the
    same asked everywhere in those nested on both sides. -/
theorem demands_iff_matches :
    (∀ path name, left.demandAt? path name = right.demandAt? path name) ↔
      Entries.Matches (Condition.Agrees fun inner others =>
        ∀ path name, inner.demandAt? path name = others.demandAt? path name) left right := by
  constructor
  · intro demands name
    have here := demands [] name
    simp only [demandAt?, conditionAt?] at here
    cases found : Entries.get? left name with
    | none =>
        rw [found, Option.map_none, eq_comm, Option.map_eq_none_iff] at here
        rw [here]
        exact .none
    | some condition =>
        rw [found, Option.map_some, eq_comm, Option.map_eq_some_iff] at here
        obtain ⟨other, foundOther, demanded⟩ := here
        rw [foundOther]
        apply Option.Rel.some
        cases condition <;> cases other <;> cases demanded
        · exact .equals _
        · exact .anyOf _
        · refine .nested fun path below => ?_
          simpa only [demandAt?, conditionAt?, found, foundOther] using demands (name :: path) below
  · intro matched path name
    cases path with
    | nil =>
        rw [demandAt?, demandAt?, conditionAt?, conditionAt?]
        rcases matched.cases name with ⟨here, there⟩ | ⟨condition, other, here, there, agrees⟩
        · rw [here, there]
        · rw [here, there]
          cases agrees <;> rfl
    | cons next path =>
        rw [demandAt?, demandAt?, conditionAt?, conditionAt?]
        rcases matched.cases next with ⟨here, there⟩ | ⟨condition, other, here, there, agrees⟩
        · rw [here, there]
        · rw [here, there]
          cases agrees with
          | equals => rfl
          | anyOf => rfl
          | nested below => exact below path name

/-- Conditions are equal up to order exactly where they ask the same everywhere. -/
theorem same_iff_demands (leftDistinct : left.Distinct) (rightDistinct : right.Distinct) :
    left.same right = true ↔
      ∀ path name, left.demandAt? path name = right.demandAt? path name := by
  induction left using nesting_induction generalizing right with
  | level left ih =>
      rw [same_iff leftDistinct rightDistinct, demands_iff_matches]
      apply Entries.matches_congr
      intro name condition other here there
      apply Condition.agrees_congr
      rintro inner others rfl rfl
      exact ih name inner (Entries.mem_of_get? here) (leftDistinct.nested here)
        (rightDistinct.nested there)

/-- Equality is reflexive where no name is repeated. Conditions that repeat a name need not be equal
    to themselves, since look-up finds the first of that name only. -/
theorem same_refl (distinct : left.Distinct) : left.same left = true :=
  (same_iff_demands distinct distinct).mpr fun _ _ => rfl

/-- Equality is symmetric, although the comparison goes through the names of one side only. -/
theorem same_symm (leftDistinct : left.Distinct) (rightDistinct : right.Distinct)
    (equal : left.same right = true) : right.same left = true := by
  rw [same_iff_demands leftDistinct rightDistinct] at equal
  rw [same_iff_demands rightDistinct leftDistinct]
  exact fun path name => (equal path name).symm

/-- Equality is transitive. -/
theorem same_trans (leftDistinct : left.Distinct) (middleDistinct : middle.Distinct)
    (rightDistinct : right.Distinct) (first : left.same middle = true)
    (second : middle.same right = true) : left.same right = true := by
  rw [same_iff_demands leftDistinct middleDistinct] at first
  rw [same_iff_demands middleDistinct rightDistinct] at second
  rw [same_iff_demands leftDistinct rightDistinct]
  exact fun path name => (first path name).trans (second path name)

/-!
### What equal conditions share

The comparison runs through the names of the left side only. So each fact is proved in one direction
first, and the other one is the same fact about the right side and the left.
-/

/-- Conditions hold where equal ones do. -/
theorem holdFor_of_same {ρ : Type} [Resource ρ] {object : ρ} (equal : left.same right = true)
    (holds : right.holdFor object = true) : left.holdFor object = true := by
  induction left using nesting_induction generalizing right object with
  | level left ih =>
      rw [holdFor_eq_all, List.all_eq_true] at holds ⊢
      rintro ⟨name, condition⟩ member
      obtain ⟨other, found, agree⟩ := (same_iff_found.mp equal).2 _ member
      have otherHolds := holds _ (Entries.mem_of_get? found)
      cases Condition.same_iff.mp agree with
      | equals => exact otherHolds
      | anyOf => exact otherHolds
      | nested below =>
          simp only [Condition.holdsAt, List.any_eq_true] at otherHolds ⊢
          obtain ⟨reached, related, met⟩ := otherHolds
          exact ⟨reached, related, ih name _ member below met⟩

/-- Conditions follow the paths that equal ones follow. -/
theorem follows_of_same {path : List String} (equal : left.same right = true)
    (follows : left.Follows path) : right.Follows path := by
  induction path generalizing left right with
  | nil => trivial
  | cons name path ih =>
      obtain ⟨inner, member, onward⟩ := follows
      obtain ⟨other, found, agree⟩ := (same_iff_found.mp equal).2 _ member
      cases Condition.same_iff.mp agree with
      | nested below => exact ⟨_, Entries.mem_of_get? found, ih below onward⟩

/-- Conditions without repeated names that are equal up to order. -/
structure Reordered (left right : Conditions) : Prop where
  leftDistinct : left.Distinct
  rightDistinct : right.Distinct
  equal : left.same right = true

namespace Reordered

/-- The sides of an equality may change places. -/
theorem symm (reordered : left.Reordered right) : right.Reordered left where
  leftDistinct := reordered.rightDistinct
  rightDistinct := reordered.leftDistinct
  equal := same_symm reordered.leftDistinct reordered.rightDistinct reordered.equal

/-- Equal conditions hold for the same objects. -/
theorem holdFor_eq {ρ : Type} [Resource ρ] (reordered : left.Reordered right) (object : ρ) :
    left.holdFor object = right.holdFor object := by
  rw [Bool.eq_iff_iff]
  exact ⟨holdFor_of_same reordered.symm.equal, holdFor_of_same reordered.equal⟩

/-- Equal conditions follow the same paths of associations. -/
theorem follows_iff (reordered : left.Reordered right) (path : List String) :
    left.Follows path ↔ right.Follows path :=
  ⟨follows_of_same reordered.equal, follows_of_same reordered.symm.equal⟩

end Reordered

end Conditions

namespace Joins

variable {left right : Conditions}

/-- Equal conditions are covered by the same forests. -/
theorem covers_of_reordered (reordered : left.Reordered right) (joins : Joins) :
    joins.covers left = joins.covers right := by
  rw [Bool.eq_iff_iff, covers, covers, Conditions.coveredBy_iff, Conditions.coveredBy_iff]
  exact forall_congr' fun path => imp_congr_left (reordered.follows_iff path)

/-- Equal forests cover the same conditions. -/
theorem covers_of_same {joins others : Joins} (distinct : joins.Distinct)
    (othersDistinct : others.Distinct) (equal : joins.same others = true)
    (conditions : Conditions) : joins.covers conditions = others.covers conditions := by
  rw [same_iff_reaches distinct othersDistinct] at equal
  rw [Bool.eq_iff_iff, covers, covers, Conditions.coveredBy_iff, Conditions.coveredBy_iff]
  exact forall_congr' fun path => imp_congr_right fun _ => equal path

/-- Equal conditions need equal joins. -/
theorem same_ofConditions (reordered : left.Reordered right) :
    (ofConditions left).same (ofConditions right) = true := by
  rw [same_iff_reaches (distinct_ofConditions left) (distinct_ofConditions right)]
  intro path
  rw [reaches_ofConditions_iff, reaches_ofConditions_iff]
  exact reordered.follows_iff path

end Joins

end Permit
