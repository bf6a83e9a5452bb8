/-
Module: Permit.Joins
Layer: Data
Purpose: The associations that a store has to join before it can decide nested conditions, as a
  forest of names. Joining a name that is already there merges what is nested under it, so that a
  shared association stands once however many conditions follow it.
Main exports: Joins, Joins.merge, Joins.join, Joins.ofConditions, Joins.covers, Joins.same,
  Joins.display
-/
import Permit.Condition

namespace Permit

/-- A forest of association names in the order in which they were first joined. -/
structure Joins where
  children : List (String × Joins)
deriving Repr, Inhabited

namespace Joins

/-- The forest that joins nothing. -/
def empty : Joins := ⟨[]⟩

/-- Nothing is joined. -/
def isEmpty (joins : Joins) : Bool := joins.children.isEmpty

/-- The joins nested under a name. -/
def get? (joins : Joins) (name : String) : Option Joins := Entries.get? joins.children name

@[simp] theorem get?_nil (name : String) : get? ⟨[]⟩ name = none := rfl

/-- The first tree hides those of the same name behind it. -/
theorem get?_cons (known : String) (nested : Joins) (rest : List (String × Joins))
    (name : String) :
    get? ⟨(known, nested) :: rest⟩ name = if known = name then some nested else get? ⟨rest⟩ name :=
  Entries.get?_cons known nested rest name

/-- The joins reached by following names one after another. -/
def follow? (joins : Joins) : List String → Option Joins
  | [] => some joins
  | name :: rest => (joins.get? name).bind (fun nested => nested.follow? rest)

/-- Put joins under a name. -/
def put (joins : Joins) (name : String) (nested : Joins) : Joins :=
  ⟨Entries.put joins.children name nested⟩

mutual

/-- All joins of both forests: the left names keep their places, new ones follow. -/
def merge (left : Joins) : Joins → Joins
  | ⟨children⟩ => left.mergeAll children

/-- Merge the trees of a forest one after another. -/
def mergeAll (left : Joins) : List (String × Joins) → Joins
  | [] => left
  | (name, nested) :: rest =>
      (left.put name (((left.get? name).getD empty).merge nested)).mergeAll rest

end

/-- Join a name, merging what is nested under it with what is already there. -/
def join (joins : Joins) (name : String) (nested : Joins) : Joins :=
  joins.put name (((joins.get? name).getD empty).merge nested)

end Joins

/-!
### Joins that conditions need
-/

mutual

/-- Joins with those added that a condition under a name needs. -/
def Condition.addJoins (name : String) (joins : Joins) : Condition → Joins
  | .equals _ => joins
  | .anyOf _ => joins
  | .nested conditions => joins.join name (Conditions.addJoins Joins.empty conditions)

/-- Joins with those added that conditions need. -/
def Conditions.addJoins (joins : Joins) : Conditions → Joins
  | [] => joins
  | (name, condition) :: rest => Conditions.addJoins (condition.addJoins name joins) rest

end

mutual

/-- A condition under a name follows joined associations only. -/
def Condition.coveredAt (name : String) (joins : Joins) : Condition → Bool
  | .equals _ => true
  | .anyOf _ => true
  | .nested conditions =>
      match joins.get? name with
      | some nested => Conditions.coveredBy nested conditions
      | none => false

/-- Conditions follow joined associations only. -/
def Conditions.coveredBy (joins : Joins) : Conditions → Bool
  | [] => true
  | (name, condition) :: rest =>
      condition.coveredAt name joins && Conditions.coveredBy joins rest

end

namespace Joins

/-- The joins that conditions need. -/
def ofConditions (conditions : Conditions) : Joins :=
  Conditions.addJoins empty conditions

/-- Every association that the conditions follow is joined. -/
def covers (joins : Joins) (conditions : Conditions) : Bool :=
  Conditions.coveredBy joins conditions

/-- Conditions are covered where each of them is. -/
theorem covers_eq_all (joins : Joins) (conditions : Conditions) :
    joins.covers conditions =
      conditions.all (fun entry => entry.2.coveredAt entry.1 joins) := by
  induction conditions with
  | nil => rfl
  | cons entry rest ih =>
      obtain ⟨name, condition⟩ := entry
      have tail : Conditions.coveredBy joins rest =
          rest.all (fun entry => entry.2.coveredAt entry.1 joins) := ih
      rw [covers, Conditions.coveredBy, tail, List.all_cons]

/-- Merging a forest joins its trees one after another. -/
theorem mergeAll_cons (left : Joins) (name : String) (nested : Joins)
    (rest : List (String × Joins)) :
    left.mergeAll ((name, nested) :: rest) = (left.join name nested).mergeAll rest := by
  rw [mergeAll, join]

/-!
### Equality up to order
-/

mutual

/-- The same names at every level, in any order. -/
def same : Joins → Joins → Bool
  | ⟨children⟩, others => children.length == others.children.length && foundIn others children

/-- The other forest holds the same under each name. -/
def foundIn (others : Joins) : List (String × Joins) → Bool
  | [] => true
  | (name, nested) :: rest =>
      (match others.get? name with
        | some other => nested.same other
        | none => false) && foundIn others rest

end

/-!
### Text
-/

mutual

/-- The names in square brackets, each with what is nested under it. -/
def display : Joins → String
  | ⟨children⟩ => "[" ++ ", ".intercalate (displayEach children) ++ "]"

/-- Each name, followed by its nested joins if there are any. -/
def displayEach : List (String × Joins) → List String
  | [] => []
  | (name, nested) :: rest =>
      (if nested.isEmpty then name else name ++ ": " ++ nested.display) :: displayEach rest

end

end Joins

end Permit
