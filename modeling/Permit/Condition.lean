/-
Module: Permit.Condition
Layer: Data
Purpose: Attribute values, what the engine asks of the objects whose permissions are checked, and
  conditions on them. Conditions are the only predicates that the engine understands on both sides:
  it can compare them with an object, and a store can turn them into a query. They keep the order in
  which they were declared, so that queries and joins come out in that order, but two sets of
  conditions are the same whatever their order.
Main exports: Value, Value.display, Related, Resource, Resource.attr, Resource.related, Condition,
  Conditions, Condition.holdsAt, Conditions.holdFor, Condition.same, Conditions.same,
  Conditions.Distinct, Conditions.allDistinct_iff, Conditions.display
-/
import Permit.Entries
import Permit.Text

namespace Permit

/-!
### Values
-/

/-- A literal attribute value. An absent attribute reads as `null`. -/
inductive Value where
  | null
  | boolean (value : Bool)
  | integer (value : Int64)
  | text (value : String)
deriving DecidableEq, Repr, Inhabited

namespace Value

/-- The value is null. -/
def isNull : Value → Bool
  | .null => true
  | _ => false

instance : Coe Bool Value := ⟨.boolean⟩

instance : Coe Int64 Value := ⟨.integer⟩

instance : Coe String Value := ⟨.text⟩

/-- A narrower signed number as a value. -/
def ofInt32 (n : Int32) : Value := .integer n.toInt64

/-- A narrower unsigned number as a value. -/
def ofUInt32 (n : UInt32) : Value := .integer n.toUInt64.toInt64

/-- What is not there is null. -/
def ofOption {α : Type} (value : α → Value) : Option α → Value
  | some a => value a
  | none => .null

/-- How a value reads in texts: a text in quotes, all else plain. -/
def display : Value → String
  | .null => "null"
  | .boolean true => "true"
  | .boolean false => "false"
  | .integer n => String.ofList (Decimal.write n.toInt)
  | .text s => Quoted.quote s

/-- Values in square brackets. -/
def displayList (values : List Value) : String :=
  "[" ++ ", ".intercalate (values.map display) ++ "]"

end Value

/-!
### Objects

The engine never fetches an object itself: it reads a subject type and attributes, and follows
associations by name.
-/

/-- What an association reaches: one object or a collection of objects. -/
inductive Related (ρ : Type) where
  | one (object : ρ)
  | many (objects : List ρ)
deriving Repr

/-- The objects that an association reaches. -/
def Related.objects {ρ : Type} : Related ρ → List ρ
  | .one object => [object]
  | .many objects => objects

/-- An object whose permissions can be checked. -/
class Resource (ρ : Type) where
  /-- The type that rules name, such as `Article`. -/
  subjectType : ρ → String
  /-- An attribute, if the object has it. -/
  attr? : ρ → String → Option Value
  /-- An association, if it is set. -/
  related? : ρ → String → Option (Related ρ)

namespace Resource

variable {ρ : Type} [Resource ρ]

/-- An attribute, an absent one reading as null. -/
def attr (object : ρ) (name : String) : Value :=
  (attr? object name).getD .null

/-- The objects under an association, none if it is not set. -/
def related (object : ρ) (name : String) : List ρ :=
  ((related? object name).map Related.objects).getD []

end Resource

/-!
### Conditions
-/

/-- What is expected under one name. -/
inductive Condition where
  /-- The attribute equals the value. -/
  | equals (value : Value)
  /-- The attribute equals one of the values. -/
  | anyOf (values : List Value)
  /-- Some object under the association meets all the conditions. -/
  | nested (conditions : List (String × Condition))
deriving Repr, Inhabited

/-- Conditions under the names of attributes and associations. -/
abbrev Conditions := Entries Condition

/-!
### Matching
-/

section Matching

variable {ρ : Type} [Resource ρ]

mutual

/-- The condition, declared under a name, holds for an object. -/
def Condition.holdsAt (name : String) (object : ρ) : Condition → Bool
  | .equals value => Resource.attr object name == value
  | .anyOf values => values.contains (Resource.attr object name)
  | .nested conditions =>
      (Resource.related object name).any (fun other => Conditions.holdFor conditions other)

/-- All the conditions hold for an object. -/
def Conditions.holdFor : Conditions → ρ → Bool
  | [], _ => true
  | (name, condition) :: rest, object =>
      condition.holdsAt name object && Conditions.holdFor rest object

end

/-- Conditions hold where each of them does. -/
theorem Conditions.holdFor_eq_all (conditions : Conditions) (object : ρ) :
    conditions.holdFor object =
      conditions.all (fun entry => entry.2.holdsAt entry.1 object) := by
  induction conditions with
  | nil => rfl
  | cons entry rest ih =>
      obtain ⟨name, condition⟩ := entry
      rw [Conditions.holdFor, ih, List.all_cons]

end Matching

/-!
### Equality up to order

The order of names does not count, at any depth. The order of the values of an `anyOf` does.
-/

mutual

/-- Two conditions ask the same. -/
def Condition.same : Condition → Condition → Bool
  | .equals value, .equals other => value == other
  | .anyOf values, .anyOf others => values == others
  | .nested conditions, .nested others =>
      conditions.length == others.length && Conditions.foundIn others conditions
  | _, _ => false

/-- The other conditions ask the same under each name. -/
def Conditions.foundIn (others : Conditions) : Conditions → Bool
  | [] => true
  | (name, condition) :: rest =>
      (match Entries.get? others name with
        | some other => condition.same other
        | none => false) && Conditions.foundIn others rest

end

/-- As many names on both sides, and the same asked under each. -/
def Conditions.same (conditions others : Conditions) : Bool :=
  conditions.length == others.length && Conditions.foundIn others conditions

/-!
### Unique names at every depth
-/

mutual

/-- No name occurs twice at any level below. -/
def Condition.Distinct : Condition → Prop
  | .equals _ => True
  | .anyOf _ => True
  | .nested conditions => Entries.Unique conditions ∧ Conditions.AllDistinct conditions

/-- No name occurs twice at any level below any of the conditions. -/
def Conditions.AllDistinct : Conditions → Prop
  | [] => True
  | (_, condition) :: rest => condition.Distinct ∧ Conditions.AllDistinct rest

end

/-- No name occurs twice at any level. -/
def Conditions.Distinct (conditions : Conditions) : Prop :=
  conditions.Unique ∧ Conditions.AllDistinct conditions

mutual

/-- Repeated names below a condition can be looked for. -/
def Condition.decideDistinct : (condition : Condition) → Decidable condition.Distinct
  | .equals _ => isTrue trivial
  | .anyOf _ => isTrue trivial
  | .nested conditions =>
      have := Conditions.decideAllDistinct conditions
      inferInstanceAs (Decidable (Entries.Unique conditions ∧ Conditions.AllDistinct conditions))

/-- Repeated names below any of the conditions can be looked for. -/
def Conditions.decideAllDistinct :
    (conditions : Conditions) → Decidable (Conditions.AllDistinct conditions)
  | [] => isTrue trivial
  | (_, condition) :: rest =>
      have := condition.decideDistinct
      have := Conditions.decideAllDistinct rest
      inferInstanceAs (Decidable (condition.Distinct ∧ Conditions.AllDistinct rest))

end

instance (conditions : Conditions) : Decidable conditions.Distinct :=
  have := Conditions.decideAllDistinct conditions
  inferInstanceAs (Decidable (conditions.Unique ∧ Conditions.AllDistinct conditions))

/-- The recursive definition over conditions says the same as a bounded quantifier. -/
theorem Conditions.allDistinct_iff {conditions : Conditions} :
    Conditions.AllDistinct conditions ↔ ∀ entry ∈ conditions, entry.2.Distinct := by
  induction conditions with
  | nil => simp [Conditions.AllDistinct]
  | cons entry rest ih => simp [Conditions.AllDistinct, ih]

/-- No name occurs twice in conditions nested in those where none does. -/
theorem Conditions.Distinct.nested {conditions inner : Conditions} {name : String}
    (distinct : conditions.Distinct)
    (found : Entries.get? conditions name = some (.nested inner)) : inner.Distinct :=
  Conditions.allDistinct_iff.mp distinct.2 _ (Entries.mem_of_get? found)

/-!
### Text
-/

mutual

/-- How a condition reads. -/
def Condition.display : Condition → String
  | .equals value => value.display
  | .anyOf values => Value.displayList values
  | .nested conditions => "\x7b" ++ ", ".intercalate (Conditions.displayEach conditions) ++ "\x7d"

/-- How each condition reads after its name. -/
def Conditions.displayEach : Conditions → List String
  | [] => []
  | (name, condition) :: rest => (name ++ ": " ++ condition.display) :: Conditions.displayEach rest

end

/-- Conditions in braces. -/
def Conditions.display (conditions : Conditions) : String :=
  "\x7b" ++ ", ".intercalate (Conditions.displayEach conditions) ++ "\x7d"

end Permit
