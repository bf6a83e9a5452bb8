/-
Module: Permit.Record
Layer: Stores
Purpose: Plain objects with attributes and associated records, identified by their attribute `id`.
  Their full texts are for a person who inspects them.
Main exports: Record, Record.ofId, Record.set, Record.associate, Record.id, Record.same,
  Value.inspect, Record.inspect
-/
import Permit.Condition

namespace Permit

/-- A plain object. -/
structure Record where
  subjectType : String
  attributes : List (String × Value)
  associations : List (String × Related Record)
deriving Repr

namespace Record

/-- The attribute that identifies a record. -/
def idName : String := "id"

/-- A record with nothing but an identifier. -/
def ofId (subjectType : String) (id : Value) : Record := ⟨subjectType, [(idName, id)], []⟩

/-- Set an attribute. -/
def set (record : Record) (name : String) (value : Value) : Record :=
  { record with attributes := Entries.put record.attributes name value }

/-- Set an association. -/
def associate (record : Record) (name : String) (related : Related Record) : Record :=
  { record with associations := Entries.put record.associations name related }

instance : Resource Record where
  subjectType := subjectType
  attr? record name := Entries.get? record.attributes name
  related? record name := Entries.get? record.associations name

/-- The identifier, null if there is none. -/
def id (record : Record) : Value := Resource.attr record idName

/-!
### Equality up to order

The order of attributes and of associations does not count, the order of the records under one
association does.
-/

mutual

/-- The same type, attributes and associations. -/
def same : Record → Record → Bool
  | ⟨subjectType, attributes, associations⟩, other =>
      subjectType == other.subjectType &&
        Entries.sameBy (· == ·) attributes other.attributes &&
        associations.length == other.associations.length &&
        foundIn other.associations associations

/-- The other associations reach the same under each name. -/
def foundIn (others : List (String × Related Record)) : List (String × Related Record) → Bool
  | [] => true
  | (name, related) :: rest =>
      (match Entries.get? others name with
        | some other => sameRelated related other
        | none => false) && foundIn others rest

/-- Two associations reach the same. -/
def sameRelated : Related Record → Related Record → Bool
  | .one record, .one other => record.same other
  | .many records, .many others => sameEach records others
  | _, _ => false

/-- As many records on both sides, the same one after another. -/
def sameEach : List Record → List Record → Bool
  | [], [] => true
  | record :: rest, other :: others => record.same other && sameEach rest others
  | _, _ => false

end

end Record

/-!
### Full texts

Every value shows its kind, every map its names in order, and every text stands in quotes.
-/

/-- Items in square brackets. -/
def inspectList (items : List String) : String := "[" ++ ", ".intercalate items ++ "]"

/-- Items under quoted names, in braces. -/
def inspectMap (items : List (String × String)) : String :=
  "\x7b" ++ ", ".intercalate (items.map (fun item => Quoted.quote item.1 ++ ": " ++ item.2)) ++
    "\x7d"

/-- A value with its kind. -/
def Value.inspect : Value → String
  | .null => "Null"
  | .boolean b => "Boolean(" ++ (Value.boolean b).display ++ ")"
  | .integer n => "Integer(" ++ (Value.integer n).display ++ ")"
  | .text s => "Text(" ++ (Value.text s).display ++ ")"

namespace Record

mutual

/-- A record with all it holds. -/
def inspect : Record → String
  | ⟨subjectType, attributes, associations⟩ =>
      "Record \x7b subject_type: " ++ Quoted.quote subjectType ++
        ", attributes: " ++ inspectMap (attributes.map (fun entry => (entry.1, entry.2.inspect))) ++
        ", associations: " ++ inspectMap (inspectAssociations associations) ++ " \x7d"

/-- Each association under its name. -/
def inspectAssociations : List (String × Related Record) → List (String × String)
  | [] => []
  | (name, related) :: rest => (name, inspectRelated related) :: inspectAssociations rest

/-- One record or a collection. -/
def inspectRelated : Related Record → String
  | .one record => "One(" ++ record.inspect ++ ")"
  | .many records => "Many(" ++ inspectList (inspectEach records) ++ ")"

/-- Each record of a collection. -/
def inspectEach : List Record → List String
  | [] => []
  | record :: rest => record.inspect :: inspectEach rest

end

end Record

end Permit
