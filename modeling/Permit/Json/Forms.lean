/-
Module: Permit.Json.Forms
Layer: Json
Purpose: The JSON forms of the data that policies are declared with, and their readers. Values and
  conditions are told apart by shape alone; fragments, scopes and settings have named fields, and a
  polarity is its name.
Main exports: Value.toJson, Value.ofJson?, Conditions.toJson, Conditions.ofJson?, Conditions.toText,
  Conditions.ofText?, Fragment.toText, Fragment.ofText?, Scope.toText, Scope.ofText?,
  Polarity.toText, Polarity.ofText?, Settings.toText, Settings.read?, Settings.ofText
-/
import Permit.Json
import Permit.Rule

namespace Permit

/-- How deep a document that holds conditions may be nested. -/
def Json.depthLimit : Nat := 127

/-!
### Values
-/

namespace Value

/-- A value as a document. -/
def toJson : Value → Json
  | .null => .null
  | .boolean b => .boolean b
  | .integer n => .integer n.toInt
  | .text s => .string s

/-- The value that a document holds. A number has to fit into 64 bits. -/
def ofJson? : Json → Option Value
  | .null => some .null
  | .boolean b => some (.boolean b)
  | .integer n =>
      if Int64.minValue.toInt ≤ n ∧ n ≤ Int64.maxValue.toInt then some (.integer (Int64.ofInt n))
      else none
  | .string s => some (.text s)
  | _ => none

/-- The JSON text of a value. -/
def toText (value : Value) : String := value.toJson.toText

/-- The value that a JSON text holds. -/
def ofText? (text : String) : Option Value := (Json.ofText? text).bind ofJson?

end Value

/-!
### Conditions

A plain value is an equality, an array of values a choice, an object nested conditions. Conditions
are read only from documents that are nested at most `depthLimit` deep; of a repeated name the last
condition counts, in the first place.
-/

mutual

/-- A condition as a document. -/
def Condition.toJson : Condition → Json
  | .equals value => value.toJson
  | .anyOf values => .array (values.map Value.toJson)
  | .nested conditions => .object (Conditions.toMembers conditions)

/-- Conditions as members of an object. -/
def Conditions.toMembers : Conditions → List (String × Json)
  | [] => []
  | (name, condition) :: rest => (name, condition.toJson) :: Conditions.toMembers rest

end

mutual

/-- The condition that a document holds. -/
def Condition.ofJson? : Json → Option Condition
  | .array items => (items.mapM Value.ofJson?).map .anyOf
  | .object members =>
      (Conditions.ofMembers? members).map (fun conditions => .nested (Entries.ofList conditions))
  | document => (Value.ofJson? document).map .equals

/-- The conditions that the members of an object hold, in order and with repeated names. -/
def Conditions.ofMembers? : List (String × Json) → Option (List (String × Condition))
  | [] => some []
  | (name, value) :: rest =>
      match Condition.ofJson? value, Conditions.ofMembers? rest with
      | some condition, some conditions => some ((name, condition) :: conditions)
      | _, _ => none

end

/-- The document of a text, if it is not nested too deep to hold conditions. -/
def Json.ofShallowText? (text : String) : Option Json :=
  (Json.ofText? text).filter (fun document => document.depth ≤ Json.depthLimit)

/-- The JSON text of a condition. -/
def Condition.toText (condition : Condition) : String := condition.toJson.toText

/-- The condition that a JSON text holds. -/
def Condition.ofText? (text : String) : Option Condition :=
  (Json.ofShallowText? text).bind Condition.ofJson?

namespace Conditions

/-- Conditions as a document. -/
def toJson (conditions : Conditions) : Json := .object conditions.toMembers

/-- The conditions that a document holds. -/
def ofJson? : Json → Option Conditions
  | .object members => (ofMembers? members).map Entries.ofList
  | _ => none

/-- The JSON text of conditions. -/
def toText (conditions : Conditions) : String := conditions.toJson.toText

/-- The conditions that a JSON text holds. -/
def ofText? (text : String) : Option Conditions :=
  (Json.ofShallowText? text).bind ofJson?

end Conditions

/-!
### Fragments and scopes

Every field has to be there.
-/

namespace Fragment

/-- A fragment as a document. -/
def toJson (fragment : Fragment) : Json :=
  .object [("text", .string fragment.text),
    ("parameters", .array (fragment.parameters.map Value.toJson))]

/-- The values of an array. -/
def parameters? : Json → Option (List Value)
  | .array items => items.mapM Value.ofJson?
  | _ => none

/-- The fragment that a document holds. -/
def ofJson? (document : Json) : Option Fragment :=
  match document.fields? ["text", "parameters"] with
  | some [some text, some parameters] =>
      match text.text?, parameters? parameters with
      | some text, some parameters => some ⟨text, parameters⟩
      | _, _ => none
  | _ => none

/-- The JSON text of a fragment. -/
def toText (fragment : Fragment) : String := fragment.toJson.toText

/-- The fragment that a JSON text holds. -/
def ofText? (text : String) : Option Fragment := (Json.ofText? text).bind ofJson?

end Fragment

namespace Scope

/-- A scope as a document. -/
def toJson (scope : Scope) : Json := .object [("name", .string scope.name)]

/-- The scope that a document holds. -/
def ofJson? (document : Json) : Option Scope :=
  match document.fields? ["name"] with
  | some [some name] => name.text?.map Scope.mk
  | _ => none

/-- The JSON text of a scope. -/
def toText (scope : Scope) : String := scope.toJson.toText

/-- The scope that a JSON text holds. -/
def ofText? (text : String) : Option Scope := (Json.ofText? text).bind ofJson?

end Scope

/-!
### Polarities

A polarity is its name, or an object with nothing but null under that name.
-/

namespace Polarity

/-- The name of a polarity. -/
def name : Polarity → String
  | .allow => "allow"
  | .deny => "deny"

/-- The polarity of a name. -/
def ofName? (name : String) : Option Polarity :=
  if name = "allow" then some .allow
  else if name = "deny" then some .deny
  else none

/-- The polarity that a document holds. -/
def ofJson? : Json → Option Polarity
  | .string name => ofName? name
  | .object [(name, .null)] => ofName? name
  | _ => none

/-- The JSON text of a polarity. -/
def toText (polarity : Polarity) : String := (Json.string polarity.name).toText

/-- The polarity that a JSON text holds. -/
def ofText? (text : String) : Option Polarity := (Json.ofText? text).bind ofJson?

end Polarity

/-!
### Settings

A missing field has its standard value. Of a repeated alias the last definition counts, in the first
place. Settings from outside are checked after they are read.
-/

namespace Settings

/-- Settings as a document. -/
def toJson (settings : Settings) : Json :=
  .object [
    ("aliases", .object (settings.aliases.map (fun entry =>
      (entry.1, .array (entry.2.map Json.string))))),
    ("unauthorized_message", .string settings.unauthorizedMessage)]

/-- One alias of an object of aliases. -/
def aliasOfMember? (member : String × Json) : Option (String × List String) :=
  member.2.texts?.map (fun targets => (member.1, targets))

/-- The aliases that an object holds. -/
def aliases? : Json → Option (Entries (List String))
  | .object members => (members.mapM aliasOfMember?).map Entries.ofList
  | _ => none

/-- What a reader makes of a field, or a standard value if the field is missing. -/
def fieldOr {α : Type} (standard : α) (read? : Json → Option α) : Option Json → Option α
  | none => some standard
  | some document => read? document

/-- The settings that a document holds, valid or not. -/
def ofJson? (document : Json) : Option Settings :=
  match document.fields? ["aliases", "unauthorized_message"] with
  | some [aliasField, messageField] =>
      match fieldOr standard.aliases aliases? aliasField,
          fieldOr standard.unauthorizedMessage Json.text? messageField with
      | some aliases, some message => some ⟨aliases, message⟩
      | _, _ => none
  | _ => none

/-- The JSON text of settings. -/
def toText (settings : Settings) : String := settings.toJson.toText

/-- The settings that a JSON text holds, valid or not. -/
def read? (text : String) : Option Settings := (Json.ofText? text).bind ofJson?

/-- The valid settings that a JSON text holds. -/
def ofText (text : String) : Except SettingsFault Settings :=
  match read? text with
  | none => .error .unreadable
  | some settings => settings.checked

end Settings

end Permit
