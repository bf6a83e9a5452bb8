/-
Module: Permit.Json
Layer: Json
Purpose: JSON documents as trees, their texts, and values with named fields. Objects keep their
  members in order and keep repeated names. A document is written without any blank between tokens,
  and read with those blanks that JSON allows. What no reader of this library can use, though it is
  JSON, stands as `unusable`.
Main exports: Json, Json.depth, Literal.quote, Literal.readString, Literal.readNumber, Json.render,
  Json.toText, Json.readValue, Json.ofText?, Json.fields?, Json.texts?
-/
import Permit.Text

namespace Permit

/-- A JSON document. -/
inductive Json where
  | null
  | boolean (value : Bool)
  /-- A number written without fraction and exponent, and not as a negative zero. -/
  | integer (value : Int)
  | string (text : String)
  | array (items : List Json)
  | object (members : List (String × Json))
  /-- Any other number, a string that names half of a surrogate pair, or an object with such a
      name. -/
  | unusable
deriving Repr, Inhabited

namespace Json

mutual

/-- How many arrays and objects stand one inside the other. -/
def depth : Json → Nat
  | .array items => depthOfItems items + 1
  | .object members => depthOfMembers members + 1
  | _ => 0

/-- The depth of the deepest item. -/
def depthOfItems : List Json → Nat
  | [] => 0
  | item :: rest => max item.depth (depthOfItems rest)

/-- The depth of the deepest member. -/
def depthOfMembers : List (String × Json) → Nat
  | [] => 0
  | (_, value) :: rest => max value.depth (depthOfMembers rest)

end

end Json

namespace Json.Literal

/-!
### String literals, written
-/

/-- How one character stands in a string literal: a quote, a backslash and control characters are
    escaped, everything else is plain. -/
def escape (c : Char) : List Char :=
  if c = '"' then ['\\', '"']
  else if c = '\\' then ['\\', '\\']
  else if c = '\x08' then ['\\', 'b']
  else if c = '\x0c' then ['\\', 'f']
  else if c = '\n' then ['\\', 'n']
  else if c = '\r' then ['\\', 'r']
  else if c = '\t' then ['\\', 't']
  else if c.toNat < 0x20 then
    ['\\', 'u', '0', '0', Nat.digitChar (c.toNat / 16), Nat.digitChar (c.toNat % 16)]
  else [c]

/-- A string literal with both its quotes. -/
def quote (text : String) : List Char :=
  '"' :: (text.toList.flatMap escape ++ ['"'])

/-!
### String literals, read

A literal is read in two steps: into pieces, which are characters and code units named by escapes,
and then into a text, where two code units may name one character together. A code unit that names
half a character leaves the literal without a text.
-/

/-- A part of a string literal. -/
inductive Piece where
  /-- A character that stands for itself or has a letter of its own. -/
  | plain (c : Char)
  /-- A code unit in hexadecimal. -/
  | codeUnit (code : Nat)
deriving DecidableEq, Repr

/-- The value of a hexadecimal digit in either case. -/
def hexDigit? (c : Char) : Option Nat :=
  if '0' ≤ c ∧ c ≤ '9' then some (c.toNat - 48)
  else if 'a' ≤ c ∧ c ≤ 'f' then some (c.toNat - 87)
  else if 'A' ≤ c ∧ c ≤ 'F' then some (c.toNat - 55)
  else none

/-- The code unit that four hexadecimal digits name. -/
def codeUnit? (a b c d : Char) : Option Nat :=
  match hexDigit? a, hexDigit? b, hexDigit? c, hexDigit? d with
  | some a, some b, some c, some d => some (((a * 16 + b) * 16 + c) * 16 + d)
  | _, _, _, _ => none

/-- The character that a letter after a backslash stands for. -/
def letter? (c : Char) : Option Char :=
  if c = '"' ∨ c = '\\' ∨ c = '/' then some c
  else if c = 'b' then some '\x08'
  else if c = 'f' then some '\x0c'
  else if c = 'n' then some '\n'
  else if c = 'r' then some '\r'
  else if c = 't' then some '\t'
  else none

/-- The pieces up to the closing quote, and what follows it. Raw control characters are refused. -/
def readPieces : List Char → Option (List Piece × List Char)
  | [] => none
  | '"' :: rest => some ([], rest)
  | '\\' :: 'u' :: a :: b :: c :: d :: rest =>
      match codeUnit? a b c d with
      | some code => (readPieces rest).map (fun read => (.codeUnit code :: read.1, read.2))
      | none => none
  | '\\' :: c :: rest =>
      match letter? c with
      | some c => (readPieces rest).map (fun read => (.plain c :: read.1, read.2))
      | none => none
  | c :: rest =>
      if c = '\\' ∨ c.toNat < 0x20 then none
      else (readPieces rest).map (fun read => (.plain c :: read.1, read.2))

/-- The code unit opens a surrogate pair. -/
def isHighSurrogate (code : Nat) : Bool := 0xd800 ≤ code && code < 0xdc00

/-- The code unit closes a surrogate pair. -/
def isLowSurrogate (code : Nat) : Bool := 0xdc00 ≤ code && code < 0xe000

/-- The character of a surrogate pair. -/
def ofPair (high low : Nat) : Char :=
  Char.ofNat (0x10000 + (high - 0xd800) * 0x400 + (low - 0xdc00))

/-- The characters that pieces stand for, unless half of a surrogate pair stands alone. -/
def characters? : List Piece → Option (List Char)
  | [] => some []
  | .plain c :: rest => (characters? rest).map (c :: ·)
  | .codeUnit code :: rest =>
      if isHighSurrogate code then
        match rest with
        | .codeUnit low :: rest =>
            if isLowSurrogate low then (characters? rest).map (ofPair code low :: ·) else none
        | _ => none
      else if isLowSurrogate code then none
      else (characters? rest).map (Char.ofNat code :: ·)

/-- Read a string literal after its opening quote: its text, if it has one, and what follows. -/
def readString (source : List Char) : Option (Option String × List Char) :=
  (readPieces source).map (fun read => ((characters? read.1).map String.ofList, read.2))

/-!
### Number literals
-/

/-- Skip a fraction, which is a point and at least one digit, and say whether there was one. -/
def readFraction : List Char → Option (Bool × List Char)
  | '.' :: rest =>
      if (rest.takeWhile Char.isDigit).isEmpty then none
      else some (true, rest.dropWhile Char.isDigit)
  | rest => some (false, rest)

/-- Skip the sign of an exponent. -/
def dropSign : List Char → List Char
  | '+' :: rest => rest
  | '-' :: rest => rest
  | rest => rest

/-- Skip an exponent, which has at least one digit, and say whether there was one. -/
def readExponent : List Char → Option (Bool × List Char)
  | [] => some (false, [])
  | c :: rest =>
      if c = 'e' ∨ c = 'E' then
        if ((dropSign rest).takeWhile Char.isDigit).isEmpty then none
        else some (true, (dropSign rest).dropWhile Char.isDigit)
      else some (false, c :: rest)

/-- A run of digits is a single zero or does not start with a zero. -/
def isPlainRun : List Char → Bool
  | [] => false
  | ['0'] => true
  | '0' :: _ => false
  | _ => true

/-- Read a number without its sign. -/
def readMagnitude (negative : Bool) (source : List Char) : Option (Json × List Char) :=
  let digits := source.takeWhile Char.isDigit
  if isPlainRun digits then
    match readFraction (source.dropWhile Char.isDigit) with
    | none => none
    | some (fraction, rest) =>
        match readExponent rest with
        | none => none
        | some (exponent, rest) =>
            let magnitude := Decimal.natOfDigits digits
            if fraction || exponent || (negative && magnitude == 0) then some (.unusable, rest)
            else some (.integer (if negative then -(magnitude : Int) else magnitude), rest)
  else none

/-- Read a number and say what follows. -/
def readNumber : List Char → Option (Json × List Char)
  | '-' :: rest => readMagnitude true rest
  | rest => readMagnitude false rest

end Json.Literal

namespace Json

open Literal

/-!
### Documents, written
-/

mutual

/-- The characters of a document. For a document that nothing can use a number stands in that reads
    as one. -/
def render : Json → List Char
  | .null => ['n', 'u', 'l', 'l']
  | .boolean true => ['t', 'r', 'u', 'e']
  | .boolean false => ['f', 'a', 'l', 's', 'e']
  | .integer n => Decimal.write n
  | .string text => quote text
  | .array [] => ['[', ']']
  | .array (item :: rest) => '[' :: (item.render ++ renderItems rest)
  | .object [] => ['\x7b', '\x7d']
  | .object ((name, value) :: rest) =>
      '\x7b' :: (quote name ++ ':' :: (value.render ++ renderMembers rest))
  | .unusable => ['0', '.', '0']

/-- The further items of an array, each after a comma, and the closing bracket. -/
def renderItems : List Json → List Char
  | [] => [']']
  | item :: rest => ',' :: (item.render ++ renderItems rest)

/-- The further members of an object, each after a comma, and the closing brace. -/
def renderMembers : List (String × Json) → List Char
  | [] => ['\x7d']
  | (name, value) :: rest =>
      ',' :: (quote name ++ ':' :: (value.render ++ renderMembers rest))

end

/-- The text of a document. -/
def toText (document : Json) : String := String.ofList document.render

/-!
### Documents, read

Only blank, tab, line feed and carriage return stand between tokens, and nothing but them after the
document. Each step of the reader takes a character or descends from an opening bracket, so twice
the length of the text is fuel enough.
-/

/-- The characters that may stand between tokens. -/
def isBlank (c : Char) : Bool := c == ' ' || c == '\t' || c == '\n' || c == '\r'

/-- The text without leading blanks. -/
def skipBlanks (source : List Char) : List Char := source.dropWhile isBlank

/-- A string literal as a document. -/
def ofLiteral : Option String → Json
  | some text => .string text
  | none => .unusable

/-- The members of an object as a document, if every name has a text. -/
def ofMembers : Option (List (String × Json)) → Json
  | some members => .object members
  | none => .unusable

/-- One more member in front, if its name has a text. -/
def consMember (name : Option String) (value : Json) (rest : Option (List (String × Json))) :
    Option (List (String × Json)) :=
  match name, rest with
  | some name, some rest => some ((name, value) :: rest)
  | _, _ => none

mutual

/-- Read one value and say what follows. -/
def readValue : Nat → List Char → Option (Json × List Char)
  | 0, _ => none
  | fuel + 1, source =>
      match skipBlanks source with
      | 'n' :: 'u' :: 'l' :: 'l' :: rest => some (.null, rest)
      | 't' :: 'r' :: 'u' :: 'e' :: rest => some (.boolean true, rest)
      | 'f' :: 'a' :: 'l' :: 's' :: 'e' :: rest => some (.boolean false, rest)
      | '"' :: rest => (readString rest).map (fun read => (ofLiteral read.1, read.2))
      | '[' :: rest =>
          match skipBlanks rest with
          | ']' :: rest => some (.array [], rest)
          | rest => (readItems fuel rest).map (fun read => (.array read.1, read.2))
      | '\x7b' :: rest =>
          match skipBlanks rest with
          | '\x7d' :: rest => some (.object [], rest)
          | rest => (readMembers fuel rest).map (fun read => (ofMembers read.1, read.2))
      | rest => readNumber rest

/-- Read the items of an array up to its closing bracket. There is at least one. -/
def readItems : Nat → List Char → Option (List Json × List Char)
  | 0, _ => none
  | fuel + 1, source =>
      match readValue fuel source with
      | none => none
      | some (item, rest) =>
          match skipBlanks rest with
          | ']' :: rest => some ([item], rest)
          | ',' :: rest => (readItems fuel rest).map (fun read => (item :: read.1, read.2))
          | _ => none

/-- Read the members of an object up to its closing brace. There is at least one. -/
def readMembers : Nat → List Char → Option (Option (List (String × Json)) × List Char)
  | 0, _ => none
  | fuel + 1, source =>
      match skipBlanks source with
      | '"' :: rest =>
          match readString rest with
          | none => none
          | some (name, rest) =>
              match skipBlanks rest with
              | ':' :: rest =>
                  match readValue fuel rest with
                  | none => none
                  | some (value, rest) =>
                      match skipBlanks rest with
                      | '\x7d' :: rest => some (consMember name value (some []), rest)
                      | ',' :: rest =>
                          (readMembers fuel rest).map
                            (fun read => (consMember name value read.1, read.2))
                      | _ => none
              | _ => none
      | _ => none

end

/-- The document that the characters hold, and nothing else. -/
def ofChars? (source : List Char) : Option Json :=
  match readValue (2 * source.length + 2) source with
  | none => none
  | some (document, rest) => if (skipBlanks rest).isEmpty then some document else none

/-- The document that a text holds, and nothing else. -/
def ofText? (text : String) : Option Json := ofChars? text.toList

/-!
### Named fields

An object may hold members of other names, which do not count, but each field at most once. An array
gives the fields in order and may stop early.
-/

/-- The member of a name: `some none` if there is none, and `none` if there are two. -/
def member? (members : List (String × Json)) (name : String) : Option (Option Json) :=
  match members.filter (fun member => member.1 == name) with
  | [] => some none
  | [member] => some (some member.2)
  | _ => none

/-- What a document gives for each of the named fields. -/
def fields? (names : List String) : Json → Option (List (Option Json))
  | .object members => names.mapM (member? members)
  | .array items =>
      if items.length ≤ names.length then
        some (items.map some ++ List.replicate (names.length - items.length) none)
      else none
  | _ => none

/-- The text of a string. -/
def text? : Json → Option String
  | .string text => some text
  | _ => none

/-- The texts of an array of strings. -/
def texts? : Json → Option (List String)
  | .array items => items.mapM text?
  | _ => none

end Json

end Permit
