/-
Module: Permit.Proofs.Json.Documents
Layer: Proofs
Purpose: A written document is read back, with all its members in their order and repeated names
  with them, as long as everything in it has a form that can be written. The reader spends its fuel
  on characters and on opening brackets, so that twice the length of what was written is enough.
Main exports: Json.Usable, Json.mapM_map_eq_some, Json.readValue_render, Json.readItems_render,
  Json.readMembers_render, Json.ofChars?_render, Json.ofText?_toText
-/
import Permit.Json
import Permit.Proofs.Json.Literals

namespace Permit.Json

open Literal

mutual

/-- Nothing in the document is unusable. -/
def Usable : Json → Prop
  | .array items => UsableItems items
  | .object members => UsableMembers members
  | .unusable => False
  | _ => True

/-- Nothing in the items is unusable. -/
def UsableItems : List Json → Prop
  | [] => True
  | item :: rest => item.Usable ∧ UsableItems rest

/-- Nothing in the members is unusable. -/
def UsableMembers : List (String × Json) → Prop
  | [] => True
  | (_, value) :: rest => value.Usable ∧ UsableMembers rest

end

/-- A list is usable as a whole when each of its documents is. -/
theorem usableItems_iff {items : List Json} :
    UsableItems items ↔ ∀ item ∈ items, item.Usable := by
  induction items with
  | nil => simp [UsableItems]
  | cons item rest ih => rw [UsableItems, ih, List.forall_mem_cons]

/-- Members are usable when their values are. Their names are under no condition. -/
theorem usableMembers_iff {members : List (String × Json)} :
    UsableMembers members ↔ ∀ member ∈ members, member.2.Usable := by
  induction members with
  | nil => simp [UsableMembers]
  | cons member rest ih => rw [UsableMembers, ih, List.forall_mem_cons]

/-- What is written item by item is read back if each item is. -/
theorem mapM_map_eq_some {α β : Type} {write : α → β} {read? : β → Option α}
    (kept : ∀ item, read? (write item) = some item) (items : List α) :
    (items.map write).mapM read? = some items := by
  induction items with
  | nil => rfl
  | cons item rest ih =>
      rw [List.map_cons, List.mapM_cons, kept, ih]
      rfl

/-!
### First characters
-/

theorem skipBlanks_cons {c : Char} (visible : isBlank c = false) (rest : List Char) :
    skipBlanks (c :: rest) = c :: rest :=
  List.dropWhile_cons_of_neg (by simp [visible])

/-- A number starts with its sign or with a digit, so that no blank precedes it. -/
theorem isBlank_of_number {c : Char} (number : c = '-' ∨ c.isDigit = true) : isBlank c = false := by
  rcases number with rfl | digit
  · rfl
  · simp only [isBlank, Bool.or_eq_false_iff, beq_eq_false_iff_ne]
    refine ⟨⟨⟨?_, ?_⟩, ?_⟩, ?_⟩ <;> (rintro rfl; cases digit)

/-- A document starts with a character that is no blank and closes nothing. -/
theorem render_eq_cons (document : Json) :
    ∃ c rest, document.render = c :: rest ∧ isBlank c = false ∧ c ≠ ']' := by
  cases document with
  | null => exact ⟨_, _, rfl, rfl, by decide⟩
  | boolean value => cases value <;> exact ⟨_, _, rfl, rfl, by decide⟩
  | integer n =>
      obtain ⟨c, digits, written, number⟩ := write_eq_cons n
      refine ⟨c, digits, written, isBlank_of_number number, ?_⟩
      rintro rfl
      rcases number with minus | digit
      · exact absurd minus (by decide)
      · cases digit
  | string text => exact ⟨_, _, rfl, rfl, by decide⟩
  | array items => cases items <;> exact ⟨_, _, rfl, rfl, by decide⟩
  | object members =>
      rcases members with _ | ⟨⟨name, value⟩, rest⟩ <;> exact ⟨_, _, rfl, rfl, by decide⟩
  | unusable => exact ⟨_, _, rfl, rfl, by decide⟩

/-- What closes or continues a list ends a number that stands before it. -/
theorem stops_renderItems (items : List Json) (rest : List Char) :
    Stops (renderItems items ++ rest) := by
  cases items <;> (rintro c ⟨⟩; decide)

/-- What closes or continues the members ends a number that stands before it. -/
theorem stops_renderMembers (members : List (String × Json)) (rest : List Char) :
    Stops (renderMembers members ++ rest) := by
  rcases members with _ | ⟨⟨name, value⟩, others⟩ <;> (rintro c ⟨⟩; decide)

/-!
### Steps of the reader
-/

/-- A sign or a digit sends the reader to its numbers: none of the words, quotes and brackets starts
    so. -/
theorem readValue_number {c : Char} (number : c = '-' ∨ c.isDigit = true) (fuel : Nat)
    (rest : List Char) : readValue (fuel + 1) (c :: rest) = readNumber (c :: rest) := by
  rw [readValue, skipBlanks_cons (isBlank_of_number number)]
  have apart : ∀ other, other ≠ '-' → other.isDigit = false → c ≠ other := by
    rintro other notMinus notDigit rfl
    simp_all
  split
  · next same => cases same; exact absurd rfl (apart 'n' (by decide) rfl)
  · next same => cases same; exact absurd rfl (apart 't' (by decide) rfl)
  · next same => cases same; exact absurd rfl (apart 'f' (by decide) rfl)
  · next same => cases same; exact absurd rfl (apart '"' (by decide) rfl)
  · next same => cases same; exact absurd rfl (apart '[' (by decide) rfl)
  · next same => cases same; exact absurd rfl (apart '\x7b' (by decide) rfl)
  · rfl

/-- A quoted text is read as a text, whatever follows it and with whatever fuel is left. -/
theorem readValue_string (fuel : Nat) (text : String) (rest : List Char) :
    readValue (fuel + 1) (quote text ++ rest) = some (.string text, rest) := by
  rw [quote, List.cons_append, List.append_assoc, readValue, skipBlanks_cons rfl]
  simp [readString_quote, ofLiteral]

/-- An opening bracket costs one unit of fuel. Where the list does not close at once, its items are
    read with what is left of it. -/
theorem readValue_array {c : Char} (visible : isBlank c = false) (notClosing : c ≠ ']') (fuel : Nat)
    (rest : List Char) :
    readValue (fuel + 1) ('[' :: c :: rest) =
      (readItems fuel (c :: rest)).map (fun read => (.array read.1, read.2)) := by
  rw [readValue, skipBlanks_cons rfl]
  simp only [skipBlanks_cons visible]
  split
  · next same => cases same; exact absurd rfl notClosing
  · rfl

/-- An opening brace costs one unit of fuel. What follows is read as members, of which a repeated
    name keeps its last value. -/
theorem readValue_object (fuel : Nat) (name : String) (rest : List Char) :
    readValue (fuel + 1) ('\x7b' :: (quote name ++ rest)) =
      (readMembers fuel (quote name ++ rest)).map (fun read => (ofMembers read.1, read.2)) := by
  rw [readValue, skipBlanks_cons rfl]
  rfl

/-- A closing bracket behind the first document ends the list. -/
theorem readItems_last {fuel : Nat} {source rest : List Char} {item : Json}
    (first : readValue fuel source = some (item, ']' :: rest)) :
    readItems (fuel + 1) source = some ([item], rest) := by
  rw [readItems, first]
  rfl

/-- A comma behind the first document goes on to the next one, with less fuel. -/
theorem readItems_more {fuel : Nat} {source rest : List Char} {item : Json}
    (first : readValue fuel source = some (item, ',' :: rest)) :
    readItems (fuel + 1) source =
      (readItems fuel rest).map (fun read => (item :: read.1, read.2)) := by
  rw [readItems, first]
  rfl

/-- After a name and its value the reader looks for what separates members or closes the object. -/
theorem readMembers_entry {fuel : Nat} {source after : List Char} {value : Json} (name : String)
    (first : readValue fuel source = some (value, after)) :
    readMembers (fuel + 1) (quote name ++ ':' :: source) =
      match skipBlanks after with
      | '\x7d' :: rest => some (some [(name, value)], rest)
      | ',' :: rest =>
          (readMembers fuel rest).map (fun read => (consMember (some name) value read.1, read.2))
      | _ => none := by
  have named := readString_quote name (':' :: source)
  have colon : skipBlanks (':' :: source) = ':' :: source := skipBlanks_cons rfl source
  rw [quote, List.cons_append, List.append_assoc, List.singleton_append, readMembers,
    skipBlanks_cons rfl]
  simp only [named, colon, first]
  rfl

/-- A closing brace behind the first value ends the members. -/
theorem readMembers_last {fuel : Nat} {source rest : List Char} {value : Json} (name : String)
    (first : readValue fuel source = some (value, '\x7d' :: rest)) :
    readMembers (fuel + 1) (quote name ++ ':' :: source) = some (some [(name, value)], rest) := by
  rw [readMembers_entry name first]
  rfl

/-- A comma behind the first value goes on to the next member, with less fuel. -/
theorem readMembers_more {fuel : Nat} {source rest : List Char} {value : Json} (name : String)
    (first : readValue fuel source = some (value, ',' :: rest)) :
    readMembers (fuel + 1) (quote name ++ ':' :: source) =
      (readMembers fuel rest).map (fun read => (consMember (some name) value read.1, read.2)) := by
  rw [readMembers_entry name first]
  rfl

/-!
### Documents
-/

mutual

/-- A written document is read back, if what follows makes no more of a number at its end. -/
theorem readValue_render : ∀ (document : Json) (fuel : Nat) (rest : List Char),
    document.Usable → 2 * document.render.length ≤ fuel → Stops rest →
      readValue fuel (document.render ++ rest) = some (document, rest)
  | .null, fuel + 1, rest, _, _, _ => rfl
  | .boolean true, fuel + 1, rest, _, _, _ => rfl
  | .boolean false, fuel + 1, rest, _, _, _ => rfl
  | .integer n, fuel + 1, rest, _, _, stops => by
      obtain ⟨c, digits, written, number⟩ := write_eq_cons n
      have read : readNumber (Decimal.write n ++ rest) = _ := readNumber_write stops
      rw [render]
      rw [written, List.cons_append] at read ⊢
      rw [readValue_number number, read]
  | .string text, fuel + 1, rest, _, _, _ => readValue_string fuel text rest
  | .array [], fuel + 1, rest, _, _, _ => rfl
  | .array (item :: items), fuel + 1, rest, usable, enough, _ => by
      obtain ⟨c, others, written, visible, notClosing⟩ := render_eq_cons item
      have short : 2 * (item.render ++ renderItems items).length < fuel := by
        rw [render, List.length_cons] at enough
        omega
      have read := readItems_render item items fuel rest usable.1 usable.2 short
      rw [render]
      rw [written, List.cons_append, List.cons_append] at read ⊢
      rw [List.cons_append, readValue_array visible notClosing, read, Option.map_some]
  | .object [], fuel + 1, rest, _, _, _ => rfl
  | .object ((name, value) :: members), fuel + 1, rest, usable, enough, _ => by
      have short : 2 * (value.render ++ renderMembers members).length < fuel := by
        rw [render, List.length_cons, List.length_append, List.length_cons] at enough
        omega
      have read := readMembers_render name value members fuel rest usable.1 usable.2 short
      have source : (Json.object ((name, value) :: members)).render ++ rest =
          '\x7b' :: (quote name ++ ':' :: (value.render ++ renderMembers members ++ rest)) := by
        simp [render]
      rw [source, readValue_object, read, Option.map_some, ofMembers]
  | .unusable, _, _, usable, _, _ => nomatch usable
  | document, 0, _, _, enough, _ => by
      obtain ⟨_, _, written, _⟩ := render_eq_cons document
      rw [written, List.length_cons] at enough
      omega

/-- Written items are read back up to the closing bracket. -/
theorem readItems_render : ∀ (item : Json) (items : List Json) (fuel : Nat) (rest : List Char),
    item.Usable → UsableItems items → 2 * (item.render ++ renderItems items).length < fuel →
      readItems fuel (item.render ++ renderItems items ++ rest) = some (item :: items, rest)
  | item, [], fuel + 1, rest, usable, _, enough => by
      rw [List.length_append] at enough
      have first := readValue_render item fuel _ usable (by omega)
        (stops_renderItems [] rest)
      rw [List.append_assoc]
      exact readItems_last first
  | item, next :: items, fuel + 1, rest, usable, usables, enough => by
      rw [List.length_append, renderItems, List.length_cons] at enough
      have first := readValue_render item fuel _ usable (by omega)
        (stops_renderItems (next :: items) rest)
      have others := readItems_render next items fuel rest usables.1 usables.2 (by omega)
      rw [List.append_assoc]
      rw [renderItems, List.cons_append] at first ⊢
      rw [readItems_more first, others, Option.map_some]

/-- Written members are read back up to the closing brace. -/
theorem readMembers_render : ∀ (name : String) (value : Json) (members : List (String × Json))
    (fuel : Nat) (rest : List Char), value.Usable → UsableMembers members →
      2 * (value.render ++ renderMembers members).length < fuel →
      readMembers fuel (quote name ++ ':' :: (value.render ++ renderMembers members ++ rest)) =
        some (some ((name, value) :: members), rest)
  | name, value, [], fuel + 1, rest, usable, _, enough => by
      rw [List.length_append] at enough
      have first := readValue_render value fuel _ usable (by omega)
        (stops_renderMembers [] rest)
      rw [List.append_assoc]
      exact readMembers_last name first
  | name, value, (next, other) :: members, fuel + 1, rest, usable, usables, enough => by
      rw [List.length_append, renderMembers, List.length_cons, List.length_append, List.length_cons]
        at enough
      have first := readValue_render value fuel _ usable (by omega)
        (stops_renderMembers ((next, other) :: members) rest)
      have others := readMembers_render next other members fuel rest usables.1 usables.2
        (by omega)
      rw [List.append_assoc]
      rw [renderMembers, List.cons_append, List.append_assoc, List.cons_append] at first ⊢
      rw [readMembers_more name first, others, Option.map_some, consMember]

end

/-- The characters of a document hold the document. -/
theorem ofChars?_render {document : Json} (usable : document.Usable) :
    ofChars? document.render = some document := by
  have read := readValue_render document (2 * document.render.length + 2) [] usable (by omega)
    stops_nil
  rw [List.append_nil] at read
  rw [ofChars?, read]
  rfl

/-- The text of a document holds the document. -/
theorem ofText?_toText {document : Json} (usable : document.Usable) :
    ofText? document.toText = some document := by
  rw [ofText?, toText, String.toList_ofList]
  exact ofChars?_render usable

end Permit.Json
