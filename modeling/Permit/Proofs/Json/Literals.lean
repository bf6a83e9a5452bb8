/-
Module: Permit.Proofs.Json.Literals
Layer: Proofs
Purpose: Literals are read as they were written, whatever follows them: a string literal up to its
  closing quote, with each escape undone, and an integer as far as its digits go, if no character
  follows that would make more of a number of it.
Main exports: Literal.pieceOf, Literal.readPieces_escape, Literal.readString_quote, Literal.Stops,
  Literal.readMagnitude_toDigits, Literal.readNumber_write
-/
import Permit.Json

namespace Permit.Json.Literal

/-!
### Strings
-/

/-- The characters that are escaped by a letter. -/
def lettered : List Char := ['"', '\\', '\x08', '\x0c', '\n', '\r', '\t']

/-- What an escaped character is read as: a control character without a letter as a code unit,
    everything else as itself. -/
def pieceOf (c : Char) : Piece :=
  if c ∉ lettered ∧ c.toNat < 0x20 then .codeUnit c.toNat else .plain c

/-- Each of the sixteen digits is read as the number that it was written for. -/
theorem hexDigit?_digitChar {digit : Nat} (bound : digit < 16) :
    hexDigit? (Nat.digitChar digit) = some digit := by
  have all : ∀ digit < 16, hexDigit? (Nat.digitChar digit) = some digit := by decide
  exact all digit bound

/-- Two hexadecimal digits name a number below 256. -/
theorem codeUnit?_digitChar {code : Nat} (bound : code < 256) :
    codeUnit? '0' '0' (Nat.digitChar (code / 16)) (Nat.digitChar (code % 16)) = some code := by
  have zero : hexDigit? '0' = some 0 := rfl
  have high := hexDigit?_digitChar (show code / 16 < 16 by omega)
  have low := hexDigit?_digitChar (show code % 16 < 16 by omega)
  simp only [codeUnit?, zero, high, low, Option.some.injEq]
  omega

/-- A character with a letter of its own is escaped by that letter, which the reader turns back. -/
theorem escape_of_mem_lettered {c : Char} (member : c ∈ lettered) :
    ∃ letter, escape c = ['\\', letter] ∧ letter ≠ 'u' ∧ letter? letter = some c := by
  simp only [lettered, List.mem_cons, List.not_mem_nil, or_false] at member
  rcases member with rfl | rfl | rfl | rfl | rfl | rfl | rfl <;>
    exact ⟨_, rfl, by decide, rfl⟩

/-- Any other character is written by its code below the space, and as itself from there on. -/
theorem escape_of_not_mem_lettered {c : Char} (absent : c ∉ lettered) :
    escape c =
      if c.toNat < 0x20 then
        ['\\', 'u', '0', '0', Nat.digitChar (c.toNat / 16), Nat.digitChar (c.toNat % 16)]
      else [c] := by
  simp only [lettered, List.mem_cons, List.not_mem_nil, or_false, not_or] at absent
  simp only [escape, absent, if_false]

/-- The reader turns a letter behind a backslash into the character that it names. -/
theorem readPieces_letter {letter c : Char} (named : letter ≠ 'u') (found : letter? letter = some c)
    (rest : List Char) :
    readPieces ('\\' :: letter :: rest) =
      (readPieces rest).map (fun read => (.plain c :: read.1, read.2)) := by
  rw [readPieces]
  · rw [found]
  · rintro _ _ _ _ _ rfl _
    exact named rfl

/-- The reader takes a visible character without a letter of its own as it stands. -/
theorem readPieces_plain {c : Char} (absent : c ∉ lettered) (visible : ¬ c.toNat < 0x20)
    (rest : List Char) :
    readPieces (c :: rest) = (readPieces rest).map (fun read => (.plain c :: read.1, read.2)) := by
  simp only [lettered, List.mem_cons, List.not_mem_nil, or_false, not_or] at absent
  rw [readPieces]
  · rw [if_neg (by simp [absent, visible])]
  · exact absent.1
  · rintro _ _ _ _ _ same
    exact absurd same absent.2.1
  · rintro _ _ same
    exact absurd same absent.2.1

/-- An escaped character is read as one piece. -/
theorem readPieces_escape (c : Char) (rest : List Char) :
    readPieces (escape c ++ rest) =
      (readPieces rest).map (fun read => (pieceOf c :: read.1, read.2)) := by
  by_cases member : c ∈ lettered
  · obtain ⟨letter, escaped, named, found⟩ := escape_of_mem_lettered member
    have piece : pieceOf c = .plain c := if_neg (by simp [member])
    rw [escaped, piece]
    exact readPieces_letter named found rest
  · by_cases control : c.toNat < 0x20
    · have code := codeUnit?_digitChar (show c.toNat < 256 by omega)
      have piece : pieceOf c = .codeUnit c.toNat := if_pos ⟨member, control⟩
      rw [escape_of_not_mem_lettered member, if_pos control, piece]
      simp only [List.cons_append, List.nil_append]
      rw [readPieces, code]
    · have piece : pieceOf c = .plain c := if_neg (by simp [control])
      rw [escape_of_not_mem_lettered member, if_neg control, piece]
      exact readPieces_plain member control rest

/-- The escapes of a text are read piece by piece up to the closing quote, and nothing behind it is
    touched. -/
theorem readPieces_flatMap_escape (text rest : List Char) :
    readPieces (text.flatMap escape ++ '"' :: rest) = some (text.map pieceOf, rest) := by
  induction text with
  | nil => rfl
  | cons c text ih =>
      rw [List.flatMap_cons, List.append_assoc, readPieces_escape, ih]
      rfl

/-- The piece of a character stands for the character: no control character is half of a surrogate
    pair. -/
theorem characters?_pieceOf (c : Char) (rest : List Piece) :
    characters? (pieceOf c :: rest) = (characters? rest).map (c :: ·) := by
  unfold pieceOf
  split
  · next control =>
      have notHigh : isHighSurrogate c.toNat = false := by simp [isHighSurrogate]; omega
      have notLow : isLowSurrogate c.toNat = false := by simp [isLowSurrogate]; omega
      rw [characters?.eq_def]
      simp only [notHigh, notLow, Bool.false_eq_true, if_false, Char.ofNat_toNat]
  · rw [characters?]

/-- The pieces of a written text pair up to no surrogates, so that they come to its
    own characters. -/
theorem characters?_map_pieceOf (text : List Char) :
    characters? (text.map pieceOf) = some text := by
  induction text with
  | nil => rfl
  | cons c text ih => rw [List.map_cons, characters?_pieceOf, ih, Option.map_some]

/-- A quoted text is read back, from after its opening quote to its closing one. -/
theorem readString_quote (text : String) (rest : List Char) :
    readString (text.toList.flatMap escape ++ '"' :: rest) = some (some text, rest) := by
  rw [readString, readPieces_flatMap_escape, Option.map_some, characters?_map_pieceOf,
    Option.map_some, String.ofList_toList]

/-!
### Numbers
-/

/-- What follows does not make more of a number that stands before it. -/
def Stops (rest : List Char) : Prop :=
  ∀ c ∈ rest.head?, c.isDigit = false ∧ c ≠ '.' ∧ c ≠ 'e' ∧ c ≠ 'E'

theorem stops_nil : Stops [] := by
  intro c member
  cases member

theorem Stops.takeWhile_eq {rest : List Char} (stops : Stops rest) :
    rest.takeWhile Char.isDigit = [] := by
  cases rest with
  | nil => rfl
  | cons c rest => exact List.takeWhile_cons_of_neg (by simp [(stops c rfl).1])

theorem Stops.dropWhile_eq {rest : List Char} (stops : Stops rest) :
    rest.dropWhile Char.isDigit = rest := by
  cases rest with
  | nil => rfl
  | cons c rest => exact List.dropWhile_cons_of_neg (by simp [(stops c rfl).1])

/-- No fraction is read where a number stops. -/
theorem Stops.readFraction_eq {rest : List Char} (stops : Stops rest) :
    readFraction rest = some (false, rest) := by
  cases rest with
  | nil => rfl
  | cons c rest =>
      rw [readFraction.eq_def]
      split
      · next same =>
          cases same
          exact absurd rfl (stops '.' rfl).2.1
      · rfl

/-- No exponent is read where a number stops. -/
theorem Stops.readExponent_eq {rest : List Char} (stops : Stops rest) :
    readExponent rest = some (false, rest) := by
  cases rest with
  | nil => rfl
  | cons c rest =>
      obtain ⟨_, _, lower, upper⟩ := stops c rfl
      simp [readExponent, lower, upper]

/-- A number has a first digit. -/
theorem toDigits_eq_cons (n : Nat) :
    ∃ c digits, Nat.toDigits 10 n = c :: digits ∧ c.isDigit = true := by
  cases run : Nat.toDigits 10 n with
  | nil => exact absurd run Nat.toDigits_ne_nil
  | cons c digits =>
      have member : c ∈ Nat.toDigits 10 n := by simp [run]
      exact ⟨c, digits, rfl, Nat.isDigit_of_mem_toDigits (by decide) (by decide) member⟩

/-- A number but zero does not start with the digit zero. -/
theorem head?_toDigits_ne {n : Nat} (positive : 0 < n) : (Nat.toDigits 10 n).head? ≠ some '0' := by
  induction n using Nat.strongRecOn with
  | _ n ih =>
      rw [Nat.toDigits_eq_if (by decide)]
      split
      · next small =>
          have all : ∀ digit < 10, 0 < digit → Nat.digitChar digit ≠ '0' := by decide
          simpa using all n small positive
      · next large =>
          have front := ih (n / 10) (by omega) (by omega)
          obtain ⟨c, digits, run, _⟩ := toDigits_eq_cons (n / 10)
          rw [run] at front ⊢
          exact front

/-- The digits of a number start with no idle zero, which the reader would refuse. -/
theorem isPlainRun_toDigits (n : Nat) : isPlainRun (Nat.toDigits 10 n) = true := by
  rcases Nat.eq_zero_or_pos n with rfl | positive
  · rfl
  · have front := head?_toDigits_ne positive
    obtain ⟨c, digits, run, _⟩ := toDigits_eq_cons n
    rw [run] at front ⊢
    rw [isPlainRun.eq_def]
    split <;> simp_all

/-- The digits of a number are read as the number, with the sign that was seen before them. -/
theorem readMagnitude_toDigits {negative : Bool} {n : Nat} {rest : List Char}
    (plain : negative = true → n ≠ 0) (stops : Stops rest) :
    readMagnitude negative (Nat.toDigits 10 n ++ rest) =
      some (.integer (if negative then -(n : Int) else n), rest) := by
  have digits : ∀ c ∈ Nat.toDigits 10 n, c.isDigit = true :=
    fun c member => Nat.isDigit_of_mem_toDigits (by decide) (by decide) member
  have run : (Nat.toDigits 10 n ++ rest).takeWhile Char.isDigit = Nat.toDigits 10 n := by
    rw [List.takeWhile_append_of_pos digits, stops.takeWhile_eq, List.append_nil]
  have after : (Nat.toDigits 10 n ++ rest).dropWhile Char.isDigit = rest := by
    rw [List.dropWhile_append_of_pos digits, stops.dropWhile_eq]
  have signed : (negative && n == 0) = false := by
    cases negative with
    | false => rfl
    | true => simpa using plain rfl
  simp only [readMagnitude, run, after, isPlainRun_toDigits, stops.readFraction_eq,
    stops.readExponent_eq, Decimal.natOfDigits_toDigits, signed, Bool.or_false, if_true,
    Bool.false_eq_true, if_false]

/-- An integer in decimal starts with a digit or a minus sign. -/
theorem write_eq_cons (n : Int) :
    ∃ c digits, Decimal.write n = c :: digits ∧ (c = '-' ∨ c.isDigit = true) := by
  unfold Decimal.write
  split
  · exact ⟨'-', _, rfl, .inl rfl⟩
  · obtain ⟨c, digits, run, isDigit⟩ := toDigits_eq_cons n.natAbs
    exact ⟨c, digits, run, .inr isDigit⟩

/-- Without a minus sign all that is read is the magnitude. -/
theorem readNumber_of_ne {c : Char} {rest : List Char} (unsigned : c ≠ '-') :
    readNumber (c :: rest) = readMagnitude false (c :: rest) := by
  rw [readNumber.eq_def]
  split
  · next same =>
      cases same
      exact absurd rfl unsigned
  · rfl

/-- An integer in decimal is read back. -/
theorem readNumber_write {n : Int} {rest : List Char} (stops : Stops rest) :
    readNumber (Decimal.write n ++ rest) = some (.integer n, rest) := by
  unfold Decimal.write
  split
  · next negative =>
      have nonzero : n.natAbs ≠ 0 := by omega
      have value : -(n.natAbs : Int) = n := by omega
      rw [List.cons_append, readNumber, readMagnitude_toDigits (fun _ => nonzero) stops, if_pos rfl,
        value]
  · next natural =>
      have value : (n.natAbs : Int) = n := by omega
      obtain ⟨c, digits, run, isDigit⟩ := toDigits_eq_cons n.natAbs
      have unsigned : c ≠ '-' := by
        rintro rfl
        cases isDigit
      have unread : readNumber (Nat.toDigits 10 n.natAbs ++ rest) =
          readMagnitude false (Nat.toDigits 10 n.natAbs ++ rest) := by
        rw [run, List.cons_append, readNumber_of_ne unsigned]
      rw [unread, readMagnitude_toDigits (by simp) stops, if_neg Bool.false_ne_true, value]

end Permit.Json.Literal
