/-
Module: Permit.Proofs.Condition.RoundTrip
Layer: Proofs
Purpose: The JSON form of conditions is faithful. The shape of a document alone tells equalities,
  choices and nested conditions apart, so that written conditions are read back as they were, in
  their order at every level, if they are not nested deeper than a reader goes. What is read from a
  text has unique names and is nested no deeper than the text, so it can be written and read again.
Main exports: Conditions.depth, Conditions.ofJson?_toJson, Conditions.distinct_of_ofJson?,
  Conditions.depth_le_of_ofJson?, Conditions.ofText?_toText,
  Conditions.distinct_and_depth_le_of_ofText?, Conditions.text_form_faithful
-/
import Permit.Json.Forms
import Permit.Proofs.Json.Documents

namespace Permit

/-!
### Depth
-/

mutual

/-- How many choices and nested conditions stand one inside the other. -/
def Condition.depth : Condition → Nat
  | .equals _ => 0
  | .anyOf _ => 1
  | .nested conditions => Conditions.depthOfEach conditions + 1

/-- The depth of the deepest condition. -/
def Conditions.depthOfEach : Conditions → Nat
  | [] => 0
  | (_, condition) :: rest => max condition.depth (Conditions.depthOfEach rest)

end

/-- How deep conditions are nested, themselves included. -/
def Conditions.depth (conditions : Conditions) : Nat := conditions.depthOfEach + 1

/-- A value is written without any bracket. -/
theorem Value.depth_toJson (value : Value) : value.toJson.depth = 0 := by
  cases value <;> rfl

theorem Value.depthOfItems_map_toJson (values : List Value) :
    Json.depthOfItems (values.map Value.toJson) = 0 := by
  induction values with
  | nil => rfl
  | cons value rest ih =>
      rw [List.map_cons, Json.depthOfItems, Value.depth_toJson, ih, Nat.max_self]

mutual

/-- The document of a condition is nested as deep as the condition, where a choice counts for one
    level. -/
theorem Condition.depth_toJson : ∀ condition : Condition,
    condition.toJson.depth = condition.depth
  | .equals value => Value.depth_toJson value
  | .anyOf values => by
      rw [Condition.toJson, Json.depth, Value.depthOfItems_map_toJson, Condition.depth]
  | .nested conditions => by
      rw [Condition.toJson, Json.depth, Conditions.depthOfMembers_toMembers conditions,
        Condition.depth]

theorem Conditions.depthOfMembers_toMembers : ∀ conditions : Conditions,
    Json.depthOfMembers (Conditions.toMembers conditions) = Conditions.depthOfEach conditions
  | [] => rfl
  | (_, condition) :: rest => by
      rw [Conditions.toMembers, Json.depthOfMembers, Condition.depth_toJson condition,
        Conditions.depthOfMembers_toMembers rest, Conditions.depthOfEach]

end

/-- The document of conditions is nested as deep as they are, so that the depth limit of the reader
    is a bound on conditions. -/
theorem Conditions.depth_toJson (conditions : Conditions) :
    conditions.toJson.depth = conditions.depth := by
  rw [Conditions.toJson, Json.depth, Conditions.depthOfMembers_toMembers, Conditions.depth]

/-!
### Writing
-/

/-- Every value has a document that can be read: integers and texts are all a value has. -/
theorem Value.usable_toJson (value : Value) : value.toJson.Usable := by
  cases value <;> trivial

theorem Value.usableItems_map_toJson (values : List Value) :
    Json.UsableItems (values.map Value.toJson) :=
  Json.usableItems_iff.mpr (List.forall_mem_map.mpr (fun value _ => value.usable_toJson))

mutual

/-- Every condition has a document that can be read. -/
theorem Condition.usable_toJson : ∀ condition : Condition, condition.toJson.Usable
  | .equals value => value.usable_toJson
  | .anyOf values => Value.usableItems_map_toJson values
  | .nested conditions => Conditions.usableMembers_toMembers conditions

theorem Conditions.usableMembers_toMembers : ∀ conditions : Conditions,
    Json.UsableMembers (Conditions.toMembers conditions)
  | [] => trivial
  | (_, condition) :: rest => ⟨condition.usable_toJson, Conditions.usableMembers_toMembers rest⟩

end

/-- Conditions have a document that can be read, whether or not they repeat names. -/
theorem Conditions.usable_toJson (conditions : Conditions) : conditions.toJson.Usable :=
  Conditions.usableMembers_toMembers conditions

/-!
### Reading back
-/

/-- A value is read back from its document, the bounds of 64 bits included. -/
theorem Value.ofJson?_toJson (value : Value) : Value.ofJson? value.toJson = some value := by
  cases value with
  | null => rfl
  | boolean b => rfl
  | integer n =>
      have bounds : Int64.minValue.toInt ≤ n.toInt ∧ n.toInt ≤ Int64.maxValue.toInt :=
        ⟨Int64.minValue_le_toInt n, Int64.toInt_le n⟩
      rw [Value.toJson, Value.ofJson?, if_pos bounds, Int64.ofInt_toInt]
  | text s => rfl

/-- A plain value is taken for an equality. -/
theorem Condition.ofJson?_value (value : Value) :
    Condition.ofJson? value.toJson = some (.equals value) := by
  have read := value.ofJson?_toJson
  cases value with
  | null => rfl
  | boolean b => rfl
  | integer n =>
      rw [Value.toJson] at read ⊢
      simp only [Condition.ofJson?, read, Option.map_some]
  | text s => rfl

mutual

/-- A condition is read back as it was, told apart by its shape. -/
theorem Condition.ofJson?_toJson : ∀ condition : Condition, condition.Distinct →
    Condition.ofJson? condition.toJson = some condition
  | .equals value, _ => Condition.ofJson?_value value
  | .anyOf values, _ => by
      rw [Condition.toJson, Condition.ofJson?, Json.mapM_map_eq_some Value.ofJson?_toJson,
        Option.map_some]
  | .nested conditions, distinct => by
      rw [Condition.toJson, Condition.ofJson?,
        Conditions.ofMembers?_toMembers conditions distinct.2, Option.map_some,
        distinct.1.ofList_eq]

theorem Conditions.ofMembers?_toMembers : ∀ conditions : Conditions,
    Conditions.AllDistinct conditions →
    Conditions.ofMembers? (Conditions.toMembers conditions) = some conditions
  | [], _ => rfl
  | (name, condition) :: rest, distinct => by
      rw [Conditions.toMembers, Conditions.ofMembers?,
        Condition.ofJson?_toJson condition distinct.1,
        Conditions.ofMembers?_toMembers rest distinct.2]

end

/-- Conditions without repeated names are read back from their document. -/
theorem Conditions.ofJson?_toJson {conditions : Conditions} (distinct : conditions.Distinct) :
    Conditions.ofJson? conditions.toJson = some conditions := by
  rw [Conditions.toJson, Conditions.ofJson?, Conditions.ofMembers?_toMembers conditions distinct.2,
    Option.map_some, distinct.1.ofList_eq]

/-!
### What is read
-/

/-- A bound on the depth is a bound on the depth of each condition. -/
theorem Conditions.depthOfEach_le_iff {conditions : Conditions} {bound : Nat} :
    conditions.depthOfEach ≤ bound ↔ ∀ entry ∈ conditions, entry.2.depth ≤ bound := by
  induction conditions with
  | nil => simp [Conditions.depthOfEach]
  | cons entry rest ih => rw [Conditions.depthOfEach, Nat.max_le, ih, List.forall_mem_cons]

/-- Conditions that are written one after another keep what each of them is. -/
theorem Conditions.distinct_ofList {pairs : List (String × Condition)}
    (distinct : Conditions.AllDistinct pairs) :
    Conditions.Distinct (Entries.ofList pairs) := by
  refine ⟨Entries.unique_ofList pairs, Conditions.allDistinct_iff.mpr ?_⟩
  intro entry member
  exact Conditions.allDistinct_iff.mp distinct entry (Entries.mem_of_mem_ofList member)

/-- Dropping all but the last condition of a name makes nothing deeper. -/
theorem Conditions.depthOfEach_ofList_le (pairs : List (String × Condition)) :
    Conditions.depthOfEach (Entries.ofList pairs) ≤ Conditions.depthOfEach pairs := by
  rw [Conditions.depthOfEach_le_iff]
  intro entry member
  exact Conditions.depthOfEach_le_iff.mp (Nat.le_refl _) entry (Entries.mem_of_mem_ofList member)

mutual

/-- A condition that is read has unique names and is nested no deeper than what it is read from. -/
theorem Condition.distinct_and_depth_le_of_ofJson? : ∀ {document : Json} {condition : Condition},
    Condition.ofJson? document = some condition →
    condition.Distinct ∧ condition.depth ≤ document.depth
  | .array items, _, read => by
      rw [Condition.ofJson?, Option.map_eq_some_iff] at read
      obtain ⟨values, _, rfl⟩ := read
      exact ⟨trivial, Nat.le_add_left 1 _⟩
  | .object members, _, read => by
      rw [Condition.ofJson?, Option.map_eq_some_iff] at read
      obtain ⟨pairs, inner, rfl⟩ := read
      obtain ⟨distinct, shallow⟩ := Conditions.distinct_and_depth_le_of_ofMembers? inner
      refine ⟨Conditions.distinct_ofList distinct, Nat.succ_le_succ ?_⟩
      -- Of a repeated name one condition is left, so there may be less than was written.
      exact Nat.le_trans (Conditions.depthOfEach_ofList_le pairs) shallow
  | .null, _, rfl => ⟨trivial, Nat.le_refl 0⟩
  | .boolean _, _, rfl => ⟨trivial, Nat.le_refl 0⟩
  | .string _, _, rfl => ⟨trivial, Nat.le_refl 0⟩
  | .integer n, _, read => by
      simp only [Condition.ofJson?, Option.map_eq_some_iff] at read
      obtain ⟨value, _, rfl⟩ := read
      exact ⟨trivial, Nat.zero_le _⟩

/-- What is read from the members of an object repeats no name below the top, and is nested no
    deeper than the members. -/
theorem Conditions.distinct_and_depth_le_of_ofMembers? :
    ∀ {members : List (String × Json)} {pairs : List (String × Condition)},
    Conditions.ofMembers? members = some pairs →
    Conditions.AllDistinct pairs ∧ Conditions.depthOfEach pairs ≤ Json.depthOfMembers members
  | [], _, rfl => ⟨trivial, Nat.le_refl 0⟩
  | (name, value) :: rest, _, read => by
      rw [Conditions.ofMembers?] at read
      split at read
      · next condition conditions first others =>
          cases read
          obtain ⟨distinct, shallow⟩ := Condition.distinct_and_depth_le_of_ofJson? first
          obtain ⟨distinctRest, shallowRest⟩ :=
            Conditions.distinct_and_depth_le_of_ofMembers? others
          refine ⟨⟨distinct, distinctRest⟩, ?_⟩
          rw [Conditions.depthOfEach, Json.depthOfMembers]
          omega
      · cases read

end

namespace Conditions

/-- Whatever a document repeats, the conditions that are read from it do not. -/
theorem distinct_of_ofJson? {document : Json} {conditions : Conditions}
    (read : ofJson? document = some conditions) : conditions.Distinct := by
  cases document with
  | object members =>
      rw [ofJson?, Option.map_eq_some_iff] at read
      obtain ⟨pairs, inner, rfl⟩ := read
      exact distinct_ofList (distinct_and_depth_le_of_ofMembers? inner).1
  | _ => cases read

/-- Conditions are nested no deeper than the document they are read from. -/
theorem depth_le_of_ofJson? {document : Json} {conditions : Conditions}
    (read : ofJson? document = some conditions) : conditions.depth ≤ document.depth := by
  cases document with
  | object members =>
      rw [ofJson?, Option.map_eq_some_iff] at read
      obtain ⟨pairs, inner, rfl⟩ := read
      have shallow := (distinct_and_depth_le_of_ofMembers? inner).2
      exact Nat.succ_le_succ (Nat.le_trans (depthOfEach_ofList_le pairs) shallow)
  | _ => cases read

/-!
### Texts
-/

/-- Written conditions are read back up to the limit of depth, and not at all beyond it. -/
theorem ofText?_toText {conditions : Conditions} (distinct : conditions.Distinct) :
    ofText? conditions.toText =
      if conditions.depth ≤ Json.depthLimit then some conditions else none := by
  rw [ofText?, toText, Json.ofShallowText?, Json.ofText?_toText conditions.usable_toJson]
  by_cases shallow : conditions.depth ≤ Json.depthLimit
  · have kept : conditions.toJson.depth ≤ Json.depthLimit := conditions.depth_toJson ▸ shallow
    rw [Option.filter_some, if_pos (decide_eq_true kept), Option.bind_some, ofJson?_toJson distinct,
      if_pos shallow]
  · have dropped : ¬ conditions.toJson.depth ≤ Json.depthLimit := conditions.depth_toJson ▸ shallow
    rw [Option.filter_some, if_neg (by simpa using dropped), Option.bind_none, if_neg shallow]

/-- What is read from a text has unique names and is not nested beyond the limit. -/
theorem distinct_and_depth_le_of_ofText? {text : String} {conditions : Conditions}
    (read : ofText? text = some conditions) :
    conditions.Distinct ∧ conditions.depth ≤ Json.depthLimit := by
  rw [ofText?, Option.bind_eq_some_iff] at read
  obtain ⟨document, held, found⟩ := read
  rw [Json.ofShallowText?, Option.filter_eq_some_iff] at held
  have shallow : document.depth ≤ Json.depthLimit := of_decide_eq_true held.2
  exact ⟨distinct_of_ofJson? found, Nat.le_trans (depth_le_of_ofJson? found) shallow⟩

/-- The JSON text of conditions is faithful. Conditions with unique names, whatever their strings,
    numbers and kinds, are read back as they were if they are nested at most 127 deep, and their
    text is refused if they are nested deeper. What was read from any text is read again from its
    own text. -/
theorem text_form_faithful :
    (∀ conditions : Conditions, conditions.Distinct →
      (conditions.depth ≤ 127 → ofText? conditions.toText = some conditions) ∧
      (128 ≤ conditions.depth → ofText? conditions.toText = none)) ∧
    ∀ (text : String) (conditions : Conditions), ofText? text = some conditions →
      ofText? conditions.toText = some conditions := by
  refine ⟨fun conditions distinct => ⟨fun shallow => ?_, fun deep => ?_⟩, ?_⟩
  · rw [ofText?_toText distinct]
    exact if_pos shallow
  · rw [ofText?_toText distinct]
    exact if_neg (Nat.not_le.mpr deep)
  · intro text conditions read
    obtain ⟨distinct, shallow⟩ := distinct_and_depth_le_of_ofText? read
    rw [ofText?_toText distinct, if_pos shallow]

namespace Extremes

/-- Strings that have to be escaped, both ends of the integers, and what is empty. -/
def unruly : Conditions :=
  [("say \"\\\n\u0001\" é𝄞", .equals (.text "\t\u001f/\u007f")),
    ("", .anyOf [.integer Int64.minValue, .integer Int64.maxValue, .null, .boolean false]),
    ("none", .anyOf []),
    ("all", .nested []),
    ("more", .nested [("", .equals .null), ("none", .nested [("none", .anyOf [.text ""])])])]

/-- A choice under so many nested conditions. -/
def buried : Nat → Conditions
  | 0 => [("found", .anyOf [])]
  | levels + 1 => [("inside", .nested (buried levels))]

theorem distinct_buried (levels : Nat) : (buried levels).Distinct := by
  induction levels with
  | zero => exact ⟨List.pairwise_singleton _ _, trivial, trivial⟩
  | succ levels ih => exact ⟨List.pairwise_singleton _ _, ih, trivial⟩

theorem depth_buried (levels : Nat) : (buried levels).depth = levels + 2 := by
  induction levels with
  | zero => rfl
  | succ levels ih =>
      rw [Conditions.depth] at ih ⊢
      rw [buried, depthOfEach, Condition.depth, ih, depthOfEach, Nat.max_zero]

end Extremes

/-- The strings, numbers and empty conditions that are easily lost, the two sides of the limit, and
    a text with blanks, an escape and a repeated name. -/
theorem extremes_kept :
    ofText? Extremes.unruly.toText = some Extremes.unruly ∧
    ofText? (Extremes.buried 125).toText = some (Extremes.buried 125) ∧
    ofText? (Extremes.buried 126).toText = none ∧
    ofText? "\x7b \"a\" : 1 , \"b\" : [] , \"\\u0061\" : \x7b \x7d \x7d" =
      some [("a", .nested []), ("b", .anyOf [])] ∧
    ofText? (toText [("a", .nested []), ("b", .anyOf [])]) =
      some [("a", .nested []), ("b", .anyOf [])] := by
  have read : ofText? "\x7b \"a\" : 1 , \"b\" : [] , \"\\u0061\" : \x7b \x7d \x7d" =
      some [("a", .nested []), ("b", .anyOf [])] := by
    rw [ofText?, Json.ofShallowText?, Json.ofText?, String.toList_ofList]
    rfl
  have plain : Extremes.unruly.Distinct := by
    refine ⟨by decide, trivial, trivial, trivial, ⟨List.nodup_nil, trivial⟩, ?_⟩
    exact ⟨⟨by decide, trivial, ⟨by decide, trivial, trivial⟩, trivial⟩, trivial⟩
  refine ⟨?_, ?_, ?_, read, text_form_faithful.2 _ _ read⟩
  · exact (text_form_faithful.1 Extremes.unruly plain).1 (by decide)
  · exact (text_form_faithful.1 _ (Extremes.distinct_buried 125)).1
      (Nat.le_of_eq (Extremes.depth_buried 125))
  · exact (text_form_faithful.1 _ (Extremes.distinct_buried 126)).2
      (Nat.le_of_eq (Extremes.depth_buried 126).symm)

end Conditions

end Permit
