/-
Module: Permit.Proofs.Policy.Attributes
Layer: Proofs
Purpose: What a new object must carry. Each name that an equality of a relevant grant asks for has
  the value of the last such grant, in the place of its first mention. An object that carries these
  values passes the last rule, if that is a grant that asks for nothing but equalities, because no
  later grant has overridden what it asks for.
Main exports: Entries.get?_ofList_append, Entries.names_ofList, Condition.isEquality,
  Guard.equalityNames, Guard.Distinct, Guard.OnlyEqualities, Rule.Expects,
  Policy.get?_attributesFor_iff, Policy.names_attributesFor, Policy.new_objects_are_covered
-/
import Mathlib.Data.List.Induction
import Permit.Proofs.Verdict.Outcome
import Permit.Record

namespace Permit

/-!
### Writing one list after another
-/

namespace Entries

variable {α : Type}

/-- A pair that comes last overrides the value of its name, or comes last in the entries. -/
theorem ofList_concat (pairs : List (String × α)) (pair : String × α) :
    ofList (pairs ++ [pair]) = (ofList pairs).put pair.1 pair.2 := by
  rw [ofList, ofList, List.foldl_append, List.foldl_cons, List.foldl_nil]

/-- What is written later counts, and what is written earlier where nothing is. -/
theorem get?_ofList_append (first second : List (String × α)) (name : String) :
    (ofList (first ++ second)).get? name =
      ((ofList second).get? name).or ((ofList first).get? name) := by
  induction second using List.reverseRecOn with
  | nil => rw [List.append_nil]; rfl
  | append_singleton second pair ih =>
      rw [← List.append_assoc, ofList_concat, ofList_concat, get?_put, get?_put, ih]
      split <;> rfl

/-- The names come in the order in which they are first written. -/
theorem names_ofList (pairs : List (String × α)) :
    (ofList pairs).names = (pairs.map Prod.fst).eraseDups := by
  induction pairs using List.reverseRecOn with
  | nil => rfl
  | append_singleton pairs pair ih =>
      rw [ofList_concat, names_put, ih, List.map_append, List.eraseDups_append]
      split
      · next known => simp [List.removeAll, List.mem_eraseDups.mp known]
      · next new =>
          rw [List.mem_eraseDups] at new
          simp [List.removeAll, new, List.eraseDups_cons]

theorem Unique.get?_eq_some_iff {entries : Entries α} (unique : entries.Unique) {name : String}
    {value : α} : entries.get? name = some value ↔ (name, value) ∈ entries :=
  ⟨mem_of_get?, unique.get?_of_mem⟩

/-- What is written from one list after another is what the last of them that has the name says. -/
theorem get?_ofList_flatMap {β : Type} (entriesOf : β → Entries α) (items : List β) (name : String)
    (unique : ∀ item ∈ items, (entriesOf item).Unique) :
    (ofList (items.flatMap entriesOf)).get? name =
      items.reverse.findSome? (fun item => (entriesOf item).get? name) := by
  induction items using List.reverseRecOn with
  | nil => rfl
  | append_singleton items item ih =>
      rw [List.forall_mem_append, List.forall_mem_singleton] at unique
      rw [List.flatMap_append, List.flatMap_singleton, get?_ofList_append, unique.2.ofList_eq,
        ih unique.1, List.reverse_concat, List.findSome?_cons]
      cases (entriesOf item).get? name <;> rfl

end Entries

/-!
### Equalities
-/

/-- The condition asks for one value. -/
def Condition.isEquality : Condition → Bool
  | .equals _ => true
  | _ => false

variable {ρ : Type}

namespace Guard

/-- The names under which the guard's own conditions ask for one value, in their order. -/
def equalityNames : Guard ρ → List String
  | .hash conditions => (conditions.filter (fun entry => entry.2.isEquality)).map Prod.fst
  | _ => []

/-- No name occurs twice among the guard's own conditions. -/
def Distinct : Guard ρ → Prop
  | .hash conditions => Entries.Unique conditions
  | _ => True

/-- The guard is unconditional, or all its own conditions are equalities. -/
inductive OnlyEqualities : Guard ρ → Prop where
  | unconditional : OnlyEqualities .unconditional
  | hash (conditions : Conditions)
      (equalities : ∀ entry ∈ conditions, ∃ value, entry.2 = .equals value) :
      OnlyEqualities (.hash conditions)

/-- An object passes equalities if it carries each value that is asked for. -/
theorem OnlyEqualities.decide?_eq [Resource ρ] {guard : Guard ρ} {object : ρ}
    (onlyEqualities : guard.OnlyEqualities) (distinct : guard.Distinct)
    (carries : ∀ conditions name value, guard = .hash conditions →
      Entries.get? conditions name = some (.equals value) → Resource.attr object name = value) :
    guard.decide? object = some true := by
  cases onlyEqualities with
  | unconditional => rfl
  | hash conditions equalities =>
      rw [decide?, Conditions.holdFor_eq_all, Option.some.injEq, List.all_eq_true]
      rintro ⟨name, condition⟩ member
      obtain ⟨value, rfl⟩ := equalities _ member
      exact beq_iff_eq.mpr
        (carries conditions name value rfl (Entries.Unique.get?_of_mem distinct member))

end Guard

namespace Rule

/-- The rule is a grant, and one of its own conditions asks for the value under the name. -/
def Expects (rule : Rule ρ) (name : String) (value : Value) : Prop :=
  rule.isAllow = true ∧
    ∃ conditions, rule.guard = .hash conditions ∧
      Entries.get? conditions name = some (.equals value)

/-- The equalities of a grant, none of a denial. -/
def granted (rule : Rule ρ) : Entries Value := if rule.isAllow then rule.attributes else []

variable {rule : Rule ρ} {rules : List (Rule ρ)} {name : String} {value : Value}

/-- The attributes of a rule are the equalities of its conditions, and a rule without conditions has
    none. -/
theorem mem_attributes_iff :
    (name, value) ∈ rule.attributes ↔
      ∃ conditions, rule.guard = .hash conditions ∧ (name, .equals value) ∈ conditions := by
  unfold attributes
  cases rule.guard with
  | hash conditions =>
      simp only [List.mem_filterMap, Guard.hash.injEq, exists_eq_left']
      constructor
      · rintro ⟨⟨known, condition⟩, member, asked⟩
        cases condition <;> cases asked
        exact member
      · intro member
        exact ⟨_, member, rfl⟩
  | _ => simp

/-- The attributes of a rule have the names of its equalities, in their order. -/
theorem names_attributes (rule : Rule ρ) :
    Entries.names rule.attributes = rule.guard.equalityNames := by
  unfold attributes Guard.equalityNames
  cases rule.guard with
  | hash conditions =>
      induction conditions with
      | nil => rfl
      | cons entry rest ih =>
          obtain ⟨known, condition⟩ := entry
          cases condition <;> simp_all [Entries.names, Condition.isEquality]
  | _ => rfl

theorem unique_granted (distinct : rule.guard.Distinct) : rule.granted.Unique := by
  rw [granted]
  split
  · rw [Entries.Unique, names_attributes]
    cases guarded : rule.guard with
    | hash conditions =>
        rw [guarded] at distinct
        exact List.Nodup.sublist (List.filter_sublist.map Prod.fst) distinct
    | _ => exact List.nodup_nil
  · exact List.nodup_nil

/-- Where no name occurs twice, what a grant asks for is found among its equalities. -/
theorem get?_granted_iff (distinct : rule.guard.Distinct) :
    rule.granted.get? name = some value ↔ rule.Expects name value := by
  rw [(unique_granted distinct).get?_eq_some_iff, granted, Expects]
  split
  · next allows =>
      rw [mem_attributes_iff]
      simp only [allows, true_and]
      refine exists_congr fun conditions => and_congr_right fun guarded => ?_
      rw [guarded] at distinct
      rw [Entries.Unique.get?_eq_some_iff distinct]
  · next denies => simp [denies]

/-- A rule grants no value to a name of which it expects none. -/
theorem get?_granted_eq_none_iff (distinct : rule.guard.Distinct) :
    rule.granted.get? name = none ↔ ∀ other, ¬ rule.Expects name other := by
  simp only [Option.eq_none_iff_forall_ne_some, ne_eq, get?_granted_iff distinct]

/-- What all rules grant are the attributes of the allowing ones. The denying rules
    grant nothing. -/
theorem flatMap_granted (rules : List (Rule ρ)) :
    rules.flatMap granted = (rules.filter isAllow).flatMap attributes := by
  induction rules with
  | nil => rfl
  | cons rule rest ih =>
      rw [List.flatMap_cons, ih, List.filter_cons, granted]
      split
      · rw [List.flatMap_cons]
      · rw [List.nil_append]

end Rule

namespace Policy

variable {policy : Policy ρ} {action subject name : String} {value : Value}

/-- A name has the value that the last relevant rule to expect one under it expects. -/
theorem get?_attributesFor_iff
    (distinct : ∀ rule ∈ policy.relevant action subject, rule.guard.Distinct) :
    (policy.attributesFor action subject).get? name = some value ↔
      ∃ before rule after, policy.relevant action subject = before ++ rule :: after ∧
        rule.Expects name value ∧ ∀ later ∈ after, ∀ other, ¬ later.Expects name other := by
  rw [attributesFor, ← Rule.flatMap_granted, Entries.get?_ofList_flatMap _ _ _
    fun rule member => Rule.unique_granted (distinct rule member), List.findSome?_eq_some_iff]
  constructor
  · rintro ⟨after, rule, before, reversed, found, absent⟩
    have whole : policy.relevant action subject = before.reverse ++ rule :: after.reverse := by
      rw [List.reverse_eq_iff.mp reversed]
      simp
    rw [whole] at distinct
    refine ⟨before.reverse, rule, after.reverse, whole,
      (Rule.get?_granted_iff (distinct rule (by simp))).mp found, ?_⟩
    intro later member
    exact (Rule.get?_granted_eq_none_iff (distinct later (by simp_all))).mp
      (absent later (List.mem_reverse.mp member))
  · rintro ⟨before, rule, after, whole, expects, last⟩
    rw [whole] at distinct ⊢
    refine ⟨after.reverse, rule, before.reverse, by simp,
      (Rule.get?_granted_iff (distinct rule (by simp))).mpr expects, ?_⟩
    intro later member
    exact (Rule.get?_granted_eq_none_iff (distinct later (by simp_all))).mpr
      (last later (List.mem_reverse.mp member))

/-- The names come in the order in which relevant grants first ask for a value under them. -/
theorem names_attributesFor (policy : Policy ρ) (action subject : String) :
    (policy.attributesFor action subject).names =
      (((policy.relevant action subject).filter Rule.isAllow).flatMap
        (fun rule => rule.guard.equalityNames)).eraseDups := by
  rw [attributesFor, Entries.names_ofList, List.map_flatMap]
  congr 2
  funext rule
  exact rule.names_attributes

/-- What a last grant expects no later rule overrides. -/
theorem get?_attributesFor_of_last {before : List (Rule ρ)} {rule : Rule ρ}
    (distinct : ∀ rule ∈ policy.relevant action subject, rule.guard.Distinct)
    (last : policy.relevant action subject = before ++ [rule])
    (expects : rule.Expects name value) :
    (policy.attributesFor action subject).get? name = some value :=
  (get?_attributesFor_iff distinct).mpr ⟨before, rule, [], last, expects, nofun⟩

/-- What is asked of a new object is, under each name, the value that the last relevant grant to ask
    for one under it asks for, and the names come in the order in which grants first ask. An object
    that carries all this is permitted, whatever else it holds, if the last relevant rule is a grant
    that is unconditional or asks for equalities only. -/
theorem new_objects_are_covered [Resource ρ] (policy : Policy ρ) (action subject : String)
    (distinct : ∀ rule ∈ policy.relevant action subject, rule.guard.Distinct) :
    (∀ name value, (policy.attributesFor action subject).get? name = some value ↔
      ∃ before rule after, policy.relevant action subject = before ++ rule :: after ∧
        rule.Expects name value ∧ ∀ later ∈ after, ∀ other, ¬ later.Expects name other) ∧
    (policy.attributesFor action subject).Unique ∧
    (policy.attributesFor action subject).names =
      (((policy.relevant action subject).filter Rule.isAllow).flatMap
        (fun rule => rule.guard.equalityNames)).eraseDups ∧
    ∀ (before : List (Rule ρ)) (rule : Rule ρ),
      policy.relevant action subject = before ++ [rule] → rule.isAllow = true →
      rule.guard.OnlyEqualities → ∀ object : ρ, Resource.subjectType object = subject →
      (∀ name value, (policy.attributesFor action subject).get? name = some value →
        Resource.attr object name = value) →
      policy.can action object = .ok true := by
  refine ⟨fun _ _ => get?_attributesFor_iff distinct, Entries.unique_ofList _,
    names_attributesFor policy action subject, ?_⟩
  intro before rule last allows onlyEqualities object type carries
  have passes : rule.appliesTo object = .ok true := by
    rw [Rule.appliesTo_eq_ok_iff]
    refine onlyEqualities.decide?_eq (distinct rule (by simp [last])) ?_
    intro conditions name value guarded asked
    exact carries name value
      (get?_attributesFor_of_last distinct last ⟨allows, conditions, guarded, asked⟩)
  rw [can, type, last, List.reverse_concat, Rule.firstVerdict, passes]
  exact congrArg Except.ok allows

end Policy

/-!
### A magazine's desk

The grant to editors overrides the owner that the grant to writers asks for, and adds a section that
is null. Neither the choice of a state nor the denial counts.
-/

namespace Desk

def writers : Rule Record :=
  Rule.declare .allow ["create", "new"] ["Article"]
    (.hash [("owner", .equals (.integer 3)), ("state", .anyOf [.text "draft"]),
      ("kind", .equals (.text "note"))])

def retired : Rule Record :=
  Rule.declare .deny ["new"] ["Article"] (.hash [("owner", .equals (.integer 9))])

def readers : Rule Record :=
  Rule.declare .allow ["new"] ["Comment"] (.hash [("kind", .equals (.text "reply"))])

def editors : Rule Record :=
  Rule.declare .allow ["manage"] ["all"]
    (.hash [("section", .equals .null), ("owner", .equals (.integer 4))])

def policy : Policy Record := ⟨[writers, retired, readers, editors], .standard⟩

def article : Record :=
  (((Record.ofId "Article" (.integer 1)).set "owner" (.integer 4)).set "kind" (.text "note")).set
    "state" (.text "closed")

theorem relevant_eq : policy.relevant "new" "Article" = [writers, retired] ++ [editors] := rfl

theorem distinct : ∀ rule ∈ policy.relevant "new" "Article", rule.guard.Distinct := by
  intro rule member
  simp only [relevant_eq, List.cons_append, List.nil_append, List.mem_cons, List.not_mem_nil,
    or_false] at member
  rcases member with rfl | rfl | rfl <;> (change Entries.Unique _; decide)

theorem carries (name : String) (value : Value)
    (found : (policy.attributesFor "new" "Article").get? name = some value) :
    Resource.attr article name = value := by
  have listed : (name, value) ∈ [("owner", Value.integer 4), ("kind", .text "note"),
      ("section", .null)] := Entries.mem_of_get? found
  simp only [List.mem_cons, Prod.mk.injEq, List.not_mem_nil, or_false] at listed
  rcases listed with ⟨rfl, rfl⟩ | ⟨rfl, rfl⟩ | ⟨rfl, rfl⟩ <;> rfl

end Desk

theorem Policy.desk_articles_covered :
    (∀ rule ∈ Desk.policy.relevant "new" "Article", rule.guard.Distinct) ∧
    (∃ before rule after, Desk.policy.relevant "new" "Article" = before ++ rule :: after ∧
      rule.Expects "kind" (.text "note") ∧
      ∀ later ∈ after, ∀ other, ¬ later.Expects "kind" other) ∧
    (Desk.policy.attributesFor "new" "Article").names = ["owner", "kind", "section"] ∧
    (((Desk.policy.relevant "new" "Article").filter Rule.isAllow).flatMap
      (fun rule => rule.guard.equalityNames)).eraseDups = ["owner", "kind", "section"] ∧
    Desk.editors.guard.OnlyEqualities ∧
    Desk.policy.can "new" Desk.article = .ok true := by
  obtain ⟨values, _, names, covered⟩ :=
    new_objects_are_covered Desk.policy "new" "Article" Desk.distinct
  have equalities : Desk.editors.guard.OnlyEqualities := by
    apply Guard.OnlyEqualities.hash
    simp
  exact ⟨Desk.distinct, (values "kind" (.text "note")).mp rfl, rfl, names.symm, equalities,
    covered _ _ Desk.relevant_eq rfl equalities Desk.article rfl Desk.carries⟩

end Permit
