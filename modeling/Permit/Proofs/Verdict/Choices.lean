/-
Module: Permit.Proofs.Verdict.Choices
Layer: Proofs
Purpose: A rule whose conditions leave a choice among values says what a rule for each value says
  together. The rules for the values stand in its place, are about the same actions and subjects and
  have its polarity, so that the scan comes to one verdict wherever one of them applies, and goes on
  to the same rules where none does.
Main exports: Rule.spellOut, Rule.SpellsOut, Rule.firstVerdict_append_of_clear,
  Rule.firstVerdict_spellOut, Rule.SpellsOut.expand, Rule.SpellsOut.firstVerdict_eq,
  Policy.choice_is_union
-/
import Permit.Proofs.Condition.Choices
import Permit.Proofs.Policy.Declaration
import Permit.Proofs.Verdict.Outcome
import Permit.Record

namespace Permit

variable {ρ : Type}

namespace Rule

/-- One rule for each value, with the value in the place of what stands under the name below the
    path in the conditions, and otherwise as the rule. -/
def spellOut (rule : Rule ρ) (conditions : Conditions) (path : List String) (name : String)
    (values : List Value) : List (Rule ρ) :=
  values.map (fun value =>
    { rule with guard := .hash (conditions.writeAt path name (.equals value)) })

/-- Where the first list has a rule with a choice, the second has the rules for its values, and it
    is otherwise the first. -/
inductive SpellsOut : List (Rule ρ) → List (Rule ρ) → Prop where
  | choice (before after : List (Rule ρ)) {rule : Rule ρ} {conditions : Conditions}
      {path : List String} {name : String} {values : List Value}
      (guarded : rule.guard = .hash conditions)
      (chosen : conditions.conditionAt? path name = some (.anyOf values)) :
      SpellsOut (before ++ rule :: after)
        (before ++ (rule.spellOut conditions path name values ++ after))

section

variable {rule : Rule ρ} {conditions : Conditions} {path : List String} {name : String}
  {values : List Value} {rules others : List (Rule ρ)}

/-!
### What the rules are about
-/

/-- A rule can be spelled out before or after its actions are expanded. -/
theorem expand_spellOut (settings : Settings) :
    (rule.spellOut conditions path name values).map (expand settings) =
      (rule.expand settings).spellOut conditions path name values := by
  rw [spellOut, List.map_map]
  rfl

/-- A rule for a value differs from the rule in its guard only. -/
theorem of_mem_spellOut {copy : Rule ρ}
    (member : copy ∈ rule.spellOut conditions path name values) :
    (copy.guard.isOpaque = false ∧ copy.isAllow = rule.isAllow) ∧
      ∀ action subject, copy.isRelevant action subject = rule.isRelevant action subject := by
  obtain ⟨value, _, rfl⟩ := List.mem_map.mp member
  exact ⟨⟨rfl, rfl⟩, fun _ _ => rfl⟩

/-- The rules for the values are relevant where the rule is. -/
theorem filter_spellOut (action subject : String) :
    (rule.spellOut conditions path name values).filter
        (fun rule => rule.isRelevant action subject) =
      if rule.isRelevant action subject then rule.spellOut conditions path name values else [] := by
  rw [List.filter_congr (fun _ member => (of_mem_spellOut member).2 action subject)]
  cases rule.isRelevant action subject <;> simp

/-- Lists of rules spell out alike after their actions are expanded. -/
theorem SpellsOut.expand (settings : Settings) (spellsOut : SpellsOut rules others) :
    SpellsOut (rules.map (Rule.expand settings)) (others.map (Rule.expand settings)) := by
  obtain @⟨before, after, rule, conditions, path, name, values, guarded, chosen⟩ := spellsOut
  have expanded : (rule.expand settings).guard = .hash conditions := guarded
  rw [List.map_append, List.map_append, List.map_append, List.map_cons, expand_spellOut]
  exact .choice _ _ expanded chosen

/-!
### What the rules say
-/

variable [Resource ρ] {object : ρ}

/-- Rules of one polarity that can all be decided give one verdict, where one of them applies. -/
theorem firstVerdict_append_of_clear {allows : Bool} {first : List (Rule ρ)}
    (clear : ∀ rule ∈ first, rule.guard.isOpaque = false ∧ rule.isAllow = allows)
    (rest : List (Rule ρ)) :
    firstVerdict object (first ++ rest) =
      if first.any (letsPass object) then .ok allows else firstVerdict object rest := by
  induction first with
  | nil => rfl
  | cons rule others ih =>
      rw [List.forall_mem_cons] at clear
      obtain ⟨⟨plain, agrees⟩, clearRest⟩ := clear
      rw [List.cons_append, firstVerdict, appliesTo_of_clear plain, List.any_cons]
      cases letsPass object rule with
      | true => rw [agrees, Bool.true_or, if_pos rfl]
      | false =>
          rw [Bool.false_or]
          exact ih clearRest

/-- The rules for the values of a choice, tried from the last on, say what the rule says. -/
theorem firstVerdict_spellOut (guarded : rule.guard = .hash conditions)
    (chosen : conditions.conditionAt? path name = some (.anyOf values)) (rest : List (Rule ρ)) :
    firstVerdict object ((rule.spellOut conditions path name values).reverse ++ rest) =
      firstVerdict object (rule :: rest) := by
  have union : (rule.spellOut conditions path name values).reverse.any (letsPass object) =
      [rule].any (letsPass object) := by
    rw [List.any_reverse, spellOut, List.any_map, List.any_cons, List.any_nil, Bool.or_false,
      letsPass, guarded]
    exact (Conditions.holdFor_eq_any_writeAt chosen object).symm
  have copies : ∀ copy ∈ (rule.spellOut conditions path name values).reverse,
      copy.guard.isOpaque = false ∧ copy.isAllow = rule.isAllow :=
    fun copy member => (of_mem_spellOut (List.mem_reverse.mp member)).1
  have single : ∀ other ∈ [rule], other.guard.isOpaque = false ∧ other.isAllow = rule.isAllow := by
    intro other member
    rw [List.mem_singleton.mp member, guarded]
    exact ⟨rfl, rfl⟩
  rw [← List.singleton_append, firstVerdict_append_of_clear copies rest,
    firstVerdict_append_of_clear single rest, union]

/-- What is relevant comes to the same verdict. -/
theorem SpellsOut.firstVerdict_eq (spellsOut : SpellsOut rules others) (action subject : String)
    (object : ρ) :
    firstVerdict object (rules.filter (fun rule => rule.isRelevant action subject)).reverse =
      firstVerdict object (others.filter (fun rule => rule.isRelevant action subject)).reverse := by
  obtain @⟨before, after, rule, conditions, path, name, values, guarded, chosen⟩ := spellsOut
  simp only [List.filter_append, List.filter_cons, filter_spellOut, List.reverse_append]
  split
  · rw [List.reverse_cons, List.append_assoc, List.append_assoc, List.singleton_append,
      firstVerdict_append, firstVerdict_append, firstVerdict_spellOut guarded chosen]
  · rw [List.reverse_nil, List.append_nil]

end

end Rule

namespace Policy

/-- Conditions with a choice, however deep, hold where they hold with one of its values in the place
    of the choice, and nowhere if there is none. So checks say the same of every object when a rule
    with a choice gives way to a rule for each value, be it among declared rules or in a policy. -/
theorem choice_is_union [Resource ρ] :
    (∀ (conditions : Conditions) (path : List String) (name : String) (values : List Value),
      conditions.conditionAt? path name = some (.anyOf values) → ∀ object : ρ,
        (conditions.holdFor object = true ↔
          ∃ value ∈ values,
            (conditions.writeAt path name (.equals value)).holdFor object = true) ∧
        (values = [] → conditions.holdFor object = false)) ∧
    (∀ policy other : Policy ρ, Rule.SpellsOut policy.rules other.rules →
      ∀ (action : String) (object : ρ), policy.can action object = other.can action object) ∧
    ∀ (settings : Settings) (rules others : List (Rule ρ)), Rule.SpellsOut rules others →
      ∀ (action : String) (object : ρ),
        (declared settings rules).can action object =
          (declared settings others).can action object := by
  refine ⟨?_, ?_, ?_⟩
  · intro conditions path name values chosen object
    rw [Conditions.holdFor_eq_any_writeAt chosen object]
    refine ⟨List.any_eq_true, ?_⟩
    rintro rfl
    rfl
  · intro policy other spellsOut action object
    exact spellsOut.firstVerdict_eq action (Resource.subjectType object) object
  · intro settings rules others spellsOut action object
    rw [can, can, relevant_declared, relevant_declared]
    exact (spellsOut.expand settings).firstVerdict_eq action (Resource.subjectType object) object

end Policy

/-!
### A clinic

A chart is closed where a room of its ward is locked or has no status at all. The choice stands
below a collection and a single association, and the rule before it is one that only a store can
decide.
-/

namespace Clinic

def statuses : List Value := [.text "locked", .null]

def closing : Conditions :=
  [("sealed", .equals (.boolean false)),
    ("ward", .nested [("rooms", .nested
      [("status", .anyOf statuses), ("floor", .equals (.integer 2))])])]

def onDuty : Rule Record :=
  Rule.declare .allow ["read"] ["Chart"] (.fragment ⟨"nurse = ?", [.integer 4]⟩ none)

def closed : Rule Record := Rule.declare .deny ["read", "print"] ["Chart"] (.hash closing)

def archived : Rule Record :=
  Rule.declare .allow ["manage"] ["all"] (.hash [("archived", .equals (.boolean true))])

def rules : List (Rule Record) := [onDuty] ++ closed :: [archived]

def spelledOut : List (Rule Record) :=
  [onDuty] ++ (closed.spellOut closing ["ward", "rooms"] "status" statuses ++ [archived])

def room : Record := (Record.ofId "Room" (.integer 8)).set "floor" (.integer 2)

def lockedRoom : Record := room.set "status" (.text "locked")

def chartIn (rooms : List Record) : Record :=
  ((Record.ofId "Chart" (.integer 1)).set "sealed" (.boolean false)).associate "ward"
    (.one ((Record.ofId "Ward" (.integer 2)).associate "rooms" (.many rooms)))

theorem spellsOut : Rule.SpellsOut rules spelledOut := .choice [onDuty] [archived] rfl rfl

end Clinic

theorem Policy.clinic_choices :
    Clinic.closing.conditionAt? ["ward", "rooms"] "status" = some (.anyOf Clinic.statuses) ∧
    (Clinic.closing.holdFor (Clinic.chartIn [Clinic.room]) = true ↔
      ∃ value ∈ Clinic.statuses,
        (Clinic.closing.writeAt ["ward", "rooms"] "status" (.equals value)).holdFor
          (Clinic.chartIn [Clinic.room]) = true) ∧
    Rule.SpellsOut Clinic.rules Clinic.spelledOut ∧
    (∀ rooms, Policy.can ⟨Clinic.rules, .standard⟩ "read" (Clinic.chartIn rooms) =
      Policy.can ⟨Clinic.spelledOut, .standard⟩ "read" (Clinic.chartIn rooms)) ∧
    (∀ rooms, (declared .standard Clinic.rules).can "show" (Clinic.chartIn rooms) =
      (declared .standard Clinic.spelledOut).can "show" (Clinic.chartIn rooms)) ∧
    Policy.can ⟨Clinic.rules, .standard⟩ "read" (Clinic.chartIn [Clinic.lockedRoom, Clinic.room]) =
      .ok false ∧
    Policy.can ⟨Clinic.rules, .standard⟩ "read" (Clinic.chartIn []) =
      .error (.unevaluable "read" "Chart" .fragment) := by
  obtain ⟨union, replaced, declaredAlike⟩ := choice_is_union (ρ := Record)
  exact ⟨rfl, (union _ _ _ _ rfl _).1, Clinic.spellsOut,
    fun rooms => replaced _ _ Clinic.spellsOut "read" (Clinic.chartIn rooms),
    fun rooms => declaredAlike .standard _ _ Clinic.spellsOut "show" (Clinic.chartIn rooms),
    rfl, rfl⟩

end Permit
