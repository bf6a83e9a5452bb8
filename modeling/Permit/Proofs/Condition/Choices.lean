/-
Module: Permit.Proofs.Condition.Choices
Layer: Proofs
Purpose: A choice among values is a union. However deep it stands among nested conditions, the
  conditions hold where they hold with one of the values in the place of the choice: the
  disjunction passes through the conjunction at each level and through the search for an associated
  object between the levels.
Main exports: Conditions.conditionAt?, Conditions.writeAt, Conditions.holdFor_eq_any_put,
  Conditions.holdFor_eq_any_writeAt
-/
import Permit.Condition

namespace Permit

namespace Conditions

/-!
### Paths

A path names associations, one nested in the other, and a last name stands below them.
-/

/-- The condition under a name below the nested conditions of a path. -/
def conditionAt? : Conditions → List String → String → Option Condition
  | conditions, [], name => Entries.get? conditions name
  | conditions, next :: path, name =>
      match Entries.get? conditions next with
      | some (.nested inner) => conditionAt? inner path name
      | _ => none

/-- The conditions with another one in the place of that under a name below a path. -/
def writeAt : Conditions → List String → String → Condition → Conditions
  | conditions, [], name, condition => Entries.put conditions name condition
  | conditions, next :: path, name, condition =>
      match Entries.get? conditions next with
      | some (.nested inner) =>
          Entries.put conditions next (.nested (writeAt inner path name condition))
      | _ => conditions

variable {ρ : Type} [Resource ρ]

/-- Conditions one after the other hold where both parts do. -/
theorem holdFor_append (conditions others : Conditions) (object : ρ) :
    Conditions.holdFor (conditions ++ others) object =
      (conditions.holdFor object && others.holdFor object) := by
  rw [holdFor_eq_all, holdFor_eq_all, holdFor_eq_all, List.all_append]

/-- Where one condition is as good as one of several, the conditions hold as they do with one of
    these in its place. -/
theorem holdFor_eq_any_put {ι : Type} {conditions : Conditions} {name : String}
    {old : Condition} (found : Entries.get? conditions name = some old) {choices : List ι}
    {chosen : ι → Condition} {object : ρ}
    (alike : old.holdsAt name object =
      choices.any (fun choice => (chosen choice).holdsAt name object)) :
    conditions.holdFor object =
      choices.any (fun choice =>
        Conditions.holdFor (Entries.put conditions name (chosen choice)) object) := by
  obtain ⟨before, after, rfl, written⟩ := Entries.exists_split_of_get? found
  simp only [written, holdFor_append, holdFor, alike, List.and_any_distrib_left,
    List.and_any_distrib_right]

/-- A choice among values holds where one of the equalities does. -/
theorem holdsAt_anyOf (name : String) (values : List Value) (object : ρ) :
    (Condition.anyOf values).holdsAt name object =
      values.any (fun value => (Condition.equals value).holdsAt name object) := by
  simp only [Condition.holdsAt, List.contains_eq_any_beq]

/-- Conditions with a choice at the end of a path hold where they hold with one of the values in the
    place of the choice. -/
theorem holdFor_eq_any_writeAt {conditions : Conditions} {path : List String} {name : String}
    {values : List Value} (chosen : conditions.conditionAt? path name = some (.anyOf values))
    (object : ρ) :
    conditions.holdFor object =
      values.any (fun value => (conditions.writeAt path name (.equals value)).holdFor object) := by
  induction path generalizing conditions object with
  | nil => exact holdFor_eq_any_put chosen (holdsAt_anyOf name values object)
  | cons next path ih =>
      rw [conditionAt?] at chosen
      split at chosen
      · next inner found =>
          have below : (Condition.nested inner).holdsAt next object =
              values.any (fun value => Condition.holdsAt next object
                (.nested (writeAt inner path name (.equals value)))) := by
            rw [Bool.eq_iff_iff]
            simp only [Condition.holdsAt, ih chosen, List.any_eq_true]
            -- an associated object for one of the values, or a value for one of the objects
            constructor
            · intro ⟨other, reached, value, listed, holds⟩
              exact ⟨value, listed, other, reached, holds⟩
            · intro ⟨value, listed, other, reached, holds⟩
              exact ⟨other, reached, value, listed, holds⟩
          simp only [writeAt, found]
          exact holdFor_eq_any_put found below
      · cases chosen

end Conditions

end Permit
