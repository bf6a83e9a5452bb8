/-
Module: Permit.Proofs.Record.Pruning
Layer: Proofs
Purpose: Records as a store that loads the joined associations only would hold them. Conditions
  that the joins cover cannot tell such a record from the whole one, at any depth.
Main exports: Record.prune, Record.attr_prune, Record.related_prune, Conditions.holdFor_prune
-/
import Permit.Joins
import Permit.Record

namespace Permit

namespace Record

mutual

/-- The record without the associations that are not joined, and likewise below. -/
def prune (joins : Joins) : Record → Record
  | ⟨subjectType, attributes, associations⟩ =>
      ⟨subjectType, attributes, pruneAssociations joins associations⟩

/-- The associations that are joined, each pruned by the joins nested under its name. -/
def pruneAssociations (joins : Joins) :
    List (String × Related Record) → List (String × Related Record)
  | [] => []
  | (name, related) :: rest =>
      match joins.get? name with
      | some nested => (name, pruneRelated nested related) :: pruneAssociations joins rest
      | none => pruneAssociations joins rest

/-- What an association reaches, pruned. -/
def pruneRelated (joins : Joins) : Related Record → Related Record
  | .one record => .one (prune joins record)
  | .many records => .many (pruneEach joins records)

/-- Each record of a collection, pruned. -/
def pruneEach (joins : Joins) : List Record → List Record
  | [] => []
  | record :: rest => prune joins record :: pruneEach joins rest

end

theorem subjectType_prune (joins : Joins) (record : Record) :
    (record.prune joins).subjectType = record.subjectType := by
  cases record
  rw [prune]

/-- Attributes are not pruned. -/
theorem attr_prune (joins : Joins) (record : Record) (name : String) :
    Resource.attr (record.prune joins) name = Resource.attr record name := by
  cases record
  rw [prune]
  rfl

theorem associations_prune (joins : Joins) (record : Record) :
    (record.prune joins).associations = pruneAssociations joins record.associations := by
  cases record
  rw [prune]

/-- Records in a list are pruned one by one. -/
theorem pruneEach_eq_map (joins : Joins) (records : List Record) :
    pruneEach joins records = records.map (fun record => record.prune joins) := by
  induction records with
  | nil => rw [pruneEach, List.map_nil]
  | cons record rest ih => rw [pruneEach, ih, List.map_cons]

/-- The objects of an association are pruned one by one, whether it is to one or to many. -/
theorem objects_pruneRelated (joins : Joins) (related : Related Record) :
    (pruneRelated joins related).objects =
      related.objects.map (fun record => record.prune joins) := by
  cases related with
  | one record => rw [pruneRelated, Related.objects, Related.objects, List.map_singleton]
  | many records => rw [pruneRelated, Related.objects, Related.objects, pruneEach_eq_map]

/-- A joined name reaches what it reached before, pruned by the joins nested under it. -/
theorem get?_pruneAssociations {joins nested : Joins} {name : String}
    (joined : joins.get? name = some nested) (associations : List (String × Related Record)) :
    Entries.get? (pruneAssociations joins associations) name =
      (Entries.get? associations name).map (pruneRelated nested) := by
  induction associations with
  | nil => rw [pruneAssociations, Entries.get?_nil, Option.map_none]
  | cons entry rest ih =>
      obtain ⟨known, related⟩ := entry
      rw [pruneAssociations]
      by_cases same : known = name
      · subst same
        simp [joined, Entries.get?_cons]
      · cases joins.get? known with
        | none => simp [Entries.get?_cons, same, ih]
        | some below => simp [Entries.get?_cons, same, ih]

/-- Where an association is joined, its objects are reached after pruning too, each of them pruned
    by what is joined below. -/
theorem related_prune {joins nested : Joins} {name : String} (record : Record)
    (joined : joins.get? name = some nested) :
    Resource.related (record.prune joins) name =
      (Resource.related record name).map (fun other => other.prune nested) := by
  have pruned : Resource.related? (record.prune joins) name =
      (Resource.related? record name).map (pruneRelated nested) := by
    have found := get?_pruneAssociations joined record.associations
    rw [← associations_prune] at found
    exact found
  rw [Resource.related, Resource.related, pruned]
  cases Resource.related? record name with
  | none => rfl
  | some related => simp [objects_pruneRelated]

end Record

mutual

/-- A covered condition holds for a pruned record as it does for the whole one. -/
theorem Condition.holdsAt_prune : ∀ {condition : Condition} {name : String} {joins : Joins}
    {record : Record}, condition.coveredAt name joins = true →
    condition.holdsAt name (record.prune joins) = condition.holdsAt name record
  | .equals _, name, joins, record, _ => by
      rw [Condition.holdsAt, Condition.holdsAt, Record.attr_prune]
  | .anyOf _, name, joins, record, _ => by
      rw [Condition.holdsAt, Condition.holdsAt, Record.attr_prune]
  | .nested conditions, name, joins, record, covered => by
      rw [Condition.coveredAt] at covered
      split at covered
      · next below joined =>
          have alike : ∀ other : Record,
              Conditions.holdFor conditions (other.prune below) =
                Conditions.holdFor conditions other :=
            fun other => Conditions.holdFor_prune covered
          rw [Condition.holdsAt, Condition.holdsAt, Record.related_prune record joined,
            List.any_map]
          congr 1
          funext other
          exact alike other
      · cases covered

/-- Covered conditions hold for a pruned record as they do for the whole one. -/
theorem Conditions.holdFor_prune : ∀ {conditions : Conditions} {joins : Joins} {record : Record},
    Conditions.coveredBy joins conditions = true →
    conditions.holdFor (record.prune joins) = conditions.holdFor record
  | [], _, _, _ => by rw [Conditions.holdFor, Conditions.holdFor]
  | (name, condition) :: rest, joins, record, covered => by
      rw [Conditions.coveredBy, Bool.and_eq_true] at covered
      obtain ⟨first, others⟩ := covered
      rw [Conditions.holdFor, Conditions.holdFor, Condition.holdsAt_prune first,
        Conditions.holdFor_prune others]

end

end Permit
