/-
Module: Permit.Proofs.Record.Similarity
Layer: Proofs
Purpose: What conditions see of an object. Two objects are similar if they have the same attributes,
  an absent one reading as null, and reach similar objects under each name, in whatever order and
  number. Conditions of any depth hold for both or for neither. Records come to be similar by null
  attributes and by the shape of what they are associated with.
Main exports: Resource.Corresponds, Resource.Similar, Resource.similar_iff,
  Conditions.holdFor_of_similar, Record.similar_set_null, Record.similar_associate_nothing,
  Record.similar_associate, Record.similar_associate_of_mem_iff
-/
import Permit.Record

namespace Permit

namespace Resource

variable {ρ : Type} [Resource ρ]

/-- The objects have equal attributes, and each object that one of them reaches under a name is
    alike to one that the other reaches under it. -/
structure Corresponds (alike : ρ → ρ → Prop) (object other : ρ) : Prop where
  attr_eq : ∀ name, attr object name = attr other name
  forth : ∀ name, ∀ reached ∈ related object name, ∃ counterpart ∈ related other name,
    alike reached counterpart
  back : ∀ name, ∀ counterpart ∈ related other name, ∃ reached ∈ related object name,
    alike reached counterpart

/-- Some relation relates the objects, and all that it relates corresponds up to it. -/
def Similar (object other : ρ) : Prop :=
  ∃ alike : ρ → ρ → Prop,
    (∀ left right, alike left right → Corresponds alike left right) ∧ alike object other

variable {alike wider : ρ → ρ → Prop} {object other third : ρ}

/-- Objects that correspond up to a relation correspond up to every wider one. -/
theorem Corresponds.mono (corresponds : Corresponds alike object other)
    (widens : ∀ left right, alike left right → wider left right) :
    Corresponds wider object other where
  attr_eq := corresponds.attr_eq
  forth := by
    intro name reached member
    obtain ⟨counterpart, found, related⟩ := corresponds.forth name reached member
    exact ⟨counterpart, found, widens _ _ related⟩
  back := by
    intro name counterpart member
    obtain ⟨reached, found, related⟩ := corresponds.back name counterpart member
    exact ⟨reached, found, widens _ _ related⟩

/-- Similar objects have equal attributes and reach similar objects. -/
theorem Similar.corresponds (similar : Similar object other) :
    Corresponds Similar object other := by
  obtain ⟨alike, closed, related⟩ := similar
  exact (closed _ _ related).mono (fun _ _ below => ⟨alike, closed, below⟩)

/-- Objects with equal attributes that reach similar objects are similar. The relation that shows it
    is correspondence up to similarity. -/
theorem Corresponds.similar (corresponds : Corresponds Similar object other) :
    Similar object other :=
  ⟨Corresponds Similar,
    fun _ _ related => related.mono (fun _ _ below => below.corresponds), corresponds⟩

/-- Objects are similar where their attributes are equal and what they reach is similar. -/
theorem similar_iff :
    Similar object other ↔
      (∀ name, attr object name = attr other name) ∧
      ∀ name,
        (∀ reached ∈ related object name, ∃ counterpart ∈ related other name,
          Similar reached counterpart) ∧
        ∀ counterpart ∈ related other name, ∃ reached ∈ related object name,
          Similar reached counterpart := by
  constructor
  · intro similar
    have corresponds := similar.corresponds
    exact ⟨corresponds.attr_eq, fun name => ⟨corresponds.forth name, corresponds.back name⟩⟩
  · intro ⟨attributes, associations⟩
    exact Corresponds.similar ⟨attributes, fun name => (associations name).1,
      fun name => (associations name).2⟩

theorem Similar.refl (object : ρ) : Similar object object := by
  refine ⟨Eq, ?_, rfl⟩
  rintro same _ rfl
  exact ⟨fun _ => rfl, fun _ reached member => ⟨reached, member, rfl⟩,
    fun _ reached member => ⟨reached, member, rfl⟩⟩

/-- Two relations that carry similarity compose to one that does. -/
theorem Similar.trans (first : Similar object other) (second : Similar other third) :
    Similar object third := by
  refine ⟨fun left right => ∃ middle, Similar left middle ∧ Similar middle right, ?_,
    other, first, second⟩
  intro left right ⟨middle, leftSimilar, rightSimilar⟩
  have leftPart := leftSimilar.corresponds
  have rightPart := rightSimilar.corresponds
  refine ⟨fun name => (leftPart.attr_eq name).trans (rightPart.attr_eq name), ?_, ?_⟩
  · intro name reached member
    obtain ⟨between, found, below⟩ := leftPart.forth name reached member
    obtain ⟨counterpart, last, above⟩ := rightPart.forth name between found
    exact ⟨counterpart, last, between, below, above⟩
  · intro name counterpart member
    obtain ⟨between, found, above⟩ := rightPart.back name counterpart member
    obtain ⟨reached, last, below⟩ := leftPart.back name between found
    exact ⟨reached, last, between, below, above⟩

end Resource

/-!
### Conditions
-/

section

variable {ρ : Type} [Resource ρ]

mutual

/-- A condition holds for similar objects alike. -/
theorem Condition.holdsAt_of_similar : ∀ (condition : Condition) (name : String)
    {object other : ρ}, Resource.Similar object other →
    condition.holdsAt name object = condition.holdsAt name other
  | .equals _, name, _, _, similar => by
      rw [Condition.holdsAt, Condition.holdsAt, similar.corresponds.attr_eq name]
  | .anyOf _, name, _, _, similar => by
      rw [Condition.holdsAt, Condition.holdsAt, similar.corresponds.attr_eq name]
  | .nested conditions, name, object, other, similar => by
      rw [Condition.holdsAt, Condition.holdsAt, Bool.eq_iff_iff, List.any_eq_true, List.any_eq_true]
      constructor
      · intro ⟨reached, member, holds⟩
        obtain ⟨counterpart, found, below⟩ := similar.corresponds.forth name reached member
        rw [Conditions.holdFor_of_similar conditions below] at holds
        exact ⟨counterpart, found, holds⟩
      · intro ⟨counterpart, member, holds⟩
        obtain ⟨reached, found, below⟩ := similar.corresponds.back name counterpart member
        rw [← Conditions.holdFor_of_similar conditions below] at holds
        exact ⟨reached, found, holds⟩

/-- Conditions hold for similar objects alike. -/
theorem Conditions.holdFor_of_similar : ∀ (conditions : Conditions) {object other : ρ},
    Resource.Similar object other → conditions.holdFor object = conditions.holdFor other
  | [], _, _, _ => by rw [Conditions.holdFor, Conditions.holdFor]
  | (name, condition) :: rest, _, _, similar => by
      rw [Conditions.holdFor, Conditions.holdFor,
        Condition.holdsAt_of_similar condition name similar,
        Conditions.holdFor_of_similar rest similar]

end

end

/-!
### Records
-/

namespace Record

variable {record other : Record} {name : String}

theorem attr_set (record : Record) (name key : String) (value : Value) :
    Resource.attr (record.set name value) key =
      if name = key then value else Resource.attr record key := by
  have found : Resource.attr? (record.set name value) key =
      if name = key then some value else Resource.attr? record key :=
    Entries.get?_put record.attributes name key value
  rw [Resource.attr, found]
  split <;> rfl

theorem related_associate (record : Record) (name key : String) (related : Related Record) :
    Resource.related (record.associate name related) key =
      if name = key then related.objects else Resource.related record key := by
  have found : Resource.related? (record.associate name related) key =
      if name = key then some related else Resource.related? record key :=
    Entries.get?_put record.associations name key related
  rw [Resource.related, found]
  split <;> rfl

/-- An attribute that is null cannot be told from one that is not there. -/
theorem similar_set_null (absent : Entries.get? record.attributes name = none) :
    Resource.Similar record (record.set name .null) := by
  rw [Resource.similar_iff]
  refine ⟨?_, (Resource.similar_iff.mp (Resource.Similar.refl record)).2⟩
  intro key
  rw [attr_set]
  split
  · next same =>
      subst same
      have missing : Resource.attr? record name = none := absent
      rw [Resource.attr, missing, Option.getD_none]
  · rfl

/-- An association that reaches nothing cannot be told from one that is not set. -/
theorem similar_associate_nothing {related : Related Record}
    (absent : Entries.get? record.associations name = none) (nothing : related.objects = []) :
    Resource.Similar record (record.associate name related) := by
  rw [Resource.similar_iff]
  refine ⟨fun _ => rfl, ?_⟩
  intro key
  rw [related_associate]
  split
  · next same =>
      subst same
      have unset : Resource.related? record name = none := absent
      rw [Resource.related, unset, nothing]
      exact ⟨nofun, nofun⟩
  · exact (Resource.similar_iff.mp (Resource.Similar.refl record)).2 key

/-- Similar records stay similar with associations that reach similar records. -/
theorem similar_associate {related others : Related Record}
    (similar : Resource.Similar record other)
    (forth : ∀ reached ∈ related.objects, ∃ counterpart ∈ others.objects,
      Resource.Similar reached counterpart)
    (back : ∀ counterpart ∈ others.objects, ∃ reached ∈ related.objects,
      Resource.Similar reached counterpart) :
    Resource.Similar (record.associate name related) (other.associate name others) := by
  obtain ⟨attributes, associations⟩ := Resource.similar_iff.mp similar
  rw [Resource.similar_iff]
  refine ⟨attributes, ?_⟩
  intro key
  rw [related_associate, related_associate]
  split
  · exact ⟨forth, back⟩
  · exact associations key

/-- The shape of an association does not count, nor the order of what it reaches, nor how often. -/
theorem similar_associate_of_mem_iff {related others : Related Record}
    (similar : Resource.Similar record other)
    (same : ∀ reached, reached ∈ related.objects ↔ reached ∈ others.objects) :
    Resource.Similar (record.associate name related) (other.associate name others) := by
  apply similar_associate similar
  · intro reached member
    exact ⟨reached, (same reached).mp member, .refl reached⟩
  · intro reached member
    exact ⟨reached, (same reached).mpr member, .refl reached⟩

end Record

end Permit
