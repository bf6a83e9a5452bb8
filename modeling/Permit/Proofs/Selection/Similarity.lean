/-
Module: Permit.Proofs.Selection.Similarity
Layer: Proofs
Purpose: Under transparent rules, similar objects of one type are treated alike. A check says the
  same of both, and a listing selects the one where it selects the other that stands in its place.
Main exports: Rule.firstVerdict_congr, Guard.Transparent.decide?_of_similar, Policy.can_of_similar,
  MemoryStore.holding, MemoryStore.positions_holding, Policy.similar_objects_treated_alike
-/
import Permit.Proofs.Record.Similarity
import Permit.Proofs.Selection.Loading

namespace Permit

variable {ρ : Type} [Resource ρ]

/-!
### Checks
-/

/-- A scan depends on what its rules say of the object only. -/
theorem Rule.firstVerdict_congr {object other : ρ} {rules : List (Rule ρ)}
    (alike : ∀ rule ∈ rules, rule.appliesTo object = rule.appliesTo other) :
    Rule.firstVerdict object rules = Rule.firstVerdict other rules := by
  induction rules with
  | nil => rfl
  | cons rule rest ih =>
      rw [List.forall_mem_cons] at alike
      rw [Rule.firstVerdict, Rule.firstVerdict, alike.1, ih alike.2]

/-- A transparent guard is decided alike on similar objects. -/
theorem Guard.Transparent.decide?_of_similar {guard : Guard ρ} {object other : ρ}
    (transparent : guard.Transparent) (similar : Resource.Similar object other) :
    guard.decide? object = guard.decide? other := by
  cases transparent with
  | unconditional => rfl
  | hash conditions => exact congrArg some (conditions.holdFor_of_similar similar)

/-- Under transparent rules, similar objects of one type are permitted alike. -/
theorem Policy.can_of_similar {policy : Policy ρ} {action : String} {object other : ρ}
    (similar : Resource.Similar object other)
    (sameType : Resource.subjectType object = Resource.subjectType other)
    (transparent : ∀ rule ∈ policy.relevant action (Resource.subjectType object),
      rule.guard.Transparent) :
    policy.can action object = policy.can action other := by
  rw [can, can, ← sameType]
  apply Rule.firstVerdict_congr
  intro rule member
  have decided :=
    (transparent rule (List.mem_reverse.mp member)).decide?_of_similar similar
  rw [Rule.appliesTo, Rule.appliesTo, decided]

/-!
### Listings
-/

namespace MemoryStore

/-- The store with these records. -/
def holding (store : MemoryStore) (records : List Record) : MemoryStore :=
  { store with records := records }

variable {subject : String} {query : Query} {record other : Record}

/-- A query of conditions cannot tell similar records apart, in whatever store. -/
theorem selects_of_similar (store others : MemoryStore) (similar : Resource.Similar record other)
    (hashes : ∀ leaf ∈ query.leaves, ∃ conditions, leaf = .hash conditions) :
    store.selects record query = others.selects other query := by
  apply selects_congr
  intro leaf member
  obtain ⟨conditions, rfl⟩ := hashes leaf member
  exact conditions.holdFor_of_similar similar

/-- The same positions are selected when a similar record of the type takes the place of one. -/
theorem positions_holding (store : MemoryStore) (before after : List Record)
    (similar : Resource.Similar record other) (sameType : record.subjectType = other.subjectType)
    (hashes : ∀ leaf ∈ query.leaves, ∃ conditions, leaf = .hash conditions) :
    (store.holding (before ++ record :: after)).positions subject query =
      (store.holding (before ++ other :: after)).positions subject query := by
  have picks : ∀ records,
      (store.holding records).picks subject query = store.picks subject query := by
    intro records
    funext stored
    rw [MemoryStore.picks, MemoryStore.picks,
      selects_of_similar (store.holding records) store (Resource.Similar.refl stored) hashes]
  have picked : store.picks subject query record = store.picks subject query other := by
    rw [MemoryStore.picks, MemoryStore.picks, selects_of_similar store store similar hashes,
      sameType]
  have records : ∀ records, (store.holding records).records = records := fun _ => rfl
  simp only [positions, picks, records, List.zipIdx_append, List.zipIdx_cons, List.filter_append,
    List.filter_cons, List.map_append, picked]
  split <;> rfl

end MemoryStore

namespace Policy

/-- Conditions hold for similar objects alike: they cannot tell an absent attribute from a null one,
    nor how often, in which order and shape an association reaches what it reaches. So under
    transparent rules a check says the same of similar objects of one type, and a listing selects
    the same positions when one of two similar records stands in the place of the other. -/
theorem similar_objects_treated_alike :
    (∀ record other : Record, Resource.Similar record other ↔
      (∀ name, Resource.attr record name = Resource.attr other name) ∧
      ∀ name,
        (∀ reached ∈ Resource.related record name, ∃ counterpart ∈ Resource.related other name,
          Resource.Similar reached counterpart) ∧
        ∀ counterpart ∈ Resource.related other name, ∃ reached ∈ Resource.related record name,
          Resource.Similar reached counterpart) ∧
    (∀ {ρ : Type} [Resource ρ] (conditions : Conditions) (object other : ρ),
      Resource.Similar object other → conditions.holdFor object = conditions.holdFor other) ∧
    (∀ {ρ : Type} [Resource ρ] (policy : Policy ρ) (action subject : String) (object other : ρ),
      (∀ rule ∈ policy.relevant action subject, rule.guard.Transparent) →
      Resource.Similar object other → Resource.subjectType object = subject →
      Resource.subjectType other = subject → policy.can action object = policy.can action other) ∧
    ∀ (policy : Policy Record) (action subject : String),
      (∀ rule ∈ policy.relevant action subject, rule.guard.Transparent) →
      ∃ plan, policy.plan action subject = .ok plan ∧
        (∀ store : MemoryStore, policy.accessibleBy store action subject =
          .ok (store.recordsAt (store.positions subject plan.query))) ∧
        ∀ (store : MemoryStore) (before after : List Record) (record other : Record),
          Resource.Similar record other → record.subjectType = subject →
          other.subjectType = subject →
          (store.holding (before ++ record :: after)).positions subject plan.query =
            (store.holding (before ++ other :: after)).positions subject plan.query := by
  refine ⟨fun _ _ => Resource.similar_iff, fun conditions _ _ similar =>
    conditions.holdFor_of_similar similar, ?_, ?_⟩
  · rintro ρ _ policy action _ object other transparent similar rfl sameType
    exact can_of_similar similar sameType.symm transparent
  · intro policy action subject transparent
    obtain ⟨plan, planned⟩ := exists_plan_of_transparent transparent
    refine ⟨plan, planned, accessibleBy_eq_recordsAt transparent planned, ?_⟩
    intro store before after record other similar type otherType
    exact MemoryStore.positions_holding store before after similar (type.trans otherType.symm)
      fun leaf member => hash_of_mem_leaves transparent planned member

end Policy

/-!
### A depot

One parcel says that it has no note, reaches its stop as a collection, bears its labels in another
order and one of them twice, and has an empty list of returns. The other says nothing of the kind.
-/

namespace Depot

def policy : Policy Record where
  rules := [
    Rule.declare .allow ["send"] ["Parcel"]
      (.hash [("stop", .nested [("delay", .anyOf [.integer 0, .null])]), ("note", .equals .null)]),
    Rule.declare .deny ["manage"] ["all"] (.hash [("returns", .nested [])]),
    Rule.declare .deny ["send"] ["Parcel"]
      (.hash [("labels", .nested [("kind", .equals (.text "frozen"))])])]
  settings := .standard

def stop : Record := Record.ofId "Stop" (.integer 4)

def delayedStop : Record := stop.set "delay" .null

def label (kind : String) : Record := (Record.ofId "Label" (.integer 5)).set "kind" (.text kind)

def parcel : Record := Record.ofId "Parcel" (.integer 1)

def terse : Record :=
  (parcel.associate "stop" (.one stop)).associate "labels" (.many [label "fragile", label "cold"])

def verbose : Record :=
  (((parcel.set "note" .null).associate "stop" (.many [delayedStop])).associate "labels"
    (.many [label "cold", label "fragile", label "cold"])).associate "returns" (.many [])

def other : Record := Record.ofId "Parcel" (.integer 2)

theorem terse_similar_verbose : Resource.Similar terse verbose := by
  have delayed : Resource.Similar stop delayedStop := Record.similar_set_null rfl
  have noted : Resource.Similar parcel (parcel.set "note" .null) := Record.similar_set_null rfl
  have stopped : Resource.Similar (parcel.associate "stop" (.one stop))
      ((parcel.set "note" .null).associate "stop" (.many [delayedStop])) := by
    apply Record.similar_associate noted
    · intro reached member
      rw [List.mem_singleton.mp member]
      exact ⟨delayedStop, List.mem_singleton_self _, delayed⟩
    · intro reached member
      rw [List.mem_singleton.mp member]
      exact ⟨stop, List.mem_singleton_self _, delayed⟩
  have labelled : Resource.Similar terse
      (((parcel.set "note" .null).associate "stop" (.many [delayedStop])).associate "labels"
        (.many [label "cold", label "fragile", label "cold"])) := by
    apply Record.similar_associate_of_mem_iff stopped
    intro reached
    simp only [Related.objects, List.mem_cons, List.not_mem_nil, or_false]
    tauto
  exact labelled.trans (Record.similar_associate_nothing rfl rfl)

theorem transparent : ∀ rule ∈ policy.relevant "send" "Parcel", rule.guard.Transparent := by
  have relevant : policy.relevant "send" "Parcel" = policy.rules := rfl
  rw [relevant]
  intro rule member
  simp only [policy, List.mem_cons, List.not_mem_nil, or_false] at member
  rcases member with rfl | rfl | rfl <;> constructor

end Depot

theorem Policy.depot_parcels_alike :
    Resource.Similar Depot.terse Depot.verbose ∧
    Conditions.holdFor [("labels", .nested []), ("returns", .nested [])] Depot.terse =
      Conditions.holdFor [("labels", .nested []), ("returns", .nested [])] Depot.verbose ∧
    (∀ rule ∈ Depot.policy.relevant "send" "Parcel", rule.guard.Transparent) ∧
    Depot.policy.can "send" Depot.terse = Depot.policy.can "send" Depot.verbose ∧
    Depot.policy.can "send" Depot.verbose = .ok true ∧
    ∃ plan, Depot.policy.plan "send" "Parcel" = .ok plan ∧
      (MemoryStore.empty.holding ([Depot.stop] ++ Depot.terse :: [Depot.other])).positions
          "Parcel" plan.query = [1] ∧
      (MemoryStore.empty.holding ([Depot.stop] ++ Depot.terse :: [Depot.other])).positions
          "Parcel" plan.query =
        (MemoryStore.empty.holding ([Depot.stop] ++ Depot.verbose :: [Depot.other])).positions
          "Parcel" plan.query := by
  have similar := Depot.terse_similar_verbose
  obtain ⟨_, holds, checks, listings⟩ := similar_objects_treated_alike
  obtain ⟨plan, planned, _, positions⟩ := listings Depot.policy "send" "Parcel" Depot.transparent
  have selected : (MemoryStore.empty.holding
      ([Depot.stop] ++ Depot.terse :: [Depot.other])).positions "Parcel" plan.query = [1] := by
    cases planned
    rfl
  exact ⟨similar, holds _ _ _ similar, Depot.transparent,
    checks Depot.policy "send" "Parcel" _ _ Depot.transparent similar rfl rfl, rfl,
    plan, planned, selected, positions _ _ _ _ _ similar rfl rfl⟩

end Permit
