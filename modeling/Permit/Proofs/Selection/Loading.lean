/-
Module: Permit.Proofs.Selection.Loading
Layer: Proofs
Purpose: A store need not load more than a plan joins. Rules are transparent if they are
  unconditional or compare attributes and associations, and nothing else. Under such rules, pruning
  the records of a store by the joins of the plan changes neither which records a listing selects
  nor what a check of a record says, although the joins leave out what absorbed rules would have
  followed.
Main exports: Guard.Transparent, Policy.exists_plan_of_transparent, Policy.can_eq_selects,
  Policy.hash_of_mem_leaves, MemoryStore.positions, MemoryStore.recordsAt_positions,
  MemoryStore.prune, MemoryStore.selects_congr, MemoryStore.selects_prune,
  Policy.joined_associations_suffice
-/
import Permit.Proofs.Plan.Refusal
import Permit.Proofs.Record.Pruning
import Permit.Proofs.Selection.Agreement

namespace Permit

/-!
### Transparent rules

For them there is always a plan, a check of an object never fails, and it says what the query of the
plan says.
-/

variable {ρ : Type}

/-- The guard is unconditional or a set of conditions. -/
inductive Guard.Transparent : Guard ρ → Prop where
  | unconditional : Transparent .unconditional
  | hash (conditions : Conditions) : Transparent (.hash conditions)

namespace Guard.Transparent

variable {guard : Guard ρ}

/-- A transparent guard is no block, so that it has a query. -/
theorem isBlock_eq_false (transparent : guard.Transparent) : guard.isBlock = false := by
  cases transparent <;> rfl

/-- A transparent guard is no scope, so that it can be combined with any other. -/
theorem isScope_eq_false (transparent : guard.Transparent) : guard.isScope = false := by
  cases transparent <;> rfl

/-- A transparent guard can be decided on every object. -/
theorem isOpaque_eq_false (transparent : guard.Transparent) : guard.isOpaque = false := by
  cases transparent <;> rfl

/-- There is nothing that a store has to know about a transparent guard. -/
theorem registers (transparent : guard.Transparent) (store : MemoryStore) :
    store.Registers guard := by
  cases transparent <;> trivial

/-- A transparent guard has no fallback that could differ from its query. -/
theorem agreesOn {guard : Guard Record} (transparent : guard.Transparent) (store : MemoryStore)
    (record : Record) : store.AgreesOn record guard := by
  cases transparent <;> trivial

/-- A leaf of a transparent guard is a set of conditions. -/
theorem eq_hash_of_hasLeaf {leaf : Query} (transparent : guard.Transparent)
    (hasLeaf : guard.HasLeaf leaf) : ∃ conditions, leaf = .hash conditions := by
  cases transparent with
  | unconditional => cases hasLeaf
  | hash conditions =>
      cases hasLeaf
      exact ⟨conditions, rfl⟩

end Guard.Transparent

namespace Policy

/-- Transparent rules always come to a plan. -/
theorem exists_plan_of_transparent {policy : Policy ρ} {action subject : String}
    (transparent : ∀ rule ∈ policy.relevant action subject, rule.guard.Transparent) :
    ∃ plan, policy.plan action subject = .ok plan := by
  have noBlock : ∀ rule ∈ policy.relevant action subject, rule.guard.isBlock = false :=
    fun rule relevant => (transparent rule relevant).isBlock_eq_false
  rcases policy.plan_cases action subject with
    ⟨merged, _⟩ | ⟨_, blocked, _⟩ | ⟨_, _, query, _, planned⟩
  · have noScope :
        (policy.relevant action subject).countP (fun rule => rule.guard.isScope) = 0 := by
      rw [List.countP_eq_zero]
      intro rule relevant
      simp [(transparent rule relevant).isScope_eq_false]
    simp [Rule.mergeScope, noScope] at merged
  · rcases Query.stoppedByBlock_iff.mpr blocked with ⟨nonempty, blocks⟩ | meets
    · obtain ⟨rule, relevant⟩ := List.exists_mem_of_ne_nil _ nonempty
      have isOpen := noBlock rule relevant
      rw [blocks rule relevant] at isOpen
      cases isOpen
    · obtain ⟨_, denial, _, split, ⟨_, block⟩, _⟩ := Rule.blockMeetsGrant_iff.mp meets
      have isOpen := noBlock denial (by simp [split])
      rw [block] at isOpen
      cases isOpen
  · exact ⟨_, planned⟩

/-- A planned query of transparent rules has sets of conditions as its leaves. -/
theorem hash_of_mem_leaves {policy : Policy ρ} {action subject : String} {plan : Plan}
    {leaf : Query}
    (transparent : ∀ rule ∈ policy.relevant action subject, rule.guard.Transparent)
    (planned : policy.plan action subject = .ok plan) (member : leaf ∈ plan.query.leaves) :
    ∃ conditions, leaf = .hash conditions := by
  obtain ⟨folds, _⟩ := folds_of_plan planned
  obtain ⟨rule, relevant, hasLeaf⟩ := Query.exists_rule_of_mem_leaves folds member
  exact (transparent rule relevant).eq_hash_of_hasLeaf hasLeaf

/-- A check against transparent rules says what their query says of the object, whatever the
    store. -/
theorem can_eq_selects {policy : Policy Record} {action : String} {plan : Plan} {record : Record}
    (store : MemoryStore)
    (transparent : ∀ rule ∈ policy.relevant action record.subjectType, rule.guard.Transparent)
    (planned : policy.plan action record.subjectType = .ok plan) :
    policy.can action record = .ok (store.selects record plan.query) := by
  obtain ⟨folds, _⟩ := folds_of_plan planned
  have noBlockGrant : ∀ rule ∈ policy.relevant action record.subjectType,
      rule.polarity = .allow → rule.guard.isBlock = false :=
    fun rule relevant _ => (transparent rule relevant).isBlock_eq_false
  have clear : ∀ rule ∈ policy.relevant action record.subjectType, rule.guard.isOpaque = false :=
    fun rule relevant => (transparent rule relevant).isOpaque_eq_false
  have decided := can_eq_outcome clear rfl
  rw [MemoryStore.selects_eq_outcome folds noBlockGrant, decided]
  apply congrArg Except.ok
  apply Rule.eq_outcome_of_firstVerdict ?_ decided
  intro rule relevant answer answered
  have agrees := (transparent rule relevant).agreesOn store record
  exact MemoryStore.passes_of_decide? ((transparent rule relevant).registers store) agrees answered

end Policy

namespace MemoryStore

/-!
### Positions

A store may hold equal records, so what a query selects is told apart by where it stands.
-/

/-- The record is of the type and the query selects it. -/
def picks (store : MemoryStore) (subject : String) (query : Query) (record : Record) : Bool :=
  store.selects record query && record.subjectType == subject

/-- The positions in the store of the records of a type that a query selects. -/
def positions (store : MemoryStore) (subject : String) (query : Query) : List Nat :=
  (store.records.zipIdx.filter (fun entry => store.picks subject query entry.1)).map Prod.snd

/-- The records at positions in the store. -/
def recordsAt (store : MemoryStore) (positions : List Nat) : List Record :=
  positions.filterMap (fun position => store.records[position]?)

/-- The records at the selected positions are the records of the type that the query selects, in the
    order of the store. -/
theorem recordsAt_positions (store : MemoryStore) (subject : String) (query : Query) :
    store.recordsAt (store.positions subject query) =
      (store.ofType subject).filter (fun record => store.selects record query) := by
  have stands : ∀ entry ∈ store.records.zipIdx.filter (fun entry =>
        store.picks subject query entry.1),
      ((fun position => store.records[position]?) ∘ Prod.snd) entry = some entry.1 := by
    intro entry member
    exact List.mem_zipIdx_iff_getElem?.mp (List.mem_filter.mp member).1
  calc store.recordsAt (store.positions subject query)
      = (store.records.zipIdx.filter (fun entry => store.picks subject query entry.1)).map
          Prod.fst := by
        rw [recordsAt, positions, List.filterMap_map]
        exact List.filterMap_eq_map_iff_forall_eq_some.mpr stands
    _ = (store.records.zipIdx.map Prod.fst).filter (store.picks subject query) := by
        rw [List.filter_map]
        rfl
    _ = store.records.filter (store.picks subject query) := by
        rw [List.zipIdx_map_fst]
    _ = (store.ofType subject).filter (fun record => store.selects record query) := by
        rw [ofType, List.filter_filter]
        rfl

/-!
### Pruning
-/

/-- The store with each record pruned. -/
def prune (store : MemoryStore) (joins : Joins) : MemoryStore :=
  { store with records := store.records.map (fun record => record.prune joins) }

variable {query : Query} {joins : Joins}

/-- A query selects what its leaves make of a record. -/
theorem selects_congr {store others : MemoryStore} {record other : Record}
    (alike : ∀ leaf ∈ query.leaves, store.selects record leaf = others.selects other leaf) :
    store.selects record query = others.selects other query := by
  induction query with
  | always => rfl
  | never => rfl
  | not query ih => rw [selects, selects, ih alike]
  | and left right leftIh rightIh =>
      rw [selects, selects, leftIh fun leaf member => alike leaf (List.mem_append_left _ member),
        rightIh fun leaf member => alike leaf (List.mem_append_right _ member)]
  | or left right leftIh rightIh =>
      rw [selects, selects, leftIh fun leaf member => alike leaf (List.mem_append_left _ member),
        rightIh fun leaf member => alike leaf (List.mem_append_right _ member)]
  | hash conditions => exact alike _ (List.mem_singleton_self _)
  | fragment predicate => exact alike _ (List.mem_singleton_self _)
  | scope named => exact alike _ (List.mem_singleton_self _)

/-- A query of conditions that the joins cover selects a pruned record from the pruned store where
    it selects the whole one from the whole store. -/
theorem selects_prune (store : MemoryStore) (record : Record)
    (covered : ∀ leaf ∈ query.leaves, ∃ conditions, leaf = .hash conditions ∧
      joins.covers conditions = true) :
    (store.prune joins).selects (record.prune joins) query = store.selects record query := by
  apply selects_congr
  intro leaf member
  obtain ⟨conditions, rfl, covers⟩ := covered leaf member
  exact Conditions.holdFor_prune covers

/-- A query of conditions that the joins cover selects the same positions after pruning. -/
theorem positions_prune (store : MemoryStore) (subject : String)
    (covered : ∀ leaf ∈ query.leaves, ∃ conditions, leaf = .hash conditions ∧
      joins.covers conditions = true) :
    (store.prune joins).positions subject query = store.positions subject query := by
  have alike : ∀ record : Record,
      (store.prune joins).picks subject query (record.prune joins) =
        store.picks subject query record := by
    intro record
    rw [picks, picks, selects_prune store record covered, Record.subjectType_prune]
  have records : (store.prune joins).records =
      store.records.map (fun record => record.prune joins) := rfl
  rw [positions, positions, records, List.zipIdx_map, List.filter_map, List.map_map]
  congr 1
  apply List.filter_congr
  intro entry _
  exact alike entry.1

end MemoryStore

namespace Policy

/-- The leaves of a planned query of transparent rules are conditions that the joins cover. -/
theorem covered_of_transparent {policy : Policy Record} {action subject : String} {plan : Plan}
    (transparent : ∀ rule ∈ policy.relevant action subject, rule.guard.Transparent)
    (planned : policy.plan action subject = .ok plan) :
    ∀ leaf ∈ plan.query.leaves, ∃ conditions, leaf = .hash conditions ∧
      plan.joins.covers conditions = true := by
  intro leaf member
  obtain ⟨conditions, rfl⟩ := hash_of_mem_leaves transparent planned member
  refine ⟨conditions, rfl, ?_⟩
  rw [(folds_of_plan planned).2]
  exact Query.joins_cover (Query.mem_hashLeaves_iff.mpr member)

/-- A listing under transparent rules never fails, and has the records at the positions that the
    query selects. -/
theorem accessibleBy_eq_recordsAt {policy : Policy Record} {action subject : String} {plan : Plan}
    (transparent : ∀ rule ∈ policy.relevant action subject, rule.guard.Transparent)
    (planned : policy.plan action subject = .ok plan) (store : MemoryStore) :
    policy.accessibleBy store action subject =
      .ok (store.recordsAt (store.positions subject plan.query)) := by
  rw [MemoryStore.recordsAt_positions]
  apply accessibleBy_eq_filter planned
  intro rule relevant
  exact (transparent rule relevant).registers store

/-- Conditions hold for a record as they do for the record with the associations that cover them
    only. So under transparent rules a listing selects the same positions and a check says the same
    when records are loaded with the associations that the plan joins only. -/
theorem joined_associations_suffice :
    (∀ (conditions : Conditions) (record : Record) (joins : Joins),
      joins.covers conditions = true →
      conditions.holdFor (record.prune joins) = conditions.holdFor record) ∧
    ∀ (policy : Policy Record) (action subject : String),
      (∀ rule ∈ policy.relevant action subject, rule.guard.Transparent) →
      ∃ plan, policy.plan action subject = .ok plan ∧
        (∀ store : MemoryStore,
          policy.accessibleBy store action subject =
            .ok (store.recordsAt (store.positions subject plan.query)) ∧
          policy.accessibleBy (store.prune plan.joins) action subject =
            .ok ((store.prune plan.joins).recordsAt (store.positions subject plan.query))) ∧
        ∀ record : Record, record.subjectType = subject →
          policy.can action record = policy.can action (record.prune plan.joins) := by
  constructor
  · intro conditions record joins covers
    exact Conditions.holdFor_prune covers
  · intro policy action subject transparent
    obtain ⟨plan, planned⟩ := exists_plan_of_transparent transparent
    have covered := covered_of_transparent transparent planned
    refine ⟨plan, planned, ?_, ?_⟩
    · intro store
      constructor
      · exact accessibleBy_eq_recordsAt transparent planned store
      · rw [← MemoryStore.positions_prune store subject covered]
        exact accessibleBy_eq_recordsAt transparent planned (store.prune plan.joins)
    · rintro record rfl
      have sameType := Record.subjectType_prune plan.joins record
      have whole := can_eq_selects MemoryStore.empty transparent planned
      rw [← sameType] at transparent planned
      have pruned := can_eq_selects (MemoryStore.empty.prune plan.joins) transparent planned
      rw [whole, pruned, MemoryStore.selects_prune MemoryStore.empty record covered]

end Policy

/-!
### A digest

The grant by region is absorbed, so its association is not loaded, and of an owner only the team.
-/

namespace Digest

def policy : Policy Record where
  rules := [
    Rule.declare .allow ["read"] ["Article"]
      (.hash [("region", .nested [("open", .equals (.boolean true))])]),
    Rule.declare .deny ["manage"] ["all"] .unconditional,
    Rule.declare .allow ["read"] ["Article"]
      (.hash [("owner", .nested [("team", .nested [("name", .equals (.text "desk"))])])]),
    Rule.declare .deny ["read"] ["Article"] (.hash [("flag", .anyOf [.text "hidden"])])]
  settings := .standard

def joins : Joins := ⟨[("owner", ⟨[("team", ⟨[]⟩)]⟩)]⟩

def team : Record := (Record.ofId "Team" (.integer 5)).set "name" (.text "desk")

def article : Record :=
  ((Record.ofId "Article" (.integer 1)).associate "region"
    (.one ((Record.ofId "Region" (.integer 2)).set "open" (.boolean true)))).associate "owner"
    (.many [((Record.ofId "User" (.integer 3)).associate "team" (.one team)).associate "manager"
      (.one (Record.ofId "User" (.integer 4)))])

def loadedArticle : Record :=
  (Record.ofId "Article" (.integer 1)).associate "owner"
    (.many [(Record.ofId "User" (.integer 3)).associate "team" (.one team)])

end Digest

theorem Policy.digest_loading :
    Digest.article.prune Digest.joins = Digest.loadedArticle ∧
    (Digest.joins.covers [("owner", .nested [("team", .nested [])])] = true ∧
      Conditions.holdFor [("owner", .nested [("team", .nested [])])]
          (Digest.article.prune Digest.joins) =
        Conditions.holdFor [("owner", .nested [("team", .nested [])])] Digest.article) ∧
    (∀ rule ∈ Digest.policy.relevant "read" "Article", rule.guard.Transparent) ∧
    ∃ plan, Digest.policy.plan "read" "Article" = .ok plan ∧ plan.joins = Digest.joins ∧
      (∀ store : MemoryStore,
        Digest.policy.accessibleBy store "read" "Article" =
          .ok (store.recordsAt (store.positions "Article" plan.query)) ∧
        Digest.policy.accessibleBy (store.prune plan.joins) "read" "Article" =
          .ok ((store.prune plan.joins).recordsAt (store.positions "Article" plan.query))) ∧
      Digest.policy.can "read" Digest.article = .ok true ∧
      Digest.policy.can "read" Digest.article =
        Digest.policy.can "read" (Digest.article.prune plan.joins) := by
  have transparent : ∀ rule ∈ Digest.policy.relevant "read" "Article",
      rule.guard.Transparent := by
    have relevant : Digest.policy.relevant "read" "Article" = Digest.policy.rules := rfl
    rw [relevant]
    intro rule member
    simp only [Digest.policy, List.mem_cons, List.not_mem_nil, or_false] at member
    rcases member with rfl | rfl | rfl | rfl <;> constructor
  obtain ⟨alike, loads⟩ := joined_associations_suffice
  obtain ⟨plan, planned, listed, checked⟩ := loads Digest.policy "read" "Article" transparent
  have joins : plan.joins = Digest.joins := by
    cases planned
    rfl
  exact ⟨rfl, ⟨rfl, alike _ _ _ rfl⟩, transparent, plan, planned, joins, listed, rfl,
    checked Digest.article rfl⟩

end Permit
