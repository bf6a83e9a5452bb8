/-
Module: Permit.Proofs.Selection.Agreement
Layer: Proofs
Purpose: Listing objects and checking them one by one are two readings of the same rules. The
  query of the rules is compared with the word of the last rule that applies, where fragments and
  scopes mean what the store knows them by: without block grants the two are equal, and with them
  the query selects no more. A verdict on one record that is not a fault is that word. Whatever the
  blocks are, the query selects a record where the last rule that catches the record is a grant.
Main exports: MemoryStore.outcome_of_selects, MemoryStore.selects_eq_outcome, MemoryStore.Serves,
  Policy.eq_outcome_of_can, Policy.accessibleBy_eq_filter, Policy.accessibleBy_filters_by_can,
  Policy.accessibleBy_never_leaks, MemoryStore.catches, MemoryStore.selects_eq_outcome_catches,
  Policy.accessibleBy_eq_outcome
-/
import Permit.Proofs.MemoryStore.Evaluation
import Permit.Proofs.Plan.Absorption
import Permit.Proofs.Verdict.Outcome

namespace Permit

open Query (Absorbs Folds)

namespace MemoryStore

variable {store : MemoryStore} {record : Record} {rules : List (Rule Record)} {query : Query}

/-- The rule applies to the record as the store reads its guard. -/
def applies (store : MemoryStore) (record : Record) (rule : Rule Record) : Bool :=
  store.passes record rule.guard

/-- A rule with a query applies to what the query selects. -/
theorem applies_of_query? {rule : Rule Record} {leaf : Query}
    (expressed : rule.guard.query? = some leaf) :
    store.applies record rule = store.selects record leaf := by
  simp [applies, passes, expressed]

/-- A store that knows what the rules use knows what their query uses. -/
theorem knows_of_folds (folds : Folds rules query)
    (registered : ∀ rule ∈ rules, store.Registers rule.guard) : store.Knows query := by
  induction folds with
  | nil => trivial
  | @concat rules rule query next _ absorbed ih =>
      have before := ih (fun other member => registered other (by simp [member]))
      have current := registered rule (by simp)
      cases absorbed with
      | grant expressed => exact knows_disjoin before (knows_of_registers current expressed)
      | denial expressed =>
          exact knows_conjoin before (knows_negate (knows_of_registers current expressed))
      | skippedGrant => exact before
      | skippedDenial => exact before

/-- What the query of rules selects, the rules permit. -/
theorem outcome_of_selects (folds : Folds rules query)
    (selected : store.selects record query = true) :
    Rule.outcome (store.applies record) rules = true := by
  induction folds with
  | nil => simp [selects] at selected
  | @concat rules rule query next _ absorbed ih =>
      rw [Rule.outcome_concat]
      cases absorbed with
      | grant expressed allows =>
          rw [selects_disjoin, Bool.or_eq_true] at selected
          rw [applies_of_query? expressed]
          split
          · exact Rule.isAllow_of_allow allows
          · next spared => exact ih (selected.resolve_right spared)
      | denial expressed denies =>
          rw [selects_conjoin, selects_negate, Bool.and_eq_true, Bool.not_eq_true'] at selected
          rw [applies_of_query? expressed, selected.2, if_neg Bool.false_ne_true]
          exact ih selected.1
      -- the rules permit more than before, the query stays
      | skippedGrant block allows =>
          split
          · exact Rule.isAllow_of_allow allows
          · exact ih selected
      -- the rules permit less than before, and there is nothing selected to lose
      | skippedDenial block denies nothing =>
          rw [nothing, selects] at selected
          cases selected

/-- Without block grants the query of rules selects exactly what the rules permit. -/
theorem selects_eq_outcome (folds : Folds rules query)
    (noBlockGrant : ∀ rule ∈ rules, rule.polarity = .allow → rule.guard.isBlock = false) :
    store.selects record query = Rule.outcome (store.applies record) rules := by
  induction folds with
  | nil => rfl
  | @concat rules rule query next _ absorbed ih =>
      have before := ih (fun other member => noBlockGrant other (by simp [member]))
      rw [Rule.outcome_concat, ← before]
      cases absorbed with
      | @grant leaf expressed allows =>
          rw [selects_disjoin, applies_of_query? expressed, Rule.isAllow_of_allow allows]
          cases store.selects record leaf <;> simp
      | @denial leaf expressed denies =>
          rw [selects_conjoin, selects_negate, applies_of_query? expressed,
            Rule.isAllow_of_deny denies]
          cases store.selects record leaf <;> simp
      | skippedGrant block allows =>
          have isOpen := noBlockGrant rule (by simp) allows
          rw [block] at isOpen
          cases isOpen
      | skippedDenial block denies nothing =>
          simp [nothing, selects, Rule.isAllow_of_deny denies]

/-- The store knows each fragment and scope of the rules, and the fallbacks that rules bring along
    answer like it for every record of the type that it holds. -/
structure Serves (store : MemoryStore) (subject : String) (rules : List (Rule Record)) :
    Prop where
  registers : ∀ rule ∈ rules, store.Registers rule.guard
  agrees : ∀ rule ∈ rules, ∀ record ∈ store.ofType subject, store.AgreesOn record rule.guard

end MemoryStore

/-!
### A newsroom

Rules of every kind that decides here: a block denial before anything is granted, a grant that only
a store can decide, a grant under nested conditions, and a denial with a fallback. One article is
permitted, two are refused, and for the pinned one a check cannot tell.
-/

namespace Newsroom

def ownedArticle : Record :=
  (Record.ofId "Article" (.integer 1)).associate "owner"
    (.one ((Record.ofId "User" (.integer 7)).set "active" (.boolean true)))

def hiddenArticle : Record := (Record.ofId "Article" (.integer 2)).set "flag" (.text "hidden")

def pinnedArticle : Record := (Record.ofId "Article" (.integer 4)).set "pinned" (.boolean true)

def retractedArticle : Record := (Record.ofId "Article" (.integer 5)).set "flag" (.text "hidden")

def policy : Policy Record where
  rules := [
    Rule.declare .deny ["read"] ["Article"] (.block (fun record => record.id == .integer 3)),
    Rule.declare .allow ["read"] ["all"] (.fragment ⟨"pinned", []⟩ none),
    Rule.declare .allow ["manage"] ["Article"]
      (.hash [("owner", .nested [("active", .equals (.boolean true))])]),
    Rule.declare .deny ["read", "edit"] ["Article"] (.fragment ⟨"flag = ?", [.text "hidden"]⟩
      (some (fun record => Resource.attr record "flag" == .text "hidden")))]
  settings := .standard

def archive : MemoryStore where
  records := [ownedArticle, hiddenArticle, Record.ofId "Comment" (.integer 3), pinnedArticle,
    retractedArticle]
  fragments := [
    ("pinned", fun record _ => Resource.attr record "pinned" == .boolean true),
    ("flag = ?", fun record parameters => parameters.contains (Resource.attr record "flag"))]
  scopes := []

def plan : Plan where
  query := .and
    (.or (.fragment ⟨"pinned", []⟩)
      (.hash [("owner", .nested [("active", .equals (.boolean true))])]))
    (.not (.fragment ⟨"flag = ?", [.text "hidden"]⟩))
  joins := ⟨[("owner", ⟨[]⟩)]⟩

theorem archive_serves_policy : archive.Serves "Article" (policy.relevant "read" "Article") := by
  have relevant : policy.relevant "read" "Article" = policy.rules := rfl
  rw [relevant]
  constructor
  · intro rule member
    simp only [policy, List.mem_cons, List.not_mem_nil, or_false] at member
    rcases member with rfl | rfl | rfl | rfl <;> trivial
  · intro rule member record _
    simp only [policy, List.mem_cons, List.not_mem_nil, or_false] at member
    rcases member with rfl | rfl | rfl | rfl
    · trivial
    · trivial
    · trivial
    · intro meaning found
      cases found
      simp [beq_eq_decide]

def blockGrant : Rule Record :=
  Rule.declare .allow ["read"] ["Article"] (.block (fun record => record.id == .integer 2))

/-- The policy with a block grant, which its queries leave out. -/
def widened : Policy Record := { policy with rules := policy.rules ++ [blockGrant] }

theorem archive_serves_widened : archive.Serves "Article" (widened.relevant "read" "Article") := by
  have relevant : widened.relevant "read" "Article" =
      policy.relevant "read" "Article" ++ [blockGrant] := rfl
  rw [relevant]
  constructor
  · intro rule member
    rcases List.mem_append.mp member with known | last
    · exact archive_serves_policy.registers rule known
    · cases List.mem_singleton.mp last
      trivial
  · intro rule member record stored
    rcases List.mem_append.mp member with known | last
    · exact archive_serves_policy.agrees rule known record stored
    · cases List.mem_singleton.mp last
      trivial

end Newsroom

/-!
### Listing and checking
-/

namespace Policy

variable {policy : Policy Record} {store : MemoryStore} {action subject : String}

/-- A record of a listing is of the type that was listed. -/
theorem subjectType_of_mem {record : Record} (member : record ∈ store.ofType subject) :
    Resource.subjectType record = subject :=
  eq_of_beq (List.mem_filter.mp member).2

/-- A verdict on a stored record is the word of the last rule that applies. -/
theorem eq_outcome_of_can {record : Record} {verdict : Bool}
    (serves : store.Serves subject (policy.relevant action subject))
    (member : record ∈ store.ofType subject) (decided : policy.can action record = .ok verdict) :
    verdict = Rule.outcome (store.applies record) (policy.relevant action subject) := by
  rw [can, subjectType_of_mem member] at decided
  refine Rule.eq_outcome_of_firstVerdict ?_ decided
  intro rule relevant answer answered
  exact MemoryStore.passes_of_decide? (serves.registers rule relevant)
    (serves.agrees rule relevant record member) answered

/-- A planned listing runs the query over the records of the type. -/
theorem accessibleBy_eq_keep {plan : Plan} (planned : policy.plan action subject = .ok plan) :
    policy.accessibleBy store action subject =
      (store.keep plan.query (store.ofType subject)).mapError Fault.store := by
  obtain ⟨_, joins⟩ := folds_of_plan planned
  rw [← MemoryStore.select_eq_keep, ← joins, accessibleBy, planned]
  rfl

/-- A planned listing filters the records of the type by the query. -/
theorem accessibleBy_eq_filter {plan : Plan} (planned : policy.plan action subject = .ok plan)
    (registered : ∀ rule ∈ policy.relevant action subject, store.Registers rule.guard) :
    policy.accessibleBy store action subject =
      .ok ((store.ofType subject).filter (fun record => store.selects record plan.query)) := by
  obtain ⟨folds, _⟩ := folds_of_plan planned
  have known := MemoryStore.knows_of_folds folds registered
  rw [accessibleBy_eq_keep planned, MemoryStore.keep_eq_filter known]
  rfl

/-- Where no block grants, a listing keeps exactly the records of the type that a check of the
    record permits, in the order of the store. A record whose check fails may be kept or not. -/
theorem accessibleBy_filters_by_can {plan : Plan}
    (noBlockGrant : ∀ rule ∈ policy.relevant action subject,
      rule.polarity = .allow → rule.guard.isBlock = false)
    (serves : store.Serves subject (policy.relevant action subject))
    (planned : policy.plan action subject = .ok plan) :
    ∃ kept : Record → Bool,
      policy.accessibleBy store action subject = .ok ((store.ofType subject).filter kept) ∧
      ∀ record ∈ store.ofType subject, ∀ verdict,
        policy.can action record = .ok verdict → (kept record = true ↔ verdict = true) := by
  refine ⟨_, accessibleBy_eq_filter planned serves.registers, ?_⟩
  intro record member verdict decided
  obtain ⟨folds, _⟩ := folds_of_plan planned
  rw [MemoryStore.selects_eq_outcome folds noBlockGrant, eq_outcome_of_can serves member decided]

theorem newsroom_listing :
    (∀ rule ∈ Newsroom.policy.relevant "read" "Article",
      rule.polarity = .allow → rule.guard.isBlock = false) ∧
    Newsroom.archive.Serves "Article" (Newsroom.policy.relevant "read" "Article") ∧
    Newsroom.policy.plan "read" "Article" = .ok Newsroom.plan ∧
    Newsroom.policy.can "read" Newsroom.ownedArticle = .ok true ∧
    Newsroom.policy.can "read" Newsroom.hiddenArticle = .ok false ∧
    Newsroom.policy.can "read" Newsroom.pinnedArticle =
      .error (.unevaluable "read" "all" .fragment) ∧
    Newsroom.policy.can "read" Newsroom.retractedArticle = .ok false ∧
    Newsroom.policy.accessibleBy Newsroom.archive "read" "Article" =
      .ok [Newsroom.ownedArticle, Newsroom.pinnedArticle] ∧
    ∃ kept : Record → Bool,
      Newsroom.policy.accessibleBy Newsroom.archive "read" "Article" =
        .ok ((Newsroom.archive.ofType "Article").filter kept) ∧
      ∀ record ∈ Newsroom.archive.ofType "Article", ∀ verdict,
        Newsroom.policy.can "read" record = .ok verdict →
          (kept record = true ↔ verdict = true) := by
  have noBlockGrant : ∀ rule ∈ Newsroom.policy.relevant "read" "Article",
      rule.polarity = .allow → rule.guard.isBlock = false := by
    have relevant : Newsroom.policy.relevant "read" "Article" = Newsroom.policy.rules := rfl
    rw [relevant]
    simp [Newsroom.policy, Rule.declare, Guard.isBlock, Guard.kind]
  exact ⟨noBlockGrant, Newsroom.archive_serves_policy, rfl, rfl, rfl, rfl, rfl, rfl,
    accessibleBy_filters_by_can noBlockGrant Newsroom.archive_serves_policy rfl⟩

/-- A listing shows no record that a check of the record refuses, whatever the blocks among the
    rules are. A check of a listed record fails only at a rule that is for a store to decide. -/
theorem accessibleBy_never_leaks {records : List Record}
    (serves : store.Serves subject (policy.relevant action subject))
    (listed : policy.accessibleBy store action subject = .ok records) :
    ∀ record ∈ records,
      policy.can action record ≠ .ok false ∧
      (policy.can action record = .ok true ∨ ∃ declaredAction declaredSubject kind,
        policy.can action record = .error (.unevaluable declaredAction declaredSubject kind)) ∧
      ((∀ rule ∈ policy.relevant action subject, rule.guard.isOpaque = false) →
        policy.can action record = .ok true) := by
  cases planned : policy.plan action subject with
  | error fault => simp [accessibleBy, planned] at listed
  | ok plan =>
      rw [accessibleBy_eq_filter planned serves.registers, Except.ok.injEq] at listed
      intro record member
      rw [← listed, List.mem_filter] at member
      obtain ⟨stored, selected⟩ := member
      obtain ⟨folds, _⟩ := folds_of_plan planned
      have permitted := MemoryStore.outcome_of_selects folds selected
      cases decided : policy.can action record with
      | ok verdict =>
          have granted := eq_outcome_of_can serves stored decided
          rw [permitted] at granted
          simp [granted]
      | error fault =>
          rw [can, subjectType_of_mem stored] at decided
          obtain ⟨rule, relevant, isOpaque, reason⟩ := Rule.unevaluable_of_firstVerdict decided
          refine ⟨by simp, .inr ⟨_, _, _, congrArg Except.error reason⟩, ?_⟩
          intro decidable
          have clear := decidable rule (List.mem_reverse.mp relevant)
          rw [isOpaque] at clear
          cases clear

/-- The block grant permits the hidden article, and the listing still leaves it out, like the
    retracted one that is refused. Of the listed articles one is permitted, and for the other a
    check cannot tell. -/
theorem widened_newsroom_listing :
    Newsroom.archive.Serves "Article" (Newsroom.widened.relevant "read" "Article") ∧
    Newsroom.widened.accessibleBy Newsroom.archive "read" "Article" =
      .ok [Newsroom.ownedArticle, Newsroom.pinnedArticle] ∧
    Newsroom.widened.can "read" Newsroom.hiddenArticle = .ok true ∧
    Newsroom.widened.can "read" Newsroom.retractedArticle = .ok false ∧
    Newsroom.widened.can "read" Newsroom.ownedArticle = .ok true ∧
    Newsroom.widened.can "read" Newsroom.pinnedArticle =
      .error (.unevaluable "read" "all" .fragment) ∧
    ∀ record ∈ [Newsroom.ownedArticle, Newsroom.pinnedArticle],
      Newsroom.widened.can "read" record ≠ .ok false ∧
      (Newsroom.widened.can "read" record = .ok true ∨ ∃ declaredAction declaredSubject kind,
        Newsroom.widened.can "read" record =
          .error (.unevaluable declaredAction declaredSubject kind)) ∧
      ((∀ rule ∈ Newsroom.widened.relevant "read" "Article", rule.guard.isOpaque = false) →
        Newsroom.widened.can "read" record = .ok true) :=
  ⟨Newsroom.archive_serves_widened, rfl, rfl, rfl, rfl, rfl,
    accessibleBy_never_leaks Newsroom.archive_serves_widened rfl⟩

end Policy

/-!
### Listing by precedence

A block catches nothing, since a block grant is left out of a query, and a block denial is left out
only where there is nothing to deny. What two planned listings have in common can so be seen from
their rules, without their queries.
-/

namespace MemoryStore

variable {store : MemoryStore} {record : Record}

/-- The query of the rule's guard selects the record. A block has no query and catches nothing. -/
def catches (store : MemoryStore) (record : Record) (rule : Rule Record) : Bool :=
  rule.guard.query?.any (store.selects record)

/-- A rule with a query catches what the query selects. -/
theorem catches_of_query? {rule : Rule Record} {leaf : Query}
    (expressed : rule.guard.query? = some leaf) :
    store.catches record rule = store.selects record leaf := by
  rw [catches, expressed, Option.any_some]

/-- A block catches nothing, as no query stands for it. -/
theorem catches_of_isBlock {rule : Rule Record} (block : rule.guard.isBlock = true) :
    store.catches record rule = false := by
  rw [catches, Guard.query?_eq_none_iff.mpr block, Option.any_none]

/-- One more rule settles the selection of the records it catches and leaves the others alone. -/
theorem selects_of_absorbs {query next : Query} {rule : Rule Record}
    (absorbed : Absorbs query rule next) :
    store.selects record next =
      if store.catches record rule then rule.isAllow else store.selects record query := by
  cases absorbed with
  | @grant leaf expressed allows =>
      rw [selects_disjoin, catches_of_query? expressed, Rule.isAllow_of_allow allows]
      cases store.selects record leaf <;> simp
  | @denial leaf expressed denies =>
      rw [selects_conjoin, selects_negate, catches_of_query? expressed, Rule.isAllow_of_deny denies]
      cases store.selects record leaf <;> simp
  | skippedGrant block => rw [catches_of_isBlock block, if_neg Bool.false_ne_true]
  | skippedDenial block => rw [catches_of_isBlock block, if_neg Bool.false_ne_true]

/-- The query of rules selects a record where the last rule that catches it grants. -/
theorem selects_eq_outcome_catches {rules : List (Rule Record)} {query : Query}
    (folds : Folds rules query) :
    store.selects record query = Rule.outcome (store.catches record) rules := by
  induction folds with
  | nil => rfl
  | concat _ absorbed ih => rw [Rule.outcome_concat, ← ih, selects_of_absorbs absorbed]

end MemoryStore

/-- A planned listing keeps the records of the type for which the last rule that catches them
    grants. -/
theorem Policy.accessibleBy_eq_outcome {policy : Policy Record} {store : MemoryStore}
    {action subject : String} {plan : Plan} (planned : policy.plan action subject = .ok plan)
    (registered : ∀ rule ∈ policy.relevant action subject, store.Registers rule.guard) :
    policy.accessibleBy store action subject =
      .ok ((store.ofType subject).filter (fun record =>
        Rule.outcome (store.catches record) (policy.relevant action subject))) := by
  obtain ⟨folds, _⟩ := folds_of_plan planned
  rw [accessibleBy_eq_filter planned registered]
  simp only [MemoryStore.selects_eq_outcome_catches folds]

end Permit
