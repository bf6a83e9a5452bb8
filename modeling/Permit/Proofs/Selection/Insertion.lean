/-
Module: Permit.Proofs.Selection.Insertion
Layer: Proofs
Purpose: What one more rule does to a policy, wherever among the others it stands. All three
  readings, the judgement of a type, the verdict on an object and the listing from a store, are
  words of the last rule that applies, and a word moves, if at all, towards the polarity of the
  rule that is put in: the rules after it either override both answers or carry them along.
Main exports: Polarity.Moves, Rule.outcome_moves_append, Rule.outcome_moves_insert,
  Policy.insertRule, Policy.outcome_moves_insertRule, Policy.inserted_rule_moves
-/
import Permit.Proofs.Selection.Agreement

namespace Permit

variable {ρ : Type}

/-- The answer moves, if at all, towards the word of the polarity: a grant takes no yes away, and a
    denial adds none. -/
def Polarity.Moves : Polarity → Bool → Bool → Prop
  | .allow, old, new => old = true → new = true
  | .deny, old, new => new = true → old = true

namespace Polarity.Moves

theorem refl (polarity : Polarity) (answer : Bool) : polarity.Moves answer answer := by
  cases polarity <;> exact id

/-- No answer is further than the word of the polarity itself. -/
theorem word (polarity : Polarity) (old : Bool) : polarity.Moves old polarity.isAllow := by
  cases polarity with
  | allow => exact fun _ => rfl
  | deny => exact fun granted => absurd granted Bool.false_ne_true

end Polarity.Moves

namespace Rule

variable {polarity : Polarity} {applies : Rule ρ → Bool}

/-- Later rules override both answers or carry them along. -/
theorem outcome_moves_append {rules others : List (Rule ρ)}
    (moves : polarity.Moves (outcome applies rules) (outcome applies others))
    (after : List (Rule ρ)) :
    polarity.Moves (outcome applies (rules ++ after)) (outcome applies (others ++ after)) := by
  induction after using List.reverseRecOn with
  | nil => rwa [List.append_nil, List.append_nil]
  | append_singleton after rule ih =>
      rw [← List.append_assoc, ← List.append_assoc, outcome_concat, outcome_concat]
      split
      · exact .refl polarity rule.isAllow
      · exact ih

/-- Rules of one polarity at the end move the answer towards it. -/
theorem outcome_moves_of_polarity {inserted : List (Rule ρ)}
    (alike : ∀ rule ∈ inserted, rule.polarity = polarity) (before : List (Rule ρ)) :
    polarity.Moves (outcome applies before) (outcome applies (before ++ inserted)) := by
  induction inserted using List.reverseRecOn with
  | nil =>
      rw [List.append_nil]
      exact .refl polarity _
  | append_singleton inserted rule ih =>
      rw [← List.append_assoc, outcome_concat]
      split
      · rw [isAllow, alike rule (by simp)]
        exact .word polarity _
      · exact ih (fun other member => alike other (by simp [member]))

/-- Rules of one polarity move the answer towards it, whatever stands before and after them. -/
theorem outcome_moves_insert {inserted : List (Rule ρ)}
    (alike : ∀ rule ∈ inserted, rule.polarity = polarity) (before after : List (Rule ρ)) :
    polarity.Moves (outcome applies (before ++ after))
      (outcome applies (before ++ inserted ++ after)) :=
  outcome_moves_append (outcome_moves_of_polarity alike before) after

end Rule

namespace Policy

/-- The policy with one more rule at a position, or at the end where the position is past it. -/
def insertRule (policy : Policy ρ) (position : Nat) (rule : Rule ρ) : Policy ρ :=
  { policy with rules := policy.rules.take position ++ rule :: policy.rules.drop position }

/-- The relevant rules stay in their places around the new rule, if that is relevant. -/
theorem relevant_insertRule (policy : Policy ρ) (position : Nat) (rule : Rule ρ)
    (action subject : String) :
    ∃ before after, policy.relevant action subject = before ++ after ∧
      (policy.insertRule position rule).relevant action subject =
        before ++ [rule].filter (fun rule => rule.isRelevant action subject) ++ after := by
  refine ⟨(policy.rules.take position).filter (fun rule => rule.isRelevant action subject),
    (policy.rules.drop position).filter (fun rule => rule.isRelevant action subject), ?_, ?_⟩
  · rw [← List.filter_append, List.take_append_drop, relevant]
  · rw [← List.filter_append, ← List.filter_append, List.append_assoc, List.singleton_append]
    rfl

/-- What is said of all relevant rules with the new one is said of those without it. -/
theorem relevant_subset_insertRule (policy : Policy ρ) (position : Nat) (rule : Rule ρ)
    (action subject : String) :
    policy.relevant action subject ⊆ (policy.insertRule position rule).relevant action subject := by
  obtain ⟨before, after, old, new⟩ := policy.relevant_insertRule position rule action subject
  rw [old, new]
  intro other member
  rcases List.mem_append.mp member with earlier | later
  · exact List.mem_append_left _ (List.mem_append_left _ earlier)
  · exact List.mem_append_right _ later

/-- Under every reading of the rules the new rule moves the word of the last that applies. -/
theorem outcome_moves_insertRule (applies : Rule ρ → Bool) (policy : Policy ρ) (position : Nat)
    (rule : Rule ρ) (action subject : String) :
    rule.polarity.Moves (Rule.outcome applies (policy.relevant action subject))
      (Rule.outcome applies ((policy.insertRule position rule).relevant action subject)) := by
  obtain ⟨before, after, old, new⟩ := policy.relevant_insertRule position rule action subject
  rw [old, new]
  apply Rule.outcome_moves_insert
  intro other member
  rw [List.mem_singleton.mp (List.mem_filter.mp member).1]

/-- A grant put among the rules, wherever it stands, takes no yes away, and a denial adds none: not
    for a type, not for an object where no relevant rule is opaque, and not for a record in the
    listings from a store that knows all fragments and scopes, where there is a plan with the rule
    and without it. -/
theorem inserted_rule_moves (action subject : String) (position : Nat) :
    (∀ {ρ : Type} (policy : Policy ρ) (rule : Rule ρ),
      rule.polarity.Moves (policy.canType action subject)
        ((policy.insertRule position rule).canType action subject)) ∧
    (∀ {ρ : Type} [Resource ρ] (policy : Policy ρ) (rule : Rule ρ),
      (∀ other ∈ (policy.insertRule position rule).relevant action subject,
        other.guard.isOpaque = false) →
      ∀ object : ρ, Resource.subjectType object = subject →
        ∃ old new, policy.can action object = .ok old ∧
          (policy.insertRule position rule).can action object = .ok new ∧
          rule.polarity.Moves old new) ∧
    ∀ (policy : Policy Record) (rule : Rule Record) (store : MemoryStore) (plan planWith : Plan),
      (∀ other ∈ (policy.insertRule position rule).relevant action subject,
        store.Registers other.guard) →
      policy.plan action subject = .ok plan →
      (policy.insertRule position rule).plan action subject = .ok planWith →
      ∃ kept keptWith : Record → Bool,
        policy.accessibleBy store action subject = .ok ((store.ofType subject).filter kept) ∧
        (policy.insertRule position rule).accessibleBy store action subject =
          .ok ((store.ofType subject).filter keptWith) ∧
        ∀ record, rule.polarity.Moves (kept record) (keptWith record) := by
  refine ⟨?_, ?_, ?_⟩
  · intro ρ policy rule
    rw [canType_eq_outcome, canType_eq_outcome]
    exact outcome_moves_insertRule _ policy position rule action subject
  · intro ρ _ policy rule clear object type
    have clearWithout := fun other member =>
      clear other (policy.relevant_subset_insertRule position rule action subject member)
    exact ⟨_, _, can_eq_outcome clearWithout type, can_eq_outcome clear type,
      outcome_moves_insertRule _ policy position rule action subject⟩
  · intro policy rule store plan planWith registered planned plannedWith
    have registeredWithout := fun other member =>
      registered other (policy.relevant_subset_insertRule position rule action subject member)
    exact ⟨_, _, accessibleBy_eq_outcome planned registeredWithout,
      accessibleBy_eq_outcome plannedWith registered,
      fun record => outcome_moves_insertRule _ policy position rule action subject⟩

end Policy

/-!
### A forum

The grant of pinned comments is put in front of the denial of spam, and the denial still has its
say. The block denial comes before anything is granted, with the new grant as without it. One
comment moves from refused to permitted, one stays refused, and one stays permitted.
-/

namespace Forum

def policy : Policy Record where
  rules := [
    Rule.declare .deny ["read"] ["Comment"] (.block (fun comment => comment.id == .integer 9)),
    Rule.declare .allow ["read"] ["Comment"]
      (.hash [("author", .nested [("member", .equals (.boolean true))])]),
    Rule.declare .deny ["manage"] ["all"] (.fragment ⟨"spam", []⟩
      (some (fun comment => Resource.attr comment "spam" == .boolean true)))]
  settings := .standard

def pinnedGrant : Rule Record :=
  Rule.declare .allow ["read"] ["all"] (.hash [("pinned", .equals (.boolean true))])

def pinnedComment : Record := (Record.ofId "Comment" (.integer 2)).set "pinned" (.boolean true)

def pinnedSpam : Record :=
  ((Record.ofId "Comment" (.integer 3)).set "pinned" (.boolean true)).set "spam" (.boolean true)

def memberComment : Record :=
  (Record.ofId "Comment" (.integer 4)).associate "author"
    (.one ((Record.ofId "User" (.integer 7)).set "member" (.boolean true)))

def board : MemoryStore where
  records := [pinnedComment, pinnedSpam, memberComment]
  fragments := [("spam", fun comment _ => Resource.attr comment "spam" == .boolean true)]
  scopes := []

def memberQuery : Query := .hash [("author", .nested [("member", .equals (.boolean true))])]

def plan : Plan where
  query := .and memberQuery (.not (.fragment ⟨"spam", []⟩))
  joins := ⟨[("author", ⟨[]⟩)]⟩

def planWithPinned : Plan where
  query := .and (.or memberQuery (.hash [("pinned", .equals (.boolean true))]))
    (.not (.fragment ⟨"spam", []⟩))
  joins := ⟨[("author", ⟨[]⟩)]⟩

end Forum

theorem Policy.pinned_comments_added :
    (∀ rule ∈ (Forum.policy.insertRule 2 Forum.pinnedGrant).relevant "read" "Comment",
      rule.guard.isOpaque = false ∧ Forum.board.Registers rule.guard) ∧
    Forum.policy.plan "read" "Comment" = .ok Forum.plan ∧
    (Forum.policy.insertRule 2 Forum.pinnedGrant).plan "read" "Comment" =
      .ok Forum.planWithPinned ∧
    (Forum.policy.can "read" Forum.pinnedComment = .ok false ∧
      (Forum.policy.insertRule 2 Forum.pinnedGrant).can "read" Forum.pinnedComment = .ok true ∧
      Polarity.allow.Moves false true) ∧
    (Forum.policy.can "read" Forum.pinnedSpam = .ok false ∧
      (Forum.policy.insertRule 2 Forum.pinnedGrant).can "read" Forum.pinnedSpam = .ok false) ∧
    Forum.policy.accessibleBy Forum.board "read" "Comment" = .ok [Forum.memberComment] ∧
    (Forum.policy.insertRule 2 Forum.pinnedGrant).accessibleBy Forum.board "read" "Comment" =
      .ok [Forum.pinnedComment, Forum.memberComment] ∧
    ∃ kept keptWith : Record → Bool,
      Forum.policy.accessibleBy Forum.board "read" "Comment" =
        .ok ((Forum.board.ofType "Comment").filter kept) ∧
      (Forum.policy.insertRule 2 Forum.pinnedGrant).accessibleBy Forum.board "read" "Comment" =
        .ok ((Forum.board.ofType "Comment").filter keptWith) ∧
      ∀ record, Polarity.allow.Moves (kept record) (keptWith record) := by
  have decides : ∀ rule ∈ (Forum.policy.insertRule 2 Forum.pinnedGrant).relevant "read" "Comment",
      rule.guard.isOpaque = false ∧ Forum.board.Registers rule.guard := by
    have relevant : (Forum.policy.insertRule 2 Forum.pinnedGrant).relevant "read" "Comment" =
        (Forum.policy.insertRule 2 Forum.pinnedGrant).rules := rfl
    rw [relevant]
    intro rule member
    simp only [Policy.insertRule, Forum.policy, List.take, List.drop, List.cons_append,
      List.nil_append, List.mem_cons, List.not_mem_nil, or_false] at member
    rcases member with rfl | rfl | rfl | rfl <;> exact ⟨rfl, by trivial⟩
  obtain ⟨_, objects, listings⟩ := inserted_rule_moves "read" "Comment" 2
  obtain ⟨old, new, refused, permitted, moves⟩ := objects Forum.policy Forum.pinnedGrant
    (fun rule member => (decides rule member).1) Forum.pinnedComment rfl
  cases refused
  cases permitted
  exact ⟨decides, rfl, rfl, ⟨rfl, rfl, moves⟩, ⟨rfl, rfl⟩, rfl, rfl,
    listings Forum.policy Forum.pinnedGrant Forum.board _ _
      (fun rule member => (decides rule member).2) rfl rfl⟩

end Permit
