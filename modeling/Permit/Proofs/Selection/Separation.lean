/-
Module: Permit.Proofs.Selection.Separation
Layer: Proofs
Purpose: A rule over many actions and subjects means its separate rules, one for each pair. An
  action is reached from one of the actions by itself, and so a rule is relevant where one of its
  pairs is. Relevant pairs are copies of the rule in its place, which change no judgement, no reason
  against a plan, no joins and no listing. A scope is the exception: two copies would merge it.
Main exports: Rule.single, Policy.Separates, Policy.Separates.multiplies,
  Policy.separate_rules_agree
-/
import Permit.Proofs.Plan.Repetition
import Permit.Proofs.Policy.Declaration
import Permit.Proofs.Selection.Agreement

namespace Permit

variable {ρ : Type}

/-- The rule for one action on one subject only. -/
def Rule.single (rule : Rule ρ) : String × String → Rule ρ
  | (action, subject) => Rule.declare rule.polarity [action] [subject] rule.guard

/-- The two policies declare the same rules under the same settings, but where the first declares
    the rule the second declares rules for the pairs of its actions and subjects, in any order. -/
inductive Policy.Separates (rule : Rule ρ) : Policy ρ → Policy ρ → Prop where
  | pairs (settings : Settings) (before after : List (Rule ρ)) (pairs : List (String × String))
      (complete : ∀ action subject, (action, subject) ∈ pairs ↔
        action ∈ rule.actions ∧ subject ∈ rule.subjects) :
      Separates rule (declared settings (before ++ rule :: after))
        (declared settings (before ++ (pairs.map rule.single ++ after)))

namespace Rule

variable {rule : Rule ρ} {settings : Settings} {pairs : List (String × String)}
  {action subject : String}

/-- A rule for one pair is relevant where its action reaches the action and its subject covers the
    subject. -/
theorem isRelevant_single_iff {listed named : String} :
    ((rule.single (listed, named)).expand settings).isRelevant action subject = true ↔
      (Settings.Reaches settings.aliases listed manage ∨
        Settings.Reaches settings.aliases listed action) ∧
      (named = everySubject ∨ named = subject) := by
  simp [isRelevant_expand_iff, single, declare]

/-- A rule is relevant where the rule for one of its pairs is. -/
theorem isRelevant_iff_exists_single
    (complete : ∀ action subject, (action, subject) ∈ pairs ↔
      action ∈ rule.actions ∧ subject ∈ rule.subjects) :
    (rule.expand settings).isRelevant action subject = true ↔
      ∃ pair ∈ pairs, ((rule.single pair).expand settings).isRelevant action subject = true := by
  rw [isRelevant_expand_iff]
  constructor
  · intro ⟨listed, isListed, named, isNamed, relevant⟩
    exact ⟨(listed, named), (complete listed named).mpr ⟨isListed, isNamed⟩,
      isRelevant_single_iff.mpr relevant⟩
  · intro ⟨⟨listed, named⟩, member, relevant⟩
    obtain ⟨isListed, isNamed⟩ := (complete listed named).mp member
    exact ⟨listed, isListed, named, isNamed, isRelevant_single_iff.mp relevant⟩

/-- Expansion changes what a rule is about and nothing else. -/
theorem repeats_expand (rule : Rule ρ) (settings : Settings) :
    (rule.expand settings).Repeats rule :=
  ⟨rfl, rfl⟩

/-- A separate rule, with its action expanded, is still a copy of the rule that it was
    taken from. -/
theorem repeats_expand_single (rule : Rule ρ) (pair : String × String) (settings : Settings) :
    ((rule.single pair).expand settings).Repeats rule :=
  ⟨rfl, rfl⟩

/-- A copy of a rule catches the records that the rule catches. -/
theorem Repeats.catches_eq {rule copy : Rule Record} (repeats : copy.Repeats rule)
    (store : MemoryStore) (record : Record) :
    store.catches record copy = store.catches record rule := by
  rw [MemoryStore.catches, MemoryStore.catches, repeats.guard]

end Rule

namespace Policy

/-- Where the rule is relevant some of the separate rules are, and otherwise none is. -/
theorem Separates.multiplies {rule : Rule ρ} {policy other : Policy ρ}
    (separates : Separates rule policy other) (action subject : String) :
    rule.Multiplies (policy.relevant action subject) (other.relevant action subject) := by
  obtain ⟨settings, before, after, pairs, complete⟩ := separates
  rw [relevant_declared_append, relevant_declared_append, relevant_declared_append,
    relevant_declared_cons]
  split
  · next relevant =>
      apply Rule.Multiplies.present _ _ (rule.repeats_expand settings)
      · obtain ⟨pair, member, single⟩ := (Rule.isRelevant_iff_exists_single complete).mp relevant
        apply List.ne_nil_of_mem
        exact mem_relevant_declared.mpr ⟨⟨_, List.mem_map_of_mem member, rfl⟩, single⟩
      · intro copy member
        obtain ⟨⟨_, declared, rfl⟩, _⟩ := mem_relevant_declared.mp member
        obtain ⟨pair, _, rfl⟩ := List.mem_map.mp declared
        exact rule.repeats_expand_single pair settings
  · next irrelevant =>
      have none : (declared settings (pairs.map rule.single)).relevant action subject = [] := by
        apply List.eq_nil_iff_forall_not_mem.mpr
        intro copy member
        obtain ⟨⟨_, declared, rfl⟩, relevant⟩ := mem_relevant_declared.mp member
        obtain ⟨pair, listed, rfl⟩ := List.mem_map.mp declared
        exact irrelevant ((Rule.isRelevant_iff_exists_single complete).mpr ⟨pair, listed, relevant⟩)
      rw [none]
      exact .absent _

/-- A rule and its separate rules judge types alike. Of an object they say the same, or both come to
    a rule of one kind that cannot be decided. Unless the rule is a scope they are refused a plan
    for the same reason, or have plans with the same joins, which list the same records of a store
    that knows all fragments and scopes. -/
theorem separate_rules_agree (action subject : String) :
    (∀ {ρ : Type} (rule : Rule ρ) (policy other : Policy ρ), Separates rule policy other →
      policy.canType action subject = other.canType action subject ∧
      (rule.guard.isScope = false →
        (∃ fault, policy.plan action subject = .error fault ∧
          other.plan action subject = .error fault) ∨
        ∃ plan otherPlan, policy.plan action subject = .ok plan ∧
          other.plan action subject = .ok otherPlan ∧ plan.joins = otherPlan.joins)) ∧
    (∀ {ρ : Type} [Resource ρ] (rule : Rule ρ) (policy other : Policy ρ),
      Separates rule policy other → ∀ object : ρ, Resource.subjectType object = subject →
        Rule.Concur (policy.can action object) (other.can action object)) ∧
    ∀ (rule : Rule Record) (policy other : Policy Record) (store : MemoryStore) (plan : Plan),
      Separates rule policy other → rule.guard.isScope = false →
      (∀ relevant ∈ policy.relevant action subject, store.Registers relevant.guard) →
      policy.plan action subject = .ok plan →
      ∃ listed, policy.accessibleBy store action subject = .ok listed ∧
        other.accessibleBy store action subject = .ok listed := by
  refine ⟨?_, ?_, ?_⟩
  · intro ρ rule policy other separates
    have multiplies := separates.multiplies action subject
    constructor
    · rw [canType_eq_outcome, canType_eq_outcome]
      exact multiplies.outcome_eq fun copy repeats => repeats.decidesType_eq
    · exact plan_of_multiplies multiplies
  · intro ρ _ rule policy other separates object type
    rw [can, can, type]
    exact (separates.multiplies action subject).concur object
  · intro rule policy other store plan separates noScope registered planned
    have multiplies := separates.multiplies action subject
    have otherRegistered := (multiplies.forall_guard_iff store.Registers).mp registered
    rcases plan_of_multiplies multiplies noScope with
      ⟨fault, refused, _⟩ | ⟨_, otherPlan, _, otherPlanned, _⟩
    · cases planned.symm.trans refused
    · refine ⟨_, accessibleBy_eq_outcome planned registered, ?_⟩
      rw [accessibleBy_eq_outcome otherPlanned otherRegistered]
      have reading : ∀ record,
          Rule.outcome (store.catches record) (policy.relevant action subject) =
            Rule.outcome (store.catches record) (other.relevant action subject) :=
        fun record => multiplies.outcome_eq fun copy repeats => repeats.catches_eq store record
      simp only [reading]

end Policy

/-!
### A festival

Two aliases lead to each other, and the ticket is for talks and for everything. So two of its pairs
are about watching a talk, and the query asks for the venue twice. One talk is open to ticket
holders, one is cancelled, and who speaks at the first is for the store to decide.
-/

namespace Festival

def settings : Settings where
  aliases := [("attend", ["enter"]), ("enter", ["attend", "watch"])]
  unauthorizedMessage := "no ticket"

def speakers : Rule Record :=
  Rule.declare .allow ["manage"] ["Talk"] (.fragment ⟨"speaker = ?", [.integer 7]⟩ none)

def ticket : Rule Record :=
  Rule.declare .allow ["attend", "photograph"] ["Talk", "all"]
    (.hash [("venue", .nested [("open", .equals (.boolean true))])])

def cancelled : Rule Record :=
  Rule.declare .deny ["watch"] ["all"] (.hash [("cancelled", .equals (.boolean true))])

def pairs : List (String × String) :=
  [("photograph", "all"), ("attend", "all"), ("photograph", "Talk"), ("attend", "Talk")]

def policy : Policy Record := Policy.declared settings ([speakers] ++ ticket :: [cancelled])

def separate : Policy Record :=
  Policy.declared settings ([speakers] ++ (pairs.map ticket.single ++ [cancelled]))

def speaker : Query := .fragment ⟨"speaker = ?", [.integer 7]⟩

def venue : Query := .hash [("venue", .nested [("open", .equals (.boolean true))])]

def called : Query := .not (.hash [("cancelled", .equals (.boolean true))])

def joins : Joins := ⟨[("venue", ⟨[]⟩)]⟩

def talk : Record := Record.ofId "Talk" (.integer 1)

def keynote : Record := (Record.ofId "Talk" (.integer 2)).set "speaker" (.integer 7)

def openTalk : Record :=
  (Record.ofId "Talk" (.integer 3)).associate "venue"
    (.one ((Record.ofId "Hall" (.integer 1)).set "open" (.boolean true)))

def cancelledTalk : Record := openTalk.set "cancelled" (.boolean true)

def stage : MemoryStore where
  records := [talk, keynote, openTalk, cancelledTalk]
  fragments := [("speaker = ?", fun talk parameters =>
    parameters == [Resource.attr talk "speaker"])]
  scopes := []

theorem expansions :
    settings.expandActions ["manage"] = ["manage"] ∧
    settings.expandActions ["attend", "photograph"] =
      ["photograph", "attend", "enter", "watch"] ∧
    settings.expandActions ["photograph"] = ["photograph"] ∧
    settings.expandActions ["attend"] = ["attend", "enter", "watch"] ∧
    settings.expandActions ["watch"] = ["watch"] := by
  simp [Settings.expandActions, Settings.expandFrom_cons, Settings.expandFrom, settings,
    Settings.addLast, Entries.get?_cons, Entries.erase]

theorem policy_eq :
    policy = ⟨[speakers,
      { ticket with actions := ["photograph", "attend", "enter", "watch"] }, cancelled],
      settings⟩ := by
  obtain ⟨managed, sold, _, _, watched⟩ := expansions
  rw [policy, Policy.declared_eq]
  change Policy.mk [{ speakers with actions := settings.expandActions ["manage"] },
    { ticket with actions := settings.expandActions ["attend", "photograph"] },
    { cancelled with actions := settings.expandActions ["watch"] }] settings = _
  rw [managed, sold, watched]
  rfl

theorem separate_eq :
    separate = ⟨[speakers, ticket.single ("photograph", "all"),
      { ticket.single ("attend", "all") with actions := ["attend", "enter", "watch"] },
      ticket.single ("photograph", "Talk"),
      { ticket.single ("attend", "Talk") with actions := ["attend", "enter", "watch"] },
      cancelled], settings⟩ := by
  obtain ⟨managed, _, photographed, attended, watched⟩ := expansions
  rw [separate, Policy.declared_eq]
  change Policy.mk [{ speakers with actions := settings.expandActions ["manage"] },
    { ticket.single ("photograph", "all") with
      actions := settings.expandActions ["photograph"] },
    { ticket.single ("attend", "all") with actions := settings.expandActions ["attend"] },
    { ticket.single ("photograph", "Talk") with
      actions := settings.expandActions ["photograph"] },
    { ticket.single ("attend", "Talk") with actions := settings.expandActions ["attend"] },
    { cancelled with actions := settings.expandActions ["watch"] }] settings = _
  rw [managed, photographed, attended, watched]
  rfl

theorem separates : Policy.Separates ticket policy separate := by
  apply Policy.Separates.pairs settings [speakers] [cancelled] pairs
  intro action subject
  have actions : ticket.actions = ["attend", "photograph"] := rfl
  have subjects : ticket.subjects = ["Talk", "all"] := rfl
  simp only [actions, subjects, pairs, List.mem_cons, List.not_mem_nil, or_false, Prod.mk.injEq]
  grind

/-- What the policy with the ticket in one rule answers. -/
theorem policy_answers :
    policy.plan "watch" "Talk" = .ok ⟨.and (.or speaker venue) called, joins⟩ ∧
    policy.canType "watch" "Talk" = true ∧
    policy.can "watch" openTalk = .ok true ∧
    policy.can "watch" cancelledTalk = .ok false ∧
    policy.can "watch" talk = .error (.unevaluable "manage" "Talk" .fragment) ∧
    policy.accessibleBy stage "watch" "Talk" = .ok [keynote, openTalk] := by
  rw [policy_eq]
  exact ⟨rfl, rfl, rfl, rfl, rfl, rfl⟩

end Festival

theorem Policy.festival_separated :
    Separates Festival.ticket Festival.policy Festival.separate ∧
    Festival.ticket.guard.isScope = false ∧
    (∀ rule ∈ Festival.policy.relevant "watch" "Talk", Festival.stage.Registers rule.guard) ∧
    Festival.policy.plan "watch" "Talk" =
      .ok ⟨.and (.or Festival.speaker Festival.venue) Festival.called, Festival.joins⟩ ∧
    Festival.separate.plan "watch" "Talk" =
      .ok ⟨.and (.or (.or Festival.speaker Festival.venue) Festival.venue) Festival.called,
        Festival.joins⟩ ∧
    (Festival.policy.canType "watch" "Talk" = true ∧
      Festival.separate.canType "watch" "Talk" = true) ∧
    (Festival.policy.can "watch" Festival.openTalk = .ok true ∧
      Festival.separate.can "watch" Festival.openTalk = .ok true) ∧
    (Festival.policy.can "watch" Festival.cancelledTalk = .ok false ∧
      Festival.separate.can "watch" Festival.cancelledTalk = .ok false) ∧
    (Festival.policy.can "watch" Festival.talk =
        .error (.unevaluable "manage" "Talk" .fragment) ∧
      Rule.Concur (Festival.policy.can "watch" Festival.talk)
        (Festival.separate.can "watch" Festival.talk)) ∧
    Festival.policy.accessibleBy Festival.stage "watch" "Talk" =
      .ok [Festival.keynote, Festival.openTalk] ∧
    Festival.separate.accessibleBy Festival.stage "watch" "Talk" =
      .ok [Festival.keynote, Festival.openTalk] := by
  have separates := Festival.separates
  obtain ⟨planned, granted, permitted, refused, untold, listed⟩ := Festival.policy_answers
  have separatePlanned : Festival.separate.plan "watch" "Talk" =
      .ok ⟨.and (.or (.or Festival.speaker Festival.venue) Festival.venue) Festival.called,
        Festival.joins⟩ := by
    rw [Festival.separate_eq]
    rfl
  have registered : ∀ rule ∈ Festival.policy.relevant "watch" "Talk",
      Festival.stage.Registers rule.guard := by
    intro rule member
    obtain ⟨⟨declared, isDeclared, rfl⟩, _⟩ := mem_relevant_declared.mp member
    simp only [List.mem_append, List.mem_cons, List.not_mem_nil, or_false] at isDeclared
    rcases isDeclared with rfl | rfl | rfl <;> exact (by trivial)
  obtain ⟨types, objects, listings⟩ := separate_rules_agree "watch" "Talk"
  have concur := fun talk type => objects _ _ _ separates (talk : Record) type
  obtain ⟨records, here, there⟩ :=
    listings _ _ _ Festival.stage _ separates rfl registered planned
  rw [listed, Except.ok.injEq] at here
  exact ⟨separates, rfl, registered, planned, separatePlanned,
    ⟨granted, (types _ _ _ separates).1 ▸ granted⟩,
    ⟨permitted, (permitted ▸ concur Festival.openTalk rfl).eq_ok⟩,
    ⟨refused, (refused ▸ concur Festival.cancelledTalk rfl).eq_ok⟩,
    ⟨untold, concur Festival.talk rfl⟩, listed, here ▸ there⟩

end Permit
