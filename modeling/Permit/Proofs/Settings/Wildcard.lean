/-
Module: Permit.Proofs.Settings.Wildcard
Layer: Proofs
Purpose: No alias leads to the wildcard action. Whatever way settings come about, they have been
  checked as a whole, and checked settings have no alias with the wildcard among its targets. So a
  rule gets the wildcard from its own actions or not at all.
Main exports: Settings.Obtained, Settings.Obtained.fault?_eq_none, Settings.reaches_manage_iff,
  Policy.added_rule_coverage
-/
import Permit.Json.Forms
import Permit.Policy
import Permit.Proofs.Settings.Reachability

namespace Permit

namespace Settings

/-- The ways to settings: the standard ones, a text that is accepted, and one more alias that is
    accepted. -/
inductive Obtained : Settings → Prop where
  | standard : Obtained standard
  | text {text : String} {settings : Settings} (accepted : ofText text = .ok settings) :
      Obtained settings
  | withAlias {before settings : Settings} {name : String} {targets : List String}
      (earlier : Obtained before) (accepted : before.withAlias name targets = .ok settings) :
      Obtained settings

/-- Settings that are obtained have no fault. -/
theorem Obtained.fault?_eq_none {settings : Settings} (obtained : settings.Obtained) :
    settings.fault? = none := by
  cases obtained with
  | standard => decide
  | @text text _ accepted =>
      unfold ofText at accepted
      split at accepted
      · cases accepted
      · exact (checked_eq_ok_iff.mp accepted).2
  | withAlias _ accepted => exact (checked_eq_ok_iff.mp accepted).2

variable {settings : Settings} {name action : String}

/-- Where settings have no fault, no alias has the wildcard among its targets. -/
theorem not_leads_manage (valid : settings.fault? = none) :
    ¬ Leads settings.aliases name manage := by
  rintro ⟨targets, found, member⟩
  have faultless : aliasFault? name targets = none :=
    List.findSome?_eq_none_iff.mp valid (name, targets) (Entries.mem_of_get? found)
  unfold aliasFault? at faultless
  split at faultless
  · cases faultless
  · rw [Option.map_eq_none_iff, List.find?_eq_none] at faultless
    exact faultless manage member (by simp)

/-- Where settings have no fault, only the wildcard itself reaches the wildcard. -/
theorem reaches_manage_iff (valid : settings.fault? = none) :
    Reaches settings.aliases name manage ↔ name = manage := by
  constructor
  · intro reached
    rcases reached.cases_tail with same | ⟨last, _, step⟩
    · exact same.symm
    · exact absurd step (not_leads_manage valid)
  · rintro rfl
    exact .refl

/-- No valid alias leads to the wildcard, so a rule has it after the expansion only if it was
    declared for it. -/
theorem manage_mem_expandActions_iff (valid : settings.fault? = none) {actions : List String} :
    manage ∈ settings.expandActions actions ↔ manage ∈ actions := by
  simp [mem_expandActions, reaches_manage_iff valid]

end Settings

/-- A rule is about an action if it names the action or the wildcard. -/
theorem Rule.coversAction_iff {ρ : Type} {rule : Rule ρ} {action : String} :
    rule.coversAction action = true ↔ manage ∈ rule.actions ∨ action ∈ rule.actions := by
  simp [coversAction]

/-- A rule that is added under obtained settings covers everything if it is declared for the
    wildcard, and otherwise what alias steps reach from its declared actions. Aliases never give it
    the wildcard, and they change nothing about it but its actions. -/
theorem Policy.added_rule_coverage {ρ : Type} {policy : Policy ρ}
    (obtained : policy.settings.Obtained) (polarity : Polarity) (actions subjects : List String)
    (guard : Guard ρ) :
    ∃ rule : Rule ρ,
      (policy.add (Rule.declare polarity actions subjects guard)).rules = policy.rules ++ [rule] ∧
      (∀ action, rule.coversAction action = true ↔
        manage ∈ actions ∨
          ∃ listed ∈ actions, Settings.Reaches policy.settings.aliases listed action) ∧
      (manage ∈ rule.actions → manage ∈ actions) ∧
      rule =
        { Rule.declare polarity actions subjects guard with actions := rule.actions } := by
  have valid := obtained.fault?_eq_none
  refine ⟨(Rule.declare polarity actions subjects guard).expand policy.settings, rfl, ?_, ?_, rfl⟩
  · intro action
    rw [Rule.coversAction_iff, Rule.expand, Settings.manage_mem_expandActions_iff valid,
      Settings.mem_expandActions]
    simp [Rule.declare]
  · intro wildcard
    rw [Rule.expand, Settings.manage_mem_expandActions_iff valid] at wildcard
    simpa [Rule.declare] using wildcard

/-!
### An editorial office

Two aliases from a text that lead to each other, a third that is declared and then replaced.
-/

namespace Editorial

def text : String :=
  "\x7b\"aliases\":\x7b\"publish\":[\"share\"],\"share\":[\"publish\",\"send\"]\x7d\x7d"

def document : Json :=
  .object [("aliases", .object [
    ("publish", .array [.string "share"]),
    ("share", .array [.string "publish", .string "send"])])]

def written : Settings where
  aliases := [("publish", ["share"]), ("share", ["publish", "send"])]
  unauthorizedMessage := Settings.standard.unauthorizedMessage

def extended : Settings := written.declareAlias "send" ["read"]

def replaced : Settings := extended.declareAlias "send" ["mail", "mail"]

/-- The settings come from a text and two declarations, the second of which replaces the first. -/
theorem replaced_obtained : replaced.Obtained := by
  have parsed : Json.ofText? text = some document := by
    rw [text, Json.ofText?, String.toList_ofList]
    rfl
  have decoded : Settings.ofJson? document = some written := rfl
  have valid : written.checked = .ok written := rfl
  have accepted : Settings.ofText text = .ok written := by
    simp only [Settings.ofText, Settings.read?, parsed, Option.bind_some, decoded, valid]
  have first : written.withAlias "send" ["read"] = .ok extended := rfl
  have second : extended.withAlias "send" ["mail", "mail"] = .ok replaced := rfl
  exact .withAlias (.withAlias (.text accepted) first) second

def policy : Policy Unit where
  rules := [Rule.declare .deny ["manage"] ["all"] .unconditional]
  settings := replaced

end Editorial

/-- The cycle is expanded once, with what it leads to, and the wildcard stays out of it. -/
theorem Policy.editorial_coverage :
    Editorial.policy.settings.Obtained ∧
    ∃ rule : Rule Unit,
      (Editorial.policy.add
        (Rule.declare .allow ["publish"] ["Article"] .unconditional)).rules =
          Editorial.policy.rules ++ [rule] ∧
      (∀ action, rule.coversAction action = true ↔
        manage ∈ ["publish"] ∨ ∃ listed ∈ ["publish"],
          Settings.Reaches Editorial.policy.settings.aliases listed action) ∧
      (manage ∈ rule.actions → manage ∈ ["publish"]) ∧
      rule =
        { Rule.declare .allow ["publish"] ["Article"] .unconditional with
          actions := rule.actions } :=
  ⟨Editorial.replaced_obtained,
    added_rule_coverage Editorial.replaced_obtained .allow ["publish"] ["Article"] .unconditional⟩

end Permit
