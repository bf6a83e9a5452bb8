/-
Module: Permit.Proofs.Settings.Reachability
Layer: Proofs
Purpose: Expansion as reachability. The expanded actions are those that alias steps reach from a
  listed action, whatever the aliases are. Opening an alias once is enough: a path that meets it
  again can be cut after the last meeting.
Main exports: Settings.Leads, Settings.Reaches, Settings.reaches_cases_erase,
  Settings.mem_expandFrom, Settings.mem_expandActions
-/
import Mathlib.Logic.Relation
import Permit.Settings

namespace Permit.Settings

variable {aliases closed : Entries (List String)} {name action start goal : String}

/-- One alias step: the name is an alias with the action among its targets. -/
def Leads (aliases : Entries (List String)) (name action : String) : Prop :=
  ∃ targets, aliases.get? name = some targets ∧ action ∈ targets

/-- Any number of alias steps, none included. -/
def Reaches (aliases : Entries (List String)) : String → String → Prop :=
  Relation.ReflTransGen (Leads aliases)

/-- Without an alias, the steps that start from it are gone, and no others. -/
theorem leads_erase_iff :
    Leads (closed.erase name) start action ↔ start ≠ name ∧ Leads closed start action := by
  unfold Leads
  rw [Entries.get?_erase]
  split
  · next same => simp [same]
  · next differs => simp [Ne.symm differs]

/-- What is reached without an alias is reached with it. -/
theorem reaches_of_erase (reached : Reaches (closed.erase name) start goal) :
    Reaches closed start goal := by
  induction reached with
  | refl => exact .refl
  | tail _ step ih => exact ih.tail (leads_erase_iff.mp step).2

/-- A path does without the alias, ends at it, or goes on without it from one of its targets. -/
theorem reaches_cases_erase {targets : List String} (opened : closed.get? name = some targets)
    (reached : Reaches closed start goal) :
    Reaches (closed.erase name) start goal ∨ goal = name ∨
      ∃ target ∈ targets, Reaches (closed.erase name) target goal := by
  -- the induction is on the last step, so that the last meeting with the alias is the one seen
  induction reached with
  | refl => exact .inl .refl
  | @tail middle goal _ step ih =>
      by_cases meets : middle = name
      · subst meets
        obtain ⟨others, found, member⟩ := step
        rw [opened, Option.some.injEq] at found
        exact .inr (.inr ⟨goal, found ▸ member, .refl⟩)
      · have stays : Leads (closed.erase name) middle goal := leads_erase_iff.mpr ⟨meets, step⟩
        rcases ih with without | same | ⟨target, member, after⟩
        · exact .inl (without.tail stays)
        · exact absurd same meets
        · exact .inr (.inr ⟨target, member, after.tail stays⟩)

/-- Adding a name adds no other. -/
theorem mem_addLast {names : List String} : action ∈ addLast names name ↔
    action ∈ names ∨ action = name := by
  unfold addLast
  split
  · next known =>
      constructor
      · exact .inl
      · rintro (old | rfl)
        · exact old
        · exact known
  · simp

/-- What an alias reaches is the alias itself and what its targets reach without it, as far as
    other waiting actions are taken care of. -/
theorem exists_waiting_erase_iff {targets rest : List String}
    (opened : closed.get? name = some targets) :
    (action = name ∨
        ∃ waiting ∈ targets.reverse ++ rest, Reaches (closed.erase name) waiting action) ↔
      ∃ waiting ∈ name :: rest, Reaches closed waiting action := by
  constructor
  · rintro (rfl | ⟨waiting, member, reached⟩)
    · exact ⟨action, List.mem_cons_self, .refl⟩
    · have onward := reaches_of_erase reached
      rcases List.mem_append.mp member with target | other
      · have step : Leads closed name waiting := ⟨targets, opened, List.mem_reverse.mp target⟩
        exact ⟨name, List.mem_cons_self, onward.head step⟩
      · exact ⟨waiting, List.mem_cons_of_mem _ other, onward⟩
  · rintro ⟨waiting, member, reached⟩
    rcases reaches_cases_erase opened reached with without | same | ⟨target, listed, after⟩
    · rcases List.mem_cons.mp member with rfl | other
      · -- an erased alias leads nowhere
        rcases without.cases_head with same | ⟨next, step, _⟩
        · exact .inl same.symm
        · exact absurd rfl (leads_erase_iff.mp step).1
      · exact .inr ⟨waiting, List.mem_append_right _ other, without⟩
    · exact .inl same
    · exact .inr ⟨target, List.mem_append_left _ (List.mem_reverse.mpr listed), after⟩

/-- An action that is no alias reaches itself only. -/
theorem reaches_iff_of_get?_eq_none (absent : closed.get? name = none) :
    Reaches closed name action ↔ action = name := by
  constructor
  · intro reached
    rcases reached.cases_head with same | ⟨next, ⟨targets, found, _⟩, _⟩
    · exact same.symm
    · rw [absent] at found
      cases found
  · rintro rfl
    exact .refl

/-- Expansion adds what the pending actions reach through the aliases that are still closed. -/
theorem mem_expandFrom (closed : Entries (List String)) (pending expanded : List String) :
    action ∈ expandFrom closed pending expanded ↔
      action ∈ expanded ∨ ∃ waiting ∈ pending, Reaches closed waiting action := by
  induction closed, pending, expanded using expandFrom.induct with
  | case1 closed expanded => simp [expandFrom]
  | case2 closed expanded name rest targets opened ih =>
      rw [expandFrom, opened]
      rw [ih, mem_addLast, or_assoc, exists_waiting_erase_iff opened]
  | case3 closed expanded name rest absent ih =>
      rw [expandFrom, absent]
      rw [ih, mem_addLast, or_assoc]
      simp [reaches_iff_of_get?_eq_none absent]

/-- The expanded actions are those that are reached from a listed one. -/
theorem mem_expandActions {settings : Settings} {actions : List String} :
    action ∈ settings.expandActions actions ↔
      ∃ listed ∈ actions, Reaches settings.aliases listed action := by
  simp [expandActions, mem_expandFrom]

end Permit.Settings
