/-
Module: Permit.Proofs.Settings.Closure
Layer: Proofs
Purpose: Expansion as a closure of sets of actions. The loop over the waiting actions always ends,
  with each action once, and with those that alias steps reach from a listed one. So neither the
  order nor the repetition of what is listed and declared counts, a union is expanded part by part,
  and nothing is gained by expanding twice.
Main exports: Settings.Rearranged, Settings.leads_of_rearranged, Settings.nodup_expandActions,
  Settings.expansion_is_closure
-/
import Mathlib.Data.Finset.Dedup
import Permit.Proofs.Settings.Worklist

namespace Permit.Settings

variable {aliases arranged : Entries (List String)} {settings : Settings} {action name : String}
  {actions others : List String}

/-!
### No repetition
-/

/-- Adding a name where it is missing repeats none. -/
theorem nodup_addLast {names : List String} (unique : names.Nodup) (name : String) :
    (addLast names name).Nodup := by
  unfold addLast
  split
  · exact unique
  · next new => exact unique.append (List.nodup_singleton name) (by simpa using new)

/-- No turn of the expansion repeats an action, so the list has none twice if it starts with none
    twice. -/
theorem nodup_expandFrom (closed : Entries (List String)) (pending expanded : List String)
    (unique : expanded.Nodup) : (expandFrom closed pending expanded).Nodup := by
  induction closed, pending, expanded using expandFrom.induct with
  | case1 closed expanded => rwa [expandFrom]
  | case2 closed expanded name rest targets opened ih =>
      rw [expandFrom_of_alias opened]
      exact ih (nodup_addLast unique name)
  | case3 closed expanded name rest absent ih =>
      rw [expandFrom_of_no_alias absent]
      exact ih (nodup_addLast unique name)

/-- An expanded action list has no action twice, whatever the aliases are and whatever is repeated
    in the declaration. -/
theorem nodup_expandActions (settings : Settings) (actions : List String) :
    (settings.expandActions actions).Nodup :=
  nodup_expandFrom _ _ _ List.nodup_nil

/-!
### Order and repetition of declarations
-/

/-- The same names in any order, and under each name the same targets in any order and number. -/
def Rearranged (aliases arranged : Entries (List String)) : Prop :=
  ∃ ordered, aliases.Perm ordered ∧
    List.Forall₂ (fun entry other => entry.1 = other.1 ∧ entry.2.toFinset = other.2.toFinset)
      ordered arranged

/-- Where names are unique, alias steps can be read off the entries. -/
theorem leads_iff_of_unique (unique : aliases.Unique) :
    Leads aliases name action ↔ ∃ targets, (name, targets) ∈ aliases ∧ action ∈ targets := by
  constructor
  · rintro ⟨targets, found, member⟩
    exact ⟨targets, Entries.mem_of_get? found, member⟩
  · rintro ⟨targets, declared, member⟩
    exact ⟨targets, unique.get?_of_mem declared, member⟩

/-- Rearranging the targets of each alias leaves the names of the aliases in place. -/
theorem names_eq_of_forall₂ {ordered : Entries (List String)}
    (same : List.Forall₂
      (fun entry other => entry.1 = other.1 ∧ entry.2.toFinset = other.2.toFinset)
      ordered arranged) : ordered.names = arranged.names := by
  induction same with
  | nil => rfl
  | cons head _ ih =>
      unfold Entries.names at ih ⊢
      rw [List.map_cons, List.map_cons, head.1, ih]

/-- Rearranging the targets of each alias leaves every action a target of the same aliases. -/
theorem exists_target_iff_of_forall₂ {ordered : Entries (List String)}
    (same : List.Forall₂
      (fun entry other => entry.1 = other.1 ∧ entry.2.toFinset = other.2.toFinset)
      ordered arranged) :
    (∃ targets, (name, targets) ∈ ordered ∧ action ∈ targets) ↔
      ∃ targets, (name, targets) ∈ arranged ∧ action ∈ targets := by
  induction same with
  | nil => rfl
  | @cons entry other _ _ head _ ih =>
      obtain ⟨known, targets⟩ := entry
      obtain ⟨_, others⟩ := other
      obtain ⟨rfl, members⟩ := head
      have targeted : action ∈ targets ↔ action ∈ others := by
        rw [← List.mem_toFinset, members, List.mem_toFinset]
      simp only [List.mem_cons, Prod.mk.injEq, or_and_right, exists_or, and_assoc, exists_and_left,
        exists_eq_left, targeted, ih]

/-- Rearranging aliases and their targets changes no alias step. -/
theorem leads_of_rearranged (unique : aliases.Unique) (rearranged : Rearranged aliases arranged) :
    Leads aliases name action ↔ Leads arranged name action := by
  obtain ⟨ordered, perm, same⟩ := rearranged
  have uniqueArranged : arranged.Unique := by
    have names : aliases.names.Perm arranged.names :=
      names_eq_of_forall₂ same ▸ perm.map Prod.fst
    exact names.nodup_iff.mp unique
  rw [leads_iff_of_unique unique, leads_iff_of_unique uniqueArranged,
    ← exists_target_iff_of_forall₂ same]
  simp only [perm.mem_iff]

/-- What is reached by alias steps does not depend on the order of the aliases, nor on the order or
    the number of the targets of each. -/
theorem reaches_of_rearranged (unique : aliases.Unique) (rearranged : Rearranged aliases arranged) :
    Reaches aliases = Reaches arranged := by
  have steps : Leads aliases = Leads arranged := by
    funext name action
    exact propext (leads_of_rearranged unique rearranged)
  rw [Reaches, Reaches, steps]

/-!
### Expanded sets
-/

/-- The expanded set is what alias steps reach from the declared actions. All laws of expanded sets
    are read off this. -/
theorem mem_toFinset_expandActions :
    action ∈ (settings.expandActions actions).toFinset ↔
      ∃ listed ∈ actions, Reaches settings.aliases listed action := by
  rw [List.mem_toFinset, mem_expandActions]

/-- Actions declared together are expanded to what each would be expanded to alone. -/
theorem expandActions_append (settings : Settings) (actions others : List String) :
    (settings.expandActions (actions ++ others)).toFinset =
      (settings.expandActions actions).toFinset ∪ (settings.expandActions others).toFinset := by
  ext action
  simp only [Finset.mem_union, mem_toFinset_expandActions, List.mem_append, or_and_right, exists_or]

/-- What is reached from reached actions is reached. -/
theorem expandActions_expandActions (settings : Settings) (actions : List String) :
    (settings.expandActions (settings.expandActions actions)).toFinset =
      (settings.expandActions actions).toFinset := by
  ext action
  simp only [mem_toFinset_expandActions, mem_expandActions]
  constructor
  · rintro ⟨between, ⟨listed, member, first⟩, second⟩
    exact ⟨listed, member, first.trans second⟩
  · rintro ⟨listed, member, reached⟩
    exact ⟨listed, ⟨listed, member, .refl⟩, reached⟩

/-- Settings with rearranged aliases expand the same actions to the same set. -/
theorem expandActions_of_rearranged {rearrangedSettings : Settings}
    (unique : settings.aliases.Unique)
    (rearranged : Rearranged settings.aliases rearrangedSettings.aliases)
    (same : actions.toFinset = others.toFinset) :
    (rearrangedSettings.expandActions others).toFinset =
      (settings.expandActions actions).toFinset := by
  have listed : ∀ action, action ∈ others ↔ action ∈ actions := by
    intro action
    rw [← List.mem_toFinset, ← same, List.mem_toFinset]
  ext action
  simp only [mem_toFinset_expandActions, reaches_of_rearranged unique rearranged, listed]

/-- Expansion is the closure under alias steps, whatever the aliases are. Its loop never goes on for
    ever, and it ends with the expanded actions, each once: those that are reached from a listed
    action. As a set they are the same for a set expanded before, they are the union of the parts
    for a union, and they do not depend on the order and the repetition of actions, aliases and
    targets. -/
theorem expansion_is_closure (settings : Settings) :
    WellFounded (fun after before => Turns settings.aliases before after) ∧
    (∀ actions : List String,
      Relation.ReflTransGen (Turns settings.aliases) ⟨actions.reverse, []⟩
        ⟨[], settings.expandActions actions⟩ ∧
      (settings.expandActions actions).Nodup ∧
      (∀ action, action ∈ settings.expandActions actions ↔
        ∃ listed ∈ actions, Reaches settings.aliases listed action) ∧
      (settings.expandActions (settings.expandActions actions)).toFinset =
        (settings.expandActions actions).toFinset) ∧
    (∀ actions others : List String,
      (settings.expandActions (actions ++ others)).toFinset =
        (settings.expandActions actions).toFinset ∪ (settings.expandActions others).toFinset) ∧
    ∀ (arranged : Settings) (actions others : List String), settings.aliases.Unique →
      Rearranged settings.aliases arranged.aliases → actions.toFinset = others.toFinset →
      (arranged.expandActions others).toFinset = (settings.expandActions actions).toFinset := by
  refine ⟨wellFounded_turns settings.aliases, ?_, expandActions_append settings, ?_⟩
  · intro actions
    exact ⟨turns_expandActions settings actions, nodup_expandActions settings actions,
      fun action => mem_expandActions, expandActions_expandActions settings actions⟩
  · intro arranged actions others unique rearranged same
    exact expandActions_of_rearranged unique rearranged same

/-!
### A circle of aliases

An alias that targets itself, one that targets the wildcard, and two that lead to each other.
-/

namespace Circle

def declared : Settings where
  aliases := [("read", ["show", "read", "list"]), ("list", ["index", "read", "index"]),
    ("own", ["manage"])]
  unauthorizedMessage := "No."

def turned : Settings where
  aliases := [("own", ["manage", "manage"]), ("list", ["read", "index"]),
    ("read", ["list", "show", "read"])]
  unauthorizedMessage := "No."

end Circle

theorem circle_expansion :
    Circle.declared.aliases.Unique ∧
    Rearranged Circle.declared.aliases Circle.turned.aliases ∧
    Circle.declared.expandActions ["read", "own"] =
      ["own", "manage", "read", "list", "index", "show"] ∧
    (Circle.turned.expandActions ["own", "read", "own"]).toFinset =
      (Circle.declared.expandActions ["read", "own"]).toFinset := by
  have unique : Circle.declared.aliases.Unique := by decide
  have rearranged : Rearranged Circle.declared.aliases Circle.turned.aliases :=
    ⟨Circle.declared.aliases.reverse, (List.reverse_perm _).symm,
      .cons (by decide) (.cons (by decide) (.cons (by decide) .nil))⟩
  have expanded : Circle.declared.expandActions ["read", "own"] =
      ["own", "manage", "read", "list", "index", "show"] := by
    simp [expandActions, expandFrom_cons, expandFrom, Circle.declared, Entries.get?_cons,
      Entries.erase, addLast]
  obtain ⟨_, _, _, rearranges⟩ := expansion_is_closure Circle.declared
  exact ⟨unique, rearranged, expanded,
    rearranges Circle.turned ["read", "own"] ["own", "read", "own"] unique rearranged (by decide)⟩

end Permit.Settings
