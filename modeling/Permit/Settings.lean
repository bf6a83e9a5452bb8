/-
Module: Permit.Settings
Layer: Data
Purpose: Action aliases and the message of a denial. An alias stands for other actions and may
  name further aliases; the actions of a rule are expanded through them once, when the rule joins
  a policy. Valid settings keep the wildcard action out of reach of aliases.
Main exports: manage, everySubject, Settings, Settings.fault?, Settings.withAlias,
  Settings.expandActions, SettingsFault
-/
import Permit.Entries
import Permit.Text

namespace Permit

/-- The action that stands for every action. -/
def manage : String := "manage"

/-- The subject type that stands for every subject type. -/
def everySubject : String := "all"

/-- Why settings are refused. -/
inductive SettingsFault where
  /-- The wildcard action is declared as an alias. -/
  | reservedAlias
  /-- An alias targets the wildcard action or itself. -/
  | forbiddenTarget (name target : String)
  /-- The text is not JSON, or not the JSON of settings. -/
  | unreadable
  /-- Any other reason, in words. -/
  | other (message : String)
deriving DecidableEq, Repr

/-- The reason in words. -/
def SettingsFault.message : SettingsFault → String
  | .reservedAlias => Quoted.quote manage ++ " is reserved and cannot be an alias"
  | .forbiddenTarget name target =>
      "alias " ++ Quoted.quote name ++ " cannot target " ++ Quoted.quote target
  | .unreadable => "the text does not hold settings"
  | .other message => message

/-- Settings that the rules of a policy share. -/
structure Settings where
  /-- Each alias with the actions it stands for. -/
  aliases : Entries (List String)
  /-- What a denial says. -/
  unauthorizedMessage : String
deriving DecidableEq, Repr

namespace Settings

/-- Settings where nothing else is said. -/
def standard : Settings where
  aliases := [("read", ["index", "show"]), ("create", ["new"]), ("update", ["edit"])]
  unauthorizedMessage := "You are not authorized to access this page."

instance : Inhabited Settings := ⟨standard⟩

/-- The same aliases, in any order, and the same message. -/
def same (left right : Settings) : Bool :=
  Entries.sameBy (· == ·) left.aliases right.aliases &&
    left.unauthorizedMessage == right.unauthorizedMessage

/-!
### Validity
-/

/-- The fault of one alias: its name first, then its targets in order. -/
def aliasFault? (name : String) (targets : List String) : Option SettingsFault :=
  if name = manage then some .reservedAlias
  else (targets.find? (fun target => target == manage || target == name)).map
    (.forbiddenTarget name)

/-- The first fault in the order of the aliases. -/
def fault? (settings : Settings) : Option SettingsFault :=
  settings.aliases.findSome? (fun entry => aliasFault? entry.1 entry.2)

/-- The settings, unless they have a fault. -/
def checked (settings : Settings) : Except SettingsFault Settings :=
  match settings.fault? with
  | some fault => .error fault
  | none => .ok settings

/-- A check hands back the settings themselves, and does so where they have no fault. -/
theorem checked_eq_ok_iff {candidate settings : Settings} :
    candidate.checked = .ok settings ↔ candidate = settings ∧ settings.fault? = none := by
  unfold checked
  cases found : candidate.fault? with
  | some fault =>
      refine ⟨nofun, ?_⟩
      rintro ⟨rfl, faultless⟩
      cases found.symm.trans faultless
  | none =>
      refine ⟨?_, ?_⟩
      · rintro ⟨⟩
        exact ⟨rfl, found⟩
      · rintro ⟨rfl, _⟩
        rfl

/-- A check fails with the first fault of the settings. -/
theorem checked_eq_error_iff {settings : Settings} {fault : SettingsFault} :
    settings.checked = .error fault ↔ settings.fault? = some fault := by
  unfold checked
  cases settings.fault? <;> simp

/-- Declare an alias without looking at it, in place of an earlier one of the same name. -/
def declareAlias (settings : Settings) (name : String) (targets : List String) : Settings :=
  { settings with aliases := settings.aliases.put name targets }

/-- Declare an alias, in place of an earlier one of the same name, and check the whole. -/
def withAlias (settings : Settings) (name : String) (targets : List String) :
    Except SettingsFault Settings :=
  (settings.declareAlias name targets).checked

/-!
### Expansion
-/

/-- Put a name last, unless it is there. -/
def addLast (names : List String) (name : String) : List String :=
  if name ∈ names then names else names ++ [name]

/-- Take the pending actions one after another into the expanded ones. An alias that is taken for
    the first time puts its targets in front of what is pending, the last target foremost. Each
    alias is opened once, so the aliases still closed and the pending actions bound the work. -/
def expandFrom (closed : Entries (List String)) (pending expanded : List String) : List String :=
  match pending with
  | [] => expanded
  | action :: rest =>
      match _found : closed.get? action with
      | some targets =>
          expandFrom (closed.erase action) (targets.reverse ++ rest) (addLast expanded action)
      | none => expandFrom closed rest (addLast expanded action)
termination_by (closed.length, pending.length)
decreasing_by
  · exact Prod.Lex.left _ _ (Entries.length_erase_lt _found)
  · exact Prod.Lex.right _ (Nat.lt_succ_self _)

/-- What one turn of the expansion does: it opens an alias, or takes an action as it is. -/
theorem expandFrom_cons (closed : Entries (List String)) (action : String)
    (rest expanded : List String) :
    expandFrom closed (action :: rest) expanded =
      match closed.get? action with
      | some targets =>
          expandFrom (closed.erase action) (targets.reverse ++ rest) (addLast expanded action)
      | none => expandFrom closed rest (addLast expanded action) := by
  rw [expandFrom]
  split <;> rename_i found <;> rw [found]

/-- The actions together with every action that aliases reach from them, the last action first. -/
def expandActions (settings : Settings) (actions : List String) : List String :=
  expandFrom settings.aliases actions.reverse []

end Settings

end Permit
