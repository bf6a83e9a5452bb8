/-
Module: Permit.Proofs.Settings.RoundTrip
Layer: Proofs
Purpose: The JSON text of settings holds the settings, aliases and targets in their order. So
  reading it back does what a check of the settings does: valid settings are returned, and the
  others are refused for the fault that they have. What is read from a text has unique aliases and
  no fault, whatever the text left out or repeated.
Main exports: Settings.ofJson?_toJson, Settings.unique_aliases_of_ofJson?, Settings.ofText_toText,
  Settings.unique_and_faultless_of_ofText, Settings.text_form_as_valid_as_settings
-/
import Permit.Json.Forms
import Permit.Proofs.Json.Documents

namespace Permit.Settings

/-!
### Writing
-/

/-- Targets are texts, and every text can be read back. -/
theorem usable_targets (targets : List String) :
    (Json.array (targets.map Json.string)).Usable :=
  Json.usableItems_iff.mpr (List.forall_mem_map.mpr (fun _ _ => trivial))

/-- A document of settings holds nothing that a reader cannot use. -/
theorem usable_toJson (settings : Settings) : settings.toJson.Usable :=
  ⟨Json.usableMembers_iff.mpr (List.forall_mem_map.mpr (fun entry _ => usable_targets entry.2)),
    trivial, trivial⟩

/-!
### Reading back
-/

/-- One alias is read back from its member. -/
theorem aliasOfMember?_targets (entry : String × List String) :
    aliasOfMember? (entry.1, .array (entry.2.map Json.string)) = some entry := by
  have kept : ∀ target, Json.text? (.string target) = some target := fun _ => rfl
  rw [aliasOfMember?, Json.texts?, Json.mapM_map_eq_some kept, Option.map_some]

/-- A reader that puts one alias after another in their place finds them in the order in which
    they were written, since none comes twice. -/
theorem aliases?_written {aliases : Entries (List String)} (unique : aliases.Unique) :
    aliases? (.object (aliases.map (fun entry =>
      (entry.1, .array (entry.2.map Json.string))))) = some aliases := by
  rw [aliases?, Json.mapM_map_eq_some aliasOfMember?_targets, Option.map_some, unique.ofList_eq]

/-- Settings are read back from their document where no alias is declared twice. The reader keeps
    the last of two aliases of one name, so the hypothesis cannot be dropped. -/
theorem ofJson?_toJson {settings : Settings} (unique : settings.aliases.Unique) :
    ofJson? settings.toJson = some settings := by
  have fields : settings.toJson.fields? ["aliases", "unauthorized_message"] =
      some [some (.object (settings.aliases.map (fun entry =>
          (entry.1, .array (entry.2.map Json.string))))),
        some (.string settings.unauthorizedMessage)] := rfl
  rw [ofJson?, fields]
  simp only [fieldOr, aliases?_written unique, Json.text?]

/-- Settings are read back from their text before they are checked, valid or not. -/
theorem read?_toText {settings : Settings} (unique : settings.aliases.Unique) :
    read? settings.toText = some settings := by
  rw [read?, toText, Json.ofText?_toText settings.usable_toJson, Option.bind_some,
    ofJson?_toJson unique]

/-- The text of settings is read as the settings are checked, with the same fault if any. -/
theorem ofText_toText {settings : Settings} (unique : settings.aliases.Unique) :
    ofText settings.toText = settings.checked := by
  rw [ofText, read?_toText unique]

/-!
### What is read
-/

/-- Whatever an object of aliases repeats, what is read of it has unique names. -/
theorem unique_of_aliases? {document : Json} {aliases : Entries (List String)}
    (read : aliases? document = some aliases) : aliases.Unique := by
  cases document with
  | object members =>
      rw [aliases?, Option.map_eq_some_iff] at read
      obtain ⟨pairs, _, rfl⟩ := read
      exact Entries.unique_ofList pairs
  | _ => cases read

/-- The aliases have unique names as well where the field is missing and the standard ones
    stand in. -/
theorem unique_of_fieldOr_aliases? {field : Option Json} {aliases : Entries (List String)}
    (read : fieldOr standard.aliases aliases? field = some aliases) : aliases.Unique := by
  cases field with
  | none =>
      cases read
      decide
  | some document => exact unique_of_aliases? read

/-- Whatever is read, an object that repeats an alias and a document without aliases included, has
    unique aliases. -/
theorem unique_aliases_of_ofJson? {document : Json} {settings : Settings}
    (read : ofJson? document = some settings) : settings.aliases.Unique := by
  rw [ofJson?] at read
  split at read
  · split at read
    · next aliases message found _ =>
        cases read
        exact unique_of_fieldOr_aliases? found
    · cases read
  · cases read

/-- Settings that a text holds have unique aliases and no fault. -/
theorem unique_and_faultless_of_ofText {text : String} {settings : Settings}
    (accepted : ofText text = .ok settings) :
    settings.aliases.Unique ∧ settings.fault? = none := by
  rw [ofText] at accepted
  split at accepted
  · cases accepted
  · next candidate read =>
      obtain ⟨rfl, faultless⟩ := checked_eq_ok_iff.mp accepted
      obtain ⟨document, _, held⟩ := Option.bind_eq_some_iff.mp read
      exact ⟨unique_aliases_of_ofJson? held, faultless⟩

/-- The JSON text of settings is as valid as the settings. Settings without a fault are read back
    as they were, aliases, targets and message, and settings with a fault are refused for their
    first fault. What was read from any text has no fault and is read again from its own text. -/
theorem text_form_as_valid_as_settings :
    (∀ settings : Settings, settings.aliases.Unique →
      (settings.fault? = none → ofText settings.toText = .ok settings) ∧
      ∀ fault, settings.fault? = some fault → ofText settings.toText = .error fault) ∧
    ∀ (text : String) (settings : Settings), ofText text = .ok settings →
      settings.fault? = none ∧ ofText settings.toText = .ok settings := by
  have kept : ∀ settings : Settings, settings.aliases.Unique → settings.fault? = none →
      ofText settings.toText = .ok settings := by
    intro settings unique faultless
    rw [ofText_toText unique]
    exact checked_eq_ok_iff.mpr ⟨rfl, faultless⟩
  refine ⟨fun settings unique => ⟨kept settings unique, fun fault found => ?_⟩, ?_⟩
  · rw [ofText_toText unique]
    exact checked_eq_error_iff.mpr found
  · intro text settings accepted
    obtain ⟨unique, faultless⟩ := unique_and_faultless_of_ofText accepted
    exact ⟨faultless, kept settings unique faultless⟩

namespace Gazette

/-- Valid settings with strings that have to be escaped, aliases that lead to each other, aliases
    without targets and no message. -/
def unruly : Settings where
  aliases := [("print \"\\\n\u0001\" é𝄞", ["", "", "\t/\u007f"]), ("", ["post"]), ("post", [""]),
    ("Manage", []), ("all", [])]
  unauthorizedMessage := ""

/-- A target that is the alias itself stands before a target and an alias that are reserved. -/
def faulty : Settings where
  aliases := [("read", ["show"]), ("post", ["mail", "post", "manage"]), ("manage", [])]
  unauthorizedMessage := "Not now."

/-- A text with blanks, an unknown field, an escape, a repeated alias and no message. -/
def text : String :=
  "\x7b \"pages\" : 1 , \"aliases\" : \x7b \"post\" : [ \"mail\" ] , \"p\\u006fst\" : [ ] \x7d \x7d"

def document : Json :=
  .object [("pages", .integer 1),
    ("aliases", .object [("post", .array [.string "mail"]), ("post", .array [])])]

def held : Settings where
  aliases := [("post", [])]
  unauthorizedMessage := standard.unauthorizedMessage

end Gazette

/-- The strings and lists that are easily lost, two faults of which the first is told, and a text
    that is shorter and longer than what it holds. -/
theorem gazette_texts :
    ofText Gazette.unruly.toText = .ok Gazette.unruly ∧
    ofText Gazette.faulty.toText = .error (.forbiddenTarget "post" "post") ∧
    ofText Gazette.text = .ok Gazette.held ∧
    Gazette.held.fault? = none ∧
    ofText Gazette.held.toText = .ok Gazette.held := by
  have parsed : Json.ofText? Gazette.text = some Gazette.document := by
    rw [Gazette.text, Json.ofText?, String.toList_ofList]
    rfl
  have decoded : ofJson? Gazette.document = some Gazette.held := rfl
  have read : ofText Gazette.text = .ok Gazette.held := by
    rw [ofText, read?, parsed, Option.bind_some, decoded]
    rfl
  refine ⟨?_, ?_, read, text_form_as_valid_as_settings.2 _ _ read⟩
  · exact (text_form_as_valid_as_settings.1 Gazette.unruly (by decide)).1 (by decide)
  · exact (text_form_as_valid_as_settings.1 Gazette.faulty (by decide)).2 _ (by decide)

end Permit.Settings
