/-
Module: Permit.Proofs.Selection.Retrieval
Layer: Proofs
Purpose: An object that is listed can be opened, and one that can be opened is listed. Under
  transparent rules, loading by identifier finds the first record of the type that bears it and
  hands it out exactly where the listing selects the position at which it stands.
Main exports: MemoryStore.FirstBearing, MemoryStore.find_eq_some_iff, MemoryStore.find_eq_none_iff,
  MemoryStore.mem_positions_iff, Policy.load_of_find, Policy.loading_agrees_with_listing
-/
import Permit.Proofs.Selection.Loading

namespace Permit

namespace MemoryStore

variable {store : MemoryStore} {subject : String} {id : Value} {record : Record} {position : Nat}

/-!
### Looking up
-/

/-- The record is of the type and bears the identifier. -/
def Bears (subject : String) (id : Value) (record : Record) : Prop :=
  record.subjectType = subject ∧ record.id = id

/-- The record at the position is the first of the type that bears the identifier. -/
structure FirstBearing (store : MemoryStore) (subject : String) (id : Value) (position : Nat)
    (record : Record) : Prop where
  stands : store.records[position]? = some record
  bears : Bears subject id record
  first : ∀ earlier < position, ∀ other, store.records[earlier]? = some other →
    ¬ Bears subject id other

/-- A look-up finds the first record of the type and the identifier. -/
theorem find_eq_find? (store : MemoryStore) (subject : String) (id : Value) :
    store.find subject id =
      store.records.find? (fun record => record.subjectType == subject && record.id == id) := by
  simp only [find, ofType, List.find?_filter, Bool.decide_and, Bool.decide_eq_true]

/-- A look-up finds the first record that bears the identifier. -/
theorem find_eq_some_iff :
    store.find subject id = some record ↔
      ∃ position, store.FirstBearing subject id position record := by
  rw [find_eq_find?, List.find?_eq_some_iff_getElem]
  constructor
  · rintro ⟨bears, position, bound, stands, first⟩
    refine ⟨position, ?_, ?_, ?_⟩
    · exact List.getElem?_eq_some_iff.mpr ⟨bound, stands⟩
    · simpa [Bears] using bears
    · intro earlier before other stored
      obtain ⟨earlierBound, rfl⟩ := List.getElem?_eq_some_iff.mp stored
      simpa [Bears, imp_iff_not_or] using first earlier before
  · rintro ⟨position, stands, bears, first⟩
    obtain ⟨bound, same⟩ := List.getElem?_eq_some_iff.mp stands
    refine ⟨by simpa [Bears] using bears, position, bound, same, ?_⟩
    intro earlier before
    have absent := first earlier before _
      (List.getElem?_eq_getElem (Nat.lt_trans before bound))
    simpa [Bears, imp_iff_not_or] using absent

/-- A look-up finds nothing where no record bears the identifier. -/
theorem find_eq_none_iff :
    store.find subject id = none ↔ ∀ record ∈ store.records, ¬ Bears subject id record := by
  rw [find_eq_find?, List.find?_eq_none]
  simp [Bears]

/-- A position is selected where the record at it is. -/
theorem mem_positions_iff {query : Query} (stands : store.records[position]? = some record) :
    position ∈ store.positions subject query ↔
      record.subjectType = subject ∧ store.selects record query = true := by
  simp only [positions, List.mem_map, List.mem_filter, Prod.exists, exists_eq_right,
    List.mem_zipIdx_iff_getElem?, picks]
  constructor
  · rintro ⟨other, found, picked⟩
    rw [stands, Option.some.injEq] at found
    subst found
    simpa [and_comm] using picked
  · rintro ⟨type, selected⟩
    exact ⟨record, stands, by simp [type, selected]⟩

/-- Where no identifier occurs twice, a look-up finds all the records of an identifier. -/
theorem filter_eq_toList_find {records : List Record} (unique : (records.map Record.id).Nodup) :
    records.filter (fun record => record.id == id) =
      (records.find? (fun record => record.id == id)).toList := by
  induction records with
  | nil => rfl
  | cons record rest ih =>
      rw [List.map_cons, List.nodup_cons] at unique
      obtain ⟨new, others⟩ := unique
      by_cases bears : record.id = id
      · have absent : rest.filter (fun record => record.id == id) = [] := by
          rw [List.filter_eq_nil_iff]
          intro other member
          have differs : other.id ≠ record.id := fun same => new (same ▸ List.mem_map_of_mem member)
          simpa [bears] using differs
        simp [bears, absent]
      · simp [bears, ih others]

end MemoryStore

namespace Policy

variable {policy : Policy Record} {store : MemoryStore} {action subject : String} {plan : Plan}
  {id : Value}

/-!
### Loading
-/

/-- Loading what is not in the store reports it as not found, whatever the rules say. -/
theorem load_of_find_eq_none (missing : store.find subject id = none) :
    policy.load store action subject id = .error (.notFound subject id.display) := by
  have found : Store.find store subject id = .ok none := congrArg Except.ok missing
  rw [load, found]

/-- What is found is handed out where the query of the rules selects it. -/
theorem load_of_find {record : Record}
    (transparent : ∀ rule ∈ policy.relevant action subject, rule.guard.Transparent)
    (planned : policy.plan action subject = .ok plan)
    (found : store.find subject id = some record) :
    policy.load store action subject id =
      if store.selects record plan.query then .ok record
      else .error (.denied action subject policy.settings.unauthorizedMessage) := by
  obtain ⟨_, first⟩ := MemoryStore.find_eq_some_iff.mp found
  obtain ⟨rfl, _⟩ := first.bears
  have loaded : Store.find store record.subjectType id = .ok (some record) :=
    congrArg Except.ok found
  rw [load, loaded]
  simp only [authorize, can_eq_selects store transparent planned]
  cases store.selects record plan.query <;> rfl

/-- Under transparent rules nothing is reported as not found but what is not in the store. -/
theorem load_eq_notFound_iff
    (transparent : ∀ rule ∈ policy.relevant action subject, rule.guard.Transparent)
    (planned : policy.plan action subject = .ok plan) :
    policy.load store action subject id = .error (.notFound subject id.display) ↔
      store.find subject id = none := by
  constructor
  · intro failed
    cases found : store.find subject id with
    | none => rfl
    | some record =>
        rw [load_of_find transparent planned found] at failed
        split at failed <;> cases failed
  · exact load_of_find_eq_none

/-- What is handed out was found and is selected. -/
theorem load_eq_ok_iff {record : Record}
    (transparent : ∀ rule ∈ policy.relevant action subject, rule.guard.Transparent)
    (planned : policy.plan action subject = .ok plan) :
    policy.load store action subject id = .ok record ↔
      store.find subject id = some record ∧ store.selects record plan.query = true := by
  cases found : store.find subject id with
  | none => simp [load_of_find_eq_none found]
  | some first =>
      rw [load_of_find transparent planned found, Option.some.injEq]
      constructor
      · intro opened
        split at opened
        · next selected =>
            cases opened
            exact ⟨rfl, selected⟩
        · cases opened
      · rintro ⟨rfl, selected⟩
        rw [if_pos selected]

/-- Where no two records of the type share an identifier, the listed records with an identifier are
    the one that a look-up finds, if it is selected. -/
theorem listed_eq_singleton_iff {query : Query} {record : Record}
    (unique : ((store.ofType subject).map Record.id).Nodup) :
    (store.recordsAt (store.positions subject query)).filter (fun other => other.id == id) =
        [record] ↔
      store.find subject id = some record ∧ store.selects record query = true := by
  have listed : (store.recordsAt (store.positions subject query)).filter
        (fun other => other.id == id) =
      ((store.find subject id).filter (fun other => store.selects other query)).toList := by
    rw [MemoryStore.recordsAt_positions, List.filter_filter, Option.toList_filter,
      MemoryStore.find, ← MemoryStore.filter_eq_toList_find unique, List.filter_filter]
    simp only [Bool.and_comm]
  rw [listed, Option.toList_eq_singleton_iff, Option.filter_eq_some_iff]

/-- Listing and loading agree. Nothing is found where no record of the type bears the identifier.
    Otherwise the first that does is handed out if the listing selects its position, and denied with
    the message of the settings if not. Where no two records of the type share an identifier, the
    record that is handed out is the listed one that bears it. -/
theorem loading_agrees_with_listing
    (transparent : ∀ rule ∈ policy.relevant action subject, rule.guard.Transparent)
    (store : MemoryStore) :
    ∃ plan, policy.plan action subject = .ok plan ∧
      policy.accessibleBy store action subject =
        .ok (store.recordsAt (store.positions subject plan.query)) ∧
      ∀ id : Value,
        (policy.load store action subject id = .error (.notFound subject id.display) ↔
          ∀ record ∈ store.records, ¬ MemoryStore.Bears subject id record) ∧
        (∀ position record, store.FirstBearing subject id position record →
          policy.load store action subject id =
            if position ∈ store.positions subject plan.query then .ok record
            else .error (.denied action subject policy.settings.unauthorizedMessage)) ∧
        (((store.ofType subject).map Record.id).Nodup → ∀ record,
          (policy.load store action subject id = .ok record ↔
            (store.recordsAt (store.positions subject plan.query)).filter
              (fun other => other.id == id) = [record])) := by
  obtain ⟨plan, planned⟩ := exists_plan_of_transparent transparent
  refine ⟨plan, planned, accessibleBy_eq_recordsAt transparent planned store, ?_⟩
  intro id
  refine ⟨?_, ?_, ?_⟩
  · rw [load_eq_notFound_iff transparent planned]
    exact MemoryStore.find_eq_none_iff
  · intro position record first
    have found := MemoryStore.find_eq_some_iff.mpr ⟨position, first⟩
    have selected : position ∈ store.positions subject plan.query ↔ _ :=
      MemoryStore.mem_positions_iff first.stands
    rw [load_of_find transparent planned found]
    simp only [selected, first.bears.1, true_and]
  · intro unique record
    rw [load_eq_ok_iff transparent planned, listed_eq_singleton_iff unique]

end Policy

/-!
### A reading room

Two articles bear the same identifier, one of them only since it was set again. The first is closed,
so that loading denies it although the second is listed.
-/

namespace ReadingRoom

def policy : Policy Record where
  rules := [
    Rule.declare .allow ["manage"] ["all"] .unconditional,
    Rule.declare .deny ["read"] ["Article"]
      (.hash [("owner", .nested [("blocked", .equals (.boolean true))])]),
    Rule.declare .allow ["edit"] ["Article"] (.block (fun _ => true)),
    Rule.declare .allow ["read"] ["Article"] (.hash [("id", .anyOf [.integer 1, .null])])]
  settings := { Settings.standard with unauthorizedMessage := "Ask at the desk." }

def blockedOwner : Record := (Record.ofId "User" (.integer 1)).set "blocked" (.boolean true)

def comment : Record := Record.ofId "Comment" (.integer 7)

def closed : Record :=
  (Record.ofId "Article" (.integer 7)).associate "owner" (.many [blockedOwner])

def renumbered : Record := (Record.ofId "Article" (.integer 2)).set "id" (.integer 7)

def shelf : MemoryStore := ⟨[comment, closed, renumbered], [], []⟩

def sortedShelf : MemoryStore := ⟨[comment, renumbered], [], []⟩

theorem closed_first : shelf.FirstBearing "Article" (.integer 7) 1 closed where
  stands := rfl
  bears := ⟨rfl, rfl⟩
  first := by
    intro earlier before other stored
    obtain rfl : earlier = 0 := by omega
    cases stored
    rintro ⟨type, _⟩
    exact absurd type (by decide)

end ReadingRoom

theorem Policy.reading_room_loading :
    (∀ rule ∈ ReadingRoom.policy.relevant "read" "Article", rule.guard.Transparent) ∧
    (∃ plan, ReadingRoom.policy.plan "read" "Article" = .ok plan ∧
      ReadingRoom.shelf.positions "Article" plan.query = [2] ∧
      ReadingRoom.shelf.FirstBearing "Article" (.integer 7) 1 ReadingRoom.closed ∧
      ReadingRoom.policy.load ReadingRoom.shelf "read" "Article" (.integer 7) =
        if 1 ∈ ReadingRoom.shelf.positions "Article" plan.query then .ok ReadingRoom.closed
        else .error (.denied "read" "Article" "Ask at the desk.")) ∧
    ReadingRoom.policy.load ReadingRoom.shelf "read" "Article" (.integer 7) =
      .error (.denied "read" "Article" "Ask at the desk.") ∧
    ((ReadingRoom.sortedShelf.ofType "Article").map Record.id).Nodup ∧
    ReadingRoom.policy.accessibleBy ReadingRoom.sortedShelf "read" "Article" =
      .ok [ReadingRoom.renumbered] ∧
    ReadingRoom.policy.load ReadingRoom.sortedShelf "read" "Article" (.integer 7) =
      .ok ReadingRoom.renumbered ∧
    ∃ listed,
      ReadingRoom.policy.accessibleBy ReadingRoom.sortedShelf "read" "Article" = .ok listed ∧
      (ReadingRoom.policy.load ReadingRoom.sortedShelf "read" "Article" (.integer 7) =
          .ok ReadingRoom.renumbered ↔
        listed.filter (fun other => other.id == .integer 7) = [ReadingRoom.renumbered]) := by
  have transparent : ∀ rule ∈ ReadingRoom.policy.relevant "read" "Article",
      rule.guard.Transparent := by
    have relevant : ReadingRoom.policy.relevant "read" "Article" =
        [ReadingRoom.policy.rules[0], ReadingRoom.policy.rules[1],
          ReadingRoom.policy.rules[3]] := rfl
    rw [relevant]
    intro rule member
    simp only [ReadingRoom.policy, List.mem_cons, List.not_mem_nil, or_false] at member
    rcases member with rfl | rfl | rfl <;> constructor
  have unique : ((ReadingRoom.sortedShelf.ofType "Article").map Record.id).Nodup := by decide
  obtain ⟨plan, planned, _, loads⟩ := loading_agrees_with_listing transparent ReadingRoom.shelf
  obtain ⟨_, _, listed, opens⟩ := loading_agrees_with_listing transparent ReadingRoom.sortedShelf
  have positions : ReadingRoom.shelf.positions "Article" plan.query = [2] := by
    cases planned
    rfl
  exact ⟨transparent,
    ⟨plan, planned, positions, ReadingRoom.closed_first,
      (loads (.integer 7)).2.1 1 ReadingRoom.closed ReadingRoom.closed_first⟩,
    rfl, unique, rfl, rfl, _, listed, (opens (.integer 7)).2.2 unique ReadingRoom.renumbered⟩

end Permit
