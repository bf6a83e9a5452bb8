/-
Module: Permit.MemoryStore
Layer: Stores
Purpose: A store of records in memory. Fragments and scopes mean what has been registered for
  their text or name. A query is refused when its conditions follow associations that are not
  joined; otherwise it is evaluated record by record, and an operand that cannot matter is not
  looked at.
Main exports: MemoryStore, MemoryStore.evaluate, MemoryStore.find, MemoryStore.select,
  MemoryStore.inspect
-/
import Permit.Policy
import Permit.Record

namespace Permit

/-- Records in the order in which they came, and the meaning of fragments and scopes. -/
structure MemoryStore where
  records : List Record
  fragments : Entries (Record → List Value → Bool)
  scopes : Entries (Record → Bool)

namespace MemoryStore

/-- A store without records. -/
def empty : MemoryStore := ⟨[], [], []⟩

/-- Add a record after the others. -/
def insert (store : MemoryStore) (record : Record) : MemoryStore :=
  { store with records := store.records ++ [record] }

/-- Register what fragments with this text mean, in place of an earlier meaning. -/
def withFragment (store : MemoryStore) (text : String)
    (meaning : Record → List Value → Bool) : MemoryStore :=
  { store with fragments := store.fragments.put text meaning }

/-- Register what the scope with this name means, in place of an earlier meaning. -/
def withScope (store : MemoryStore) (name : String) (meaning : Record → Bool) : MemoryStore :=
  { store with scopes := store.scopes.put name meaning }

/-- Whether a query selects a record. The right operand is evaluated only where it decides. -/
def evaluate (store : MemoryStore) (record : Record) : Query → Except StoreFault Bool
  | .always => .ok true
  | .never => .ok false
  | .not query => (store.evaluate record query).map Bool.not
  | .and left right =>
      match store.evaluate record left with
      | .error fault => .error fault
      | .ok false => .ok false
      | .ok true => store.evaluate record right
  | .or left right =>
      match store.evaluate record left with
      | .error fault => .error fault
      | .ok true => .ok true
      | .ok false => store.evaluate record right
  | .hash conditions => .ok (conditions.holdFor record)
  | .fragment predicate =>
      match store.fragments.get? predicate.text with
      | some meaning => .ok (meaning record predicate.parameters)
      | none => .error (.unknownFragment predicate.text)
  | .scope named =>
      match store.scopes.get? named.name with
      | some meaning => .ok (meaning record)
      | none => .error (.unknownScope named.name)

/-- The records that a query selects from a list, or the first fault on the way. -/
def keep (store : MemoryStore) (query : Query) : List Record → Except StoreFault (List Record)
  | [] => .ok []
  | record :: rest =>
      match store.evaluate record query with
      | .error fault => .error fault
      | .ok selected =>
          (store.keep query rest).map (fun kept => if selected then record :: kept else kept)

/-- The records of a subject type. -/
def ofType (store : MemoryStore) (subject : String) : List Record :=
  store.records.filter (fun record => record.subjectType == subject)

/-- The first record of a subject type with an identifier. -/
def find (store : MemoryStore) (subject : String) (id : Value) : Option Record :=
  (store.ofType subject).find? (fun record => record.id == id)

/-- The records of a subject type that a query selects, if its associations are joined. -/
def select (store : MemoryStore) (subject : String) (query : Query) (joins : Joins) :
    Except StoreFault (List Record) :=
  match query.hashLeaves.find? (fun leaf => !joins.covers leaf) with
  | some leaf => .error (.missingJoins leaf joins)
  | none => store.keep query (store.ofType subject)

instance : Store MemoryStore Record where
  find store subject id := .ok (store.find subject id)
  select store subject query joins := (store.select subject query joins).mapError Fault.store

/-- A store with its records and the names of its fragments and scopes. -/
def inspect (store : MemoryStore) : String :=
  "MemoryStore \x7b records: " ++ inspectList (store.records.map Record.inspect) ++
    ", fragments: " ++ inspectList (store.fragments.names.map Quoted.quote) ++
    ", scopes: " ++ inspectList (store.scopes.names.map Quoted.quote) ++ " \x7d"

end MemoryStore

end Permit
