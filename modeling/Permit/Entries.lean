/-
Module: Permit.Entries
Layer: Data
Purpose: Values kept under names, in the order in which the names first came. Writing under a
  known name replaces the value and keeps the place; a new name comes last. The lemmas say what
  each operation does to look-up and to the list of names, and what unique names give.
Main exports: Entries, Entries.get?, Entries.put, Entries.ofList, Entries.erase, Entries.Unique,
  Entries.sameBy, get?_eq_some_iff, get?_put, mem_names_iff, names_put, exists_split_of_get?,
  Unique.put, Unique.get?_of_mem, Unique.foldl_put, Unique.ofList_eq, Unique.ext
-/

namespace Permit

/-- Values under names, in the order in which the names first came. -/
abbrev Entries (α : Type) := List (String × α)

namespace Entries

variable {α : Type}

/-- The names in order. -/
def names (entries : Entries α) : List String := entries.map Prod.fst

/-- No name occurs twice. -/
def Unique (entries : Entries α) : Prop := entries.names.Nodup

instance (entries : Entries α) : Decidable entries.Unique :=
  inferInstanceAs (Decidable entries.names.Nodup)

/-- The value under a name, that of the first entry if the name is repeated. -/
def get? (entries : Entries α) (name : String) : Option α := entries.lookup name

/-- Write under a name: a known name keeps its place, a new one comes last. -/
def put : Entries α → String → α → Entries α
  | [], name, value => [(name, value)]
  | (known, old) :: rest, name, value =>
      if known = name then (known, value) :: rest else (known, old) :: put rest name value

/-- The entries that come from writing a list of pairs one after another. -/
def ofList (pairs : List (String × α)) : Entries α :=
  pairs.foldl (fun entries pair => entries.put pair.1 pair.2) []

/-- All entries but those under a name. -/
def erase (entries : Entries α) (name : String) : Entries α :=
  entries.filter (fun entry => entry.1 != name)

/-- Equality up to order: as many entries on both sides, and equal values under each name. -/
def sameBy (same : α → α → Bool) (left right : Entries α) : Bool :=
  left.length == right.length &&
    left.all (fun entry => (right.get? entry.1).any (same entry.2))

/-!
### Look-up

`get?_nil` and `get?_cons` follow the list, `get?_eq_some_iff` says where the entry stands that is
found.
-/

@[simp] theorem get?_nil (name : String) : get? ([] : Entries α) name = none := rfl

/-- The first entry hides those of the same name behind it. -/
theorem get?_cons (known : String) (value : α) (rest : Entries α) (name : String) :
    get? ((known, value) :: rest) name = if known = name then some value else get? rest name := by
  by_cases same : known = name
  · subst same
    rw [if_pos rfl]
    exact List.lookup_cons_self
  · rw [if_neg same, get?, List.lookup_cons, beq_false_of_ne (Ne.symm same)]
    rfl

/-- An entry is found if no entry before it has its name. -/
theorem get?_eq_some_iff {entries : Entries α} {name : String} {value : α} :
    entries.get? name = some value ↔
      ∃ before after, entries = before ++ (name, value) :: after ∧ name ∉ names before := by
  simp only [get?, List.lookup_eq_some_iff, names, List.mem_map, bne_iff_ne, not_exists, not_and,
    ne_comm]

/-- Look-up finds nothing under a name that no entry has. -/
theorem get?_eq_none_iff {entries : Entries α} {name : String} :
    entries.get? name = none ↔ name ∉ entries.names := by
  simp only [get?, List.lookup_eq_none_iff, names, List.mem_map, bne_iff_ne, not_exists, not_and,
    ne_comm]

/-- What look-up finds is one of the entries. -/
theorem mem_of_get? {entries : Entries α} {name : String} {value : α}
    (found : entries.get? name = some value) : (name, value) ∈ entries := by
  obtain ⟨before, after, rfl, _⟩ := get?_eq_some_iff.mp found
  exact List.mem_append_right before List.mem_cons_self

/-- The names are those under which look-up finds something. -/
theorem mem_names_iff {entries : Entries α} {name : String} :
    name ∈ entries.names ↔ ∃ value, entries.get? name = some value := by
  rw [← Option.isSome_iff_exists, get?, List.lookup_isSome_iff, names, List.mem_map]
  exact exists_congr fun _ => and_congr_right' (eq_comm.trans beq_iff_eq.symm)

/-!
### What writing does

`get?_put` is the law of look-up, `names_put` the law of places.
-/

/-- A write shows under its own name and nowhere else. -/
theorem get?_put (entries : Entries α) (name other : String) (value : α) :
    (entries.put name value).get? other =
      if name = other then some value else entries.get? other := by
  induction entries with
  | nil => simp [put, get?_cons]
  | cons entry rest ih =>
      obtain ⟨known, old⟩ := entry
      by_cases hk : known = name
      · subst hk
        by_cases ho : known = other <;> simp [put, get?_cons, ho]
      · by_cases ho : known = other
        · subst ho
          simp [put, get?_cons, hk, Ne.symm hk]
        · simp [put, get?_cons, hk, ho, ih]

/-- What is there after a write was written or was there before. -/
theorem mem_put {entries : Entries α} {name : String} {value : α} {entry : String × α}
    (member : entry ∈ entries.put name value) : entry = (name, value) ∨ entry ∈ entries := by
  induction entries with
  | nil => exact .inl (List.mem_singleton.mp member)
  | cons first rest ih =>
      obtain ⟨known, old⟩ := first
      rw [put] at member
      split at member
      · next same =>
          rcases List.mem_cons.mp member with rfl | later
          · exact .inl (same ▸ rfl)
          · exact .inr (List.mem_cons_of_mem _ later)
      · rcases List.mem_cons.mp member with rfl | later
        · exact .inr List.mem_cons_self
        · exact (ih later).imp_right (List.mem_cons_of_mem _)

/-- A known name keeps its place and a new one comes last. -/
theorem names_put (entries : Entries α) (name : String) (value : α) :
    (entries.put name value).names =
      if name ∈ entries.names then entries.names else entries.names ++ [name] := by
  induction entries with
  | nil => simp [put, names]
  | cons entry rest ih =>
      obtain ⟨known, old⟩ := entry
      by_cases hk : known = name
      · simp [put, names, hk]
      · have ih' : List.map Prod.fst (put rest name value) =
            if name ∈ List.map Prod.fst rest then List.map Prod.fst rest
            else List.map Prod.fst rest ++ [name] := ih
        simp only [put, hk, if_false, names, List.map_cons, ih', List.mem_cons,
          Ne.symm hk, false_or]
        split <;> simp

/-- A write goes past the entries of other names. -/
theorem put_append_of_not_mem {before : Entries α} {name : String} (new : name ∉ names before)
    (after : Entries α) (value : α) :
    put (before ++ after) name value = before ++ after.put name value := by
  induction before with
  | nil => rfl
  | cons entry rest ih =>
      obtain ⟨known, old⟩ := entry
      have differs : known ≠ name := fun same => new (same ▸ List.mem_cons_self)
      have later : name ∉ names rest := fun member => new (List.mem_cons_of_mem _ member)
      rw [List.cons_append, put, if_neg differs, ih later, List.cons_append]

/-- A new name comes last. -/
theorem put_of_not_mem {entries : Entries α} {name : String} (new : name ∉ entries.names)
    (value : α) : entries.put name value = entries ++ [(name, value)] := by
  have written := put_append_of_not_mem new [] value
  rwa [List.append_nil] at written

/-- A write under a known name replaces its first entry, where it stands. -/
theorem exists_split_of_get? {entries : Entries α} {name : String} {old : α}
    (found : entries.get? name = some old) :
    ∃ before after, entries = before ++ (name, old) :: after ∧
      ∀ value, entries.put name value = before ++ (name, value) :: after := by
  obtain ⟨before, after, rfl, new⟩ := get?_eq_some_iff.mp found
  refine ⟨before, after, rfl, fun value => ?_⟩
  rw [put_append_of_not_mem new, put, if_pos rfl]

/-- Writing keeps names unique. -/
theorem Unique.put {entries : Entries α} (unique : entries.Unique) (name : String) (value : α) :
    (entries.put name value).Unique := by
  unfold Unique at unique ⊢
  rw [names_put]
  split
  · exact unique
  · next absent =>
      rw [List.nodup_append]
      refine ⟨unique, List.pairwise_singleton _ name, ?_⟩
      intro known before new last same
      rw [List.mem_singleton] at last
      exact absent (last ▸ same ▸ before)

/-- Entries that come from writing have unique names. -/
theorem unique_ofList (pairs : List (String × α)) : (ofList pairs).Unique := by
  apply List.foldlRecOn (motive := fun entries : Entries α => entries.Unique) pairs
  · exact List.nodup_nil
  · intro entries unique pair _
    exact unique.put pair.1 pair.2

/-- Writing pairs one after another leaves nothing that is not one of them. -/
theorem mem_of_mem_ofList {pairs : List (String × α)} {entry : String × α}
    (member : entry ∈ ofList pairs) : entry ∈ pairs := by
  revert member
  apply List.foldlRecOn (motive := fun entries => entry ∈ entries → entry ∈ pairs) pairs
  · intro member
    cases member
  · intro entries known pair listed member
    rcases mem_put member with rfl | old
    · exact listed
    · exact known old

/-!
### What erasing does
-/

/-- Nothing is found under an erased name, and everything else as before. -/
theorem get?_erase (entries : Entries α) (name other : String) :
    (entries.erase name).get? other = if name = other then none else entries.get? other := by
  induction entries with
  | nil => simp [erase]
  | cons entry rest ih =>
      obtain ⟨known, value⟩ := entry
      rw [erase] at ih
      by_cases erased : known = name
      · subst erased
        by_cases same : known = other <;> simp_all [erase, get?_cons]
      · by_cases same : known = other
        · subst same
          simp [erase, get?_cons, erased, Ne.symm erased]
        · simp [erase, get?_cons, erased, same, ih]

/-- Looking up a name that is there finds an entry to erase. -/
theorem length_erase_lt {entries : Entries α} {name : String} {value : α}
    (found : entries.get? name = some value) : (entries.erase name).length < entries.length :=
  List.length_filter_lt_length_iff_exists.mpr ⟨_, mem_of_get? found, by simp⟩

/-- Erasing a name that no entry has changes nothing. -/
theorem erase_of_get?_eq_none {entries : Entries α} {name : String}
    (absent : entries.get? name = none) : entries.erase name = entries := by
  refine List.filter_eq_self.mpr fun entry member => ?_
  rw [get?_eq_none_iff] at absent
  exact bne_iff_ne.mpr fun same => absent (same ▸ List.mem_map_of_mem member)

/-!
### Unique names
-/

/-- Where names are unique, no entry before another has its name. -/
theorem Unique.not_mem_names_before {before after : Entries α} {name : String} {value : α}
    (unique : Unique (before ++ (name, value) :: after)) : name ∉ names before := by
  intro earlier
  rw [Unique, names, List.map_append, List.nodup_append] at unique
  exact unique.2.2 name earlier name List.mem_cons_self rfl

/-- Where names are unique, an entry that is there is the one that look-up finds. -/
theorem Unique.get?_of_mem {entries : Entries α} (unique : entries.Unique) {name : String}
    {value : α} (member : (name, value) ∈ entries) : entries.get? name = some value := by
  obtain ⟨before, after, rfl⟩ := List.append_of_mem member
  exact get?_eq_some_iff.mpr ⟨before, after, rfl, unique.not_mem_names_before⟩

/-- Entries whose names are new and unique come last, one after another. -/
theorem Unique.foldl_put (start rest : Entries α) (unique : Unique (start ++ rest)) :
    rest.foldl (fun entries pair => entries.put pair.1 pair.2) start = start ++ rest := by
  induction rest generalizing start with
  | nil => exact (List.append_nil start).symm
  | cons pair rest ih =>
      have new : pair.1 ∉ names start := unique.not_mem_names_before
      rw [List.append_cons] at unique ⊢
      rw [List.foldl_cons, put_of_not_mem new, ih _ unique]

/-- Writing entries of unique names one after another gives them back as they are. -/
theorem Unique.ofList_eq {entries : Entries α} (unique : entries.Unique) :
    ofList entries = entries :=
  Unique.foldl_put [] entries unique

/-- Entries of unique names are known from their names in order and from what is under each. -/
theorem Unique.ext {entries others : Entries α} (unique : entries.Unique)
    (names : entries.names = others.names)
    (same : ∀ name ∈ entries.names, entries.get? name = others.get? name) : entries = others := by
  induction entries generalizing others with
  | nil => exact (List.map_eq_nil_iff.mp names.symm).symm
  | cons entry rest ih =>
      obtain ⟨known, value⟩ := entry
      cases others with
      | nil => cases names
      | cons other otherRest =>
          obtain ⟨otherKnown, otherValue⟩ := other
          obtain ⟨rfl, restNames⟩ := List.cons.inj names
          obtain ⟨new, restUnique⟩ := List.nodup_cons.mp unique
          have head := same known List.mem_cons_self
          simp only [get?_cons, if_pos, Option.some.injEq] at head
          have tail : rest = otherRest := by
            apply ih restUnique restNames
            intro name member
            have differs : known ≠ name := fun equal => new (equal ▸ member)
            simpa only [get?_cons, if_neg differs] using same name (List.mem_cons_of_mem _ member)
          rw [head, tail]

end Entries

end Permit
