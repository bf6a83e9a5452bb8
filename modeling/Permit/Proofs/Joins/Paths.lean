/-
Module: Permit.Proofs.Joins.Paths
Layer: Proofs
Purpose: A forest of joins read as the set of its paths. Merging forests loses no path of either,
  the joins of conditions hold every path that the conditions follow, and conditions are covered
  exactly where all the paths they follow are there. A query's own joins therefore cover every
  leaf of the query.
Main exports: Joins.Reaches, Joins.reaches_merge_left, Joins.reaches_merge_right,
  Conditions.Follows, Conditions.coveredBy_iff, Joins.reaches_ofConditions, Joins.mergeLeaves,
  Query.joins_cover
-/
import Permit.Query

namespace Permit

namespace Joins

/-- Following the names one after another stays inside the forest. -/
def Reaches (joins : Joins) (path : List String) : Prop := (joins.follow? path).isSome = true

theorem reaches_nil (joins : Joins) : joins.Reaches [] := rfl

/-- A path starts with a name of the forest and goes on in the tree under it. -/
theorem reaches_cons {joins : Joins} {name : String} {path : List String} :
    joins.Reaches (name :: path) ↔
      ∃ nested, joins.get? name = some nested ∧ nested.Reaches path := by
  simp only [Reaches, follow?]
  cases joins.get? name <;> simp

/-- Putting joins under a name shows under that name and nowhere else. -/
theorem get?_put (joins : Joins) (name other : String) (nested : Joins) :
    (joins.put name nested).get? other = if name = other then some nested else joins.get? other :=
  Entries.get?_put joins.children name other nested

/-- The first name of a path selects where the rest of the path is looked for. -/
theorem reaches_join_cons {joins nested : Joins} {name other : String} {path : List String} :
    (joins.join name nested).Reaches (other :: path) ↔
      if name = other then (((joins.get? name).getD empty).merge nested).Reaches path
      else joins.Reaches (other :: path) := by
  rw [reaches_cons, join, get?_put]
  split <;> simp [reaches_cons]

/-!
### Merging

Both facts go by mutual induction on the forest that is merged in and on the list of its trees.
-/

mutual

/-- Merging keeps the paths of the forest that is merged into. -/
theorem reaches_merge_left : ∀ {left right : Joins} {path : List String},
    left.Reaches path → (left.merge right).Reaches path
  | _, ⟨_⟩, _, reached => by
      rw [merge]
      exact reaches_mergeAll_left reached

/-- Merging trees keeps the paths of the forest that they are merged into. -/
theorem reaches_mergeAll_left : ∀ {left : Joins} {children : List (String × Joins)}
    {path : List String}, left.Reaches path → (left.mergeAll children).Reaches path
  | _, [], _, reached => by
      rw [mergeAll]
      exact reached
  | left, (name, nested) :: rest, path, reached => by
      rw [mergeAll_cons]
      apply reaches_mergeAll_left
      cases path with
      | nil => exact reaches_nil _
      | cons other path =>
          rw [reaches_join_cons]
          split
          · next same =>
              subst same
              obtain ⟨old, found, below⟩ := reaches_cons.mp reached
              rw [found, Option.getD_some]
              exact reaches_merge_left below
          · exact reached

end

mutual

/-- Merging adds the paths of the forest that is merged in. -/
theorem reaches_merge_right : ∀ {left right : Joins} {path : List String},
    right.Reaches path → (left.merge right).Reaches path
  | _, ⟨_⟩, _, reached => by
      rw [merge]
      exact reaches_mergeAll_right reached

/-- Merging trees adds their paths. -/
theorem reaches_mergeAll_right : ∀ {left : Joins} {children : List (String × Joins)}
    {path : List String}, Reaches ⟨children⟩ path → (left.mergeAll children).Reaches path
  | left, _, [], _ => reaches_nil _
  | left, [], other :: path, reached => by
      obtain ⟨_, found, _⟩ := reaches_cons.mp reached
      cases found
  | left, (name, nested) :: rest, other :: path, reached => by
      rw [mergeAll_cons]
      obtain ⟨below, found, reachedBelow⟩ := reaches_cons.mp reached
      by_cases same : name = other
      · have first : nested = below := by simpa [get?_cons, same] using found
        apply reaches_mergeAll_left
        rw [reaches_join_cons, if_pos same]
        exact reaches_merge_right (first ▸ reachedBelow)
      · have later : get? ⟨rest⟩ other = some below := by
          simpa [get?_cons, same] using found
        exact reaches_mergeAll_right (reaches_cons.mpr ⟨below, later, reachedBelow⟩)

end

/-- Joining a name keeps every path. -/
theorem reaches_join {joins nested : Joins} {name : String} {path : List String}
    (reached : joins.Reaches path) : (joins.join name nested).Reaches path := by
  have merged : (joins.mergeAll [(name, nested)]).Reaches path := reaches_mergeAll_left reached
  rwa [mergeAll_cons, mergeAll] at merged

/-- Joining a name adds the paths nested under it. -/
theorem reaches_join_nested {joins nested : Joins} {name : String} {path : List String}
    (reached : nested.Reaches path) : (joins.join name nested).Reaches (name :: path) := by
  rw [reaches_join_cons, if_pos rfl]
  exact reaches_merge_right reached

end Joins

/-!
### Conditions
-/

/-- Conditions ask for nested conditions under each name of a path, one inside the other. -/
def Conditions.Follows (conditions : Conditions) : List String → Prop
  | [] => True
  | name :: path =>
      ∃ nested, (name, Condition.nested nested) ∈ conditions ∧ Conditions.Follows nested path

/-- The joins of one more condition keep every path. -/
theorem Condition.reaches_addJoins {joins : Joins} {path : List String} (name : String)
    (condition : Condition) (reached : joins.Reaches path) :
    (condition.addJoins name joins).Reaches path := by
  cases condition with
  | equals => exact reached
  | anyOf => exact reached
  | nested conditions => exact Joins.reaches_join reached

/-- The joins of more conditions keep every path. -/
theorem Conditions.reaches_addJoins {joins : Joins} {path : List String} (conditions : Conditions)
    (reached : joins.Reaches path) : (Conditions.addJoins joins conditions).Reaches path := by
  induction conditions generalizing joins with
  | nil => exact reached
  | cons entry rest ih => exact ih (Condition.reaches_addJoins entry.1 entry.2 reached)

/-- A nested condition puts the joins of its own conditions under its name. -/
theorem Conditions.reaches_addJoins_of_mem {joins : Joins} {name : String} {path : List String}
    {conditions nested : Conditions} (member : (name, Condition.nested nested) ∈ conditions)
    (below : (Joins.ofConditions nested).Reaches path) :
    (Conditions.addJoins joins conditions).Reaches (name :: path) := by
  induction conditions generalizing joins with
  | nil => cases member
  | cons entry rest ih =>
      rw [Conditions.addJoins]
      rcases List.mem_cons.mp member with rfl | later
      · exact Conditions.reaches_addJoins rest (Joins.reaches_join_nested below)
      · exact ih later

/-- The joins of conditions hold every path that the conditions follow. -/
theorem Joins.reaches_ofConditions {conditions : Conditions} {path : List String}
    (follows : conditions.Follows path) : (Joins.ofConditions conditions).Reaches path := by
  induction path generalizing conditions with
  | nil => exact Joins.reaches_nil _
  | cons name path ih =>
      obtain ⟨nested, member, below⟩ := follows
      exact Conditions.reaches_addJoins_of_mem member (ih below)

mutual

/-- A condition is covered where the paths it follows from its name are there. -/
theorem Condition.coveredAt_of_reaches {name : String} {joins : Joins} :
    ∀ {condition : Condition},
      (∀ nested path, condition = .nested nested → Conditions.Follows nested path →
        joins.Reaches (name :: path)) →
      condition.coveredAt name joins = true
  | .equals _, _ => rfl
  | .anyOf _, _ => rfl
  | .nested conditions, reached => by
      obtain ⟨below, found, _⟩ := Joins.reaches_cons.mp (reached conditions [] rfl trivial)
      rw [Condition.coveredAt, found]
      apply Conditions.coveredBy_of_reaches
      intro path follows
      obtain ⟨other, foundOther, reachedOther⟩ :=
        Joins.reaches_cons.mp (reached conditions path rfl follows)
      rw [found, Option.some.injEq] at foundOther
      exact foundOther ▸ reachedOther

/-- Conditions are covered where all the paths they follow are there. -/
theorem Conditions.coveredBy_of_reaches {joins : Joins} :
    ∀ {conditions : Conditions}, (∀ path, conditions.Follows path → joins.Reaches path) →
      Conditions.coveredBy joins conditions = true
  | [], _ => rfl
  | (name, condition) :: rest, reached => by
      rw [Conditions.coveredBy, Bool.and_eq_true]
      constructor
      · apply Condition.coveredAt_of_reaches
        rintro nested path rfl follows
        exact reached (name :: path) ⟨nested, List.mem_cons_self, follows⟩
      · apply Conditions.coveredBy_of_reaches
        intro path follows
        cases path with
        | nil => exact Joins.reaches_nil _
        | cons other path =>
            obtain ⟨nested, member, below⟩ := follows
            exact reached (other :: path) ⟨nested, List.mem_cons_of_mem _ member, below⟩

end

/-- Where conditions are covered the paths they follow are there. -/
theorem Conditions.reaches_of_coveredBy {joins : Joins} {conditions : Conditions}
    {path : List String} (covered : Conditions.coveredBy joins conditions = true)
    (follows : conditions.Follows path) : joins.Reaches path := by
  induction path generalizing joins conditions with
  | nil => exact Joins.reaches_nil joins
  | cons name path ih =>
      obtain ⟨nested, member, onward⟩ := follows
      have each : joins.covers conditions = true := covered
      rw [Joins.covers_eq_all, List.all_eq_true] at each
      have coveredHere := each _ member
      rw [Condition.coveredAt] at coveredHere
      split at coveredHere
      · next below found => exact Joins.reaches_cons.mpr ⟨below, found, ih coveredHere onward⟩
      · cases coveredHere

/-- Conditions are covered exactly where all the paths they follow are there. -/
theorem Conditions.coveredBy_iff {joins : Joins} {conditions : Conditions} :
    Conditions.coveredBy joins conditions = true ↔
      ∀ path, conditions.Follows path → joins.Reaches path := by
  constructor
  · exact fun covered path follows => Conditions.reaches_of_coveredBy covered follows
  · exact Conditions.coveredBy_of_reaches

/-!
### Queries
-/

/-- A forest with the joins of leaves merged in, one leaf after another. -/
def Joins.mergeLeaves (start : Joins) (leaves : List Conditions) : Joins :=
  leaves.foldl (fun joins leaf => joins.merge (Joins.ofConditions leaf)) start

theorem Joins.mergeLeaves_cons (start : Joins) (leaf : Conditions) (rest : List Conditions) :
    start.mergeLeaves (leaf :: rest) = (start.merge (Joins.ofConditions leaf)).mergeLeaves rest :=
  rfl

/-- A query joins what its leaves need, the leaves from left to right. -/
theorem Query.joins_eq_mergeLeaves (query : Query) :
    query.joins = Joins.empty.mergeLeaves query.hashLeaves :=
  rfl

/-- Merging the joins of leaves one after another keeps what was there. -/
theorem Joins.reaches_mergeLeaves {start : Joins} {leaves : List Conditions} {path : List String}
    (reached : start.Reaches path) : (start.mergeLeaves leaves).Reaches path := by
  induction leaves generalizing start with
  | nil => exact reached
  | cons leaf rest ih => exact ih (Joins.reaches_merge_left reached)

/-- Merging the joins of leaves one after another adds the paths that each leaf follows. -/
theorem Joins.reaches_mergeLeaves_of_mem {start : Joins} {leaves : List Conditions}
    {leaf : Conditions} {path : List String} (member : leaf ∈ leaves)
    (follows : leaf.Follows path) : (start.mergeLeaves leaves).Reaches path := by
  induction leaves generalizing start with
  | nil => cases member
  | cons other rest ih =>
      rw [Joins.mergeLeaves_cons]
      rcases List.mem_cons.mp member with rfl | later
      · apply Joins.reaches_mergeLeaves
        exact Joins.reaches_merge_right (Joins.reaches_ofConditions follows)
      · exact ih later

/-- The joins of a query cover each of its leaves. -/
theorem Query.joins_cover {query : Query} {leaf : Conditions} (member : leaf ∈ query.hashLeaves) :
    query.joins.covers leaf = true :=
  Conditions.coveredBy_of_reaches (fun _ follows => Joins.reaches_mergeLeaves_of_mem member follows)

end Permit
