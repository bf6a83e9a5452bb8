/-
Module: Permit.Proofs.Joins.Merge
Layer: Proofs
Purpose: Forests in which each name stands once at every level. Merging into such a forest gives
  such a forest, and merging one in adds its paths and no others. So the joins of a query hold the
  paths that its leaves follow, each once, and nothing else.
Main exports: Joins.Distinct, Joins.Distinct.merge, Joins.reaches_merge_iff,
  Joins.reaches_ofConditions_iff, Query.reaches_joins_iff, Query.distinct_joins
-/
import Permit.Proofs.Joins.Paths

namespace Permit

namespace Joins

mutual

/-- No name occurs twice at any level. -/
def Distinct : Joins → Prop
  | ⟨children⟩ => Entries.Unique children ∧ AllDistinct children

/-- No name occurs twice at any level of any of the trees. -/
def AllDistinct : List (String × Joins) → Prop
  | [] => True
  | (_, nested) :: rest => nested.Distinct ∧ AllDistinct rest

end

/-- The recursive definition over trees says the same as a bounded quantifier. -/
theorem allDistinct_iff {children : List (String × Joins)} :
    AllDistinct children ↔ ∀ tree ∈ children, tree.2.Distinct := by
  induction children with
  | nil => simp [AllDistinct]
  | cons tree rest ih => simp [AllDistinct, ih]

/-- A forest repeats no name if its top level does not and no tree does. -/
theorem distinct_iff {joins : Joins} :
    joins.Distinct ↔ Entries.Unique joins.children ∧ ∀ tree ∈ joins.children, tree.2.Distinct := by
  rw [← allDistinct_iff]
  cases joins
  rfl

theorem distinct_empty : empty.Distinct := ⟨List.nodup_nil, trivial⟩

/-- The empty forest has the empty path only. -/
theorem reaches_empty_iff {path : List String} : empty.Reaches path ↔ path = [] := by
  constructor
  · intro reached
    cases path with
    | nil => rfl
    | cons name path =>
        obtain ⟨_, found, _⟩ := reaches_cons.mp reached
        cases found
  · rintro rfl
    exact reaches_nil empty

/-- What is joined under a name, if anything is, holds the paths that start with the name. -/
theorem reaches_of_getD {joins : Joins} {name : String} {path : List String}
    (reached : ((joins.get? name).getD empty).Reaches path) :
    path = [] ∨ joins.Reaches (name :: path) := by
  cases found : joins.get? name with
  | none =>
      rw [found, Option.getD_none] at reached
      exact .inl (reaches_empty_iff.mp reached)
  | some below =>
      rw [found, Option.getD_some] at reached
      exact .inr (reaches_cons.mpr ⟨below, found, reached⟩)

namespace Distinct

variable {joins nested : Joins}

/-- A tree of a forest without repetitions has none either. -/
theorem of_get? {name : String} (distinct : joins.Distinct)
    (found : joins.get? name = some nested) : nested.Distinct :=
  (distinct_iff.mp distinct).2 _ (Entries.mem_of_get? found)

/-- The same holds where the name may be missing, since the empty forest has no repetitions. -/
theorem getD {name : String} (distinct : joins.Distinct) :
    ((joins.get? name).getD empty).Distinct := by
  cases found : joins.get? name with
  | none => exact distinct_empty
  | some below => exact distinct.of_get? found

/-- Replacing a tree, or adding one under a new name, repeats nothing. -/
theorem put (distinct : joins.Distinct) (name : String) (nestedDistinct : nested.Distinct) :
    (joins.put name nested).Distinct := by
  obtain ⟨unique, treesDistinct⟩ := distinct_iff.mp distinct
  refine distinct_iff.mpr ⟨unique.put name nested, ?_⟩
  intro tree member
  rcases Entries.mem_put member with rfl | old
  · exact nestedDistinct
  · exact treesDistinct tree old

end Distinct

/-!
### Merging

What is merged in may repeat names: only the forest that is merged into has to be distinct for the
result to be. For the paths it is the other way round.
-/

mutual

/-- Merging into a distinct forest leaves it distinct. -/
theorem Distinct.merge : ∀ {left right : Joins}, left.Distinct → (left.merge right).Distinct
  | _, ⟨_⟩, distinct => by
      rw [Joins.merge]
      exact Distinct.mergeAll distinct

/-- Merging trees into a distinct forest leaves it distinct. -/
theorem Distinct.mergeAll : ∀ {left : Joins} {children : List (String × Joins)},
    left.Distinct → (left.mergeAll children).Distinct
  | _, [], distinct => by
      rw [Joins.mergeAll]
      exact distinct
  | left, (name, nested) :: rest, distinct => by
      rw [Joins.mergeAll]
      apply Distinct.mergeAll
      apply distinct.put
      exact Distinct.merge distinct.getD

end

/-- Joining a name repeats nothing, because the name is merged with itself if it is there. -/
theorem Distinct.join {joins : Joins} (distinct : joins.Distinct) (name : String)
    (nested : Joins) : (joins.join name nested).Distinct :=
  distinct.put name distinct.getD.merge

mutual

/-- A path of a merged forest is a path of one of the two. -/
theorem reaches_of_merge : ∀ {left right : Joins} {path : List String}, right.Distinct →
    (left.merge right).Reaches path → left.Reaches path ∨ right.Reaches path
  | _, ⟨_⟩, _, distinct, reached => by
      rw [merge] at reached
      exact reaches_of_mergeAll distinct reached

/-- A path of a forest with trees merged in is a path of the forest or of the trees. -/
theorem reaches_of_mergeAll : ∀ {left : Joins} {children : List (String × Joins)}
    {path : List String}, Distinct ⟨children⟩ → (left.mergeAll children).Reaches path →
    left.Reaches path ∨ Reaches ⟨children⟩ path
  | left, _, [], _, _ => .inl (reaches_nil left)
  | left, [], _ :: _, _, reached => by
      rw [mergeAll] at reached
      exact .inl reached
  | left, (name, nested) :: rest, other :: path, ⟨unique, nestedDistinct, restDistinct⟩,
      reached => by
      obtain ⟨fresh, restUnique⟩ := List.nodup_cons.mp unique
      rw [mergeAll_cons] at reached
      rcases reaches_of_mergeAll ⟨restUnique, restDistinct⟩ reached with joined | later
      · rw [reaches_join_cons] at joined
        split at joined
        · next same =>
            subst same
            have head : get? ⟨(name, nested) :: rest⟩ name = some nested := by
              simp [get?_cons]
            rcases reaches_of_merge nestedDistinct joined with old | new
            · rcases reaches_of_getD old with rfl | before
              · exact .inr (reaches_cons.mpr ⟨nested, head, reaches_nil nested⟩)
              · exact .inl before
            · exact .inr (reaches_cons.mpr ⟨nested, head, new⟩)
        · exact .inl joined
      · obtain ⟨below, found, reachedBelow⟩ := reaches_cons.mp later
        have differs : name ≠ other := by
          rintro rfl
          have member : (name, below) ∈ rest := Entries.mem_of_get? found
          exact fresh (List.mem_map.mpr ⟨_, member, rfl⟩)
        refine .inr (reaches_cons.mpr ⟨below, ?_, reachedBelow⟩)
        simpa [get?_cons, differs] using found

end

/-- The paths of a merged forest are those of both. -/
theorem reaches_merge_iff {left right : Joins} {path : List String} (distinct : right.Distinct) :
    (left.merge right).Reaches path ↔ left.Reaches path ∨ right.Reaches path := by
  constructor
  · exact reaches_of_merge distinct
  · rintro (old | new)
    · exact reaches_merge_left old
    · exact reaches_merge_right new

/-- Joining a name adds the paths nested under it and no others. -/
theorem reaches_of_join {joins nested : Joins} {name : String} {path : List String}
    (distinct : nested.Distinct) (reached : (joins.join name nested).Reaches path) :
    joins.Reaches path ∨ ∃ rest, path = name :: rest ∧ nested.Reaches rest := by
  have single : Distinct ⟨[(name, nested)]⟩ := ⟨List.pairwise_singleton _ name, distinct, trivial⟩
  have merged : (joins.mergeAll [(name, nested)]).Reaches path := by
    rwa [mergeAll_cons, mergeAll]
  rcases reaches_of_mergeAll single merged with old | new
  · exact .inl old
  · cases path with
    | nil => exact .inl (reaches_nil joins)
    | cons other rest =>
        obtain ⟨below, found, reachedBelow⟩ := reaches_cons.mp new
        simp only [get?_cons, get?_nil, Option.ite_none_right_eq_some, Option.some.injEq] at found
        obtain ⟨rfl, rfl⟩ := found
        exact .inr ⟨rest, rfl, reachedBelow⟩

end Joins

/-!
### Conditions
-/

/-- The joins that one condition adds repeat nothing. -/
theorem Condition.distinct_addJoins {joins : Joins} (name : String) (condition : Condition)
    (distinct : joins.Distinct) : (condition.addJoins name joins).Distinct := by
  cases condition with
  | equals => exact distinct
  | anyOf => exact distinct
  | nested conditions => exact distinct.join name _

/-- The joins that conditions add repeat nothing, though the conditions may. -/
theorem Conditions.distinct_addJoins {joins : Joins} (conditions : Conditions)
    (distinct : joins.Distinct) : (Conditions.addJoins joins conditions).Distinct := by
  induction conditions generalizing joins with
  | nil => exact distinct
  | cons entry rest ih => exact ih (Condition.distinct_addJoins entry.1 entry.2 distinct)

/-- The joins of conditions never join an association twice on one level. -/
theorem Joins.distinct_ofConditions (conditions : Conditions) :
    (Joins.ofConditions conditions).Distinct :=
  Conditions.distinct_addJoins conditions Joins.distinct_empty

mutual

/-- The joins of one more condition add paths from its name through its own conditions only. -/
theorem Condition.follows_of_reaches_addJoins : ∀ {name : String} {joins : Joins}
    {condition : Condition} {path : List String}, (condition.addJoins name joins).Reaches path →
    joins.Reaches path ∨ ∃ nested rest, condition = .nested nested ∧ path = name :: rest ∧
      Conditions.Follows nested rest
  | _, _, .equals _, _, reached => .inl reached
  | _, _, .anyOf _, _, reached => .inl reached
  | name, joins, .nested conditions, path, reached => by
      have distinct := Joins.distinct_ofConditions conditions
      rcases Joins.reaches_of_join distinct reached with old | ⟨rest, rfl, below⟩
      · exact .inl old
      · refine .inr ⟨conditions, rest, rfl, rfl, ?_⟩
        rcases Conditions.follows_of_reaches_addJoins below with nothing | follows
        · rw [Joins.reaches_empty_iff.mp nothing]
          trivial
        · exact follows

/-- The joins of more conditions add paths that the conditions follow only. -/
theorem Conditions.follows_of_reaches_addJoins : ∀ {joins : Joins} {conditions : Conditions}
    {path : List String}, (Conditions.addJoins joins conditions).Reaches path →
    joins.Reaches path ∨ conditions.Follows path
  | _, [], _, reached => .inl reached
  | joins, (name, condition) :: rest, path, reached => by
      rw [Conditions.addJoins] at reached
      rcases Conditions.follows_of_reaches_addJoins reached with earlier | later
      · rcases Condition.follows_of_reaches_addJoins earlier with old |
          ⟨nested, below, rfl, rfl, follows⟩
        · exact .inl old
        · exact .inr ⟨nested, List.mem_cons_self, follows⟩
      · cases path with
        | nil => exact .inr trivial
        | cons other path =>
            obtain ⟨nested, member, below⟩ := later
            exact .inr ⟨nested, List.mem_cons_of_mem _ member, below⟩

end

/-- The joins of conditions hold the paths that the conditions follow, and no others. -/
theorem Joins.reaches_ofConditions_iff {conditions : Conditions} {path : List String} :
    (Joins.ofConditions conditions).Reaches path ↔ conditions.Follows path := by
  constructor
  · intro reached
    rcases Conditions.follows_of_reaches_addJoins reached with nothing | follows
    · rw [Joins.reaches_empty_iff.mp nothing]
      trivial
    · exact follows
  · exact Joins.reaches_ofConditions

/-!
### Queries
-/

/-- Merging the joins of many leaves repeats nothing. -/
theorem Joins.distinct_mergeLeaves {start : Joins} (leaves : List Conditions)
    (distinct : start.Distinct) : (start.mergeLeaves leaves).Distinct := by
  induction leaves generalizing start with
  | nil => exact distinct
  | cons leaf rest ih => exact ih distinct.merge

/-- A path of merged joins was there at the start, or some leaf follows it. -/
theorem Joins.reaches_of_mergeLeaves {start : Joins} {leaves : List Conditions}
    {path : List String} (reached : (start.mergeLeaves leaves).Reaches path) :
    start.Reaches path ∨ ∃ leaf ∈ leaves, leaf.Follows path := by
  induction leaves generalizing start with
  | nil => exact .inl reached
  | cons leaf rest ih =>
      rcases ih reached with merged | ⟨other, member, follows⟩
      · rcases reaches_of_merge (distinct_ofConditions leaf) merged with old | new
        · exact .inl old
        · exact .inr ⟨leaf, List.mem_cons_self, reaches_ofConditions_iff.mp new⟩
      · exact .inr ⟨other, List.mem_cons_of_mem _ member, follows⟩

/-- A query joins no name twice at any level. -/
theorem Query.distinct_joins (query : Query) : query.joins.Distinct :=
  Joins.distinct_mergeLeaves _ Joins.distinct_empty

/-- A query joins the paths that one of its leaves follows, and no others. -/
theorem Query.reaches_joins_iff {query : Query} {path : List String} (nonempty : path ≠ []) :
    query.joins.Reaches path ↔ ∃ leaf ∈ query.hashLeaves, leaf.Follows path := by
  constructor
  · intro reached
    rcases Joins.reaches_of_mergeLeaves reached with nothing | followed
    · exact absurd (Joins.reaches_empty_iff.mp nothing) nonempty
    · exact followed
  · rintro ⟨leaf, member, follows⟩
    exact Joins.reaches_mergeLeaves_of_mem member follows

end Permit
