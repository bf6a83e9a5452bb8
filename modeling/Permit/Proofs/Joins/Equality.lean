/-
Module: Permit.Proofs.Joins.Equality
Layer: Proofs
Purpose: A forest of joins read level by level, as the names that stand at the end of each path, in
  order. Merging puts the new names of the forest that is merged in after the names that are there,
  at every level alike. Where no name is repeated the levels are all there is to a forest, and
  forests are equal up to order exactly where they hold the same paths.
Main exports: Joins.forest_induction, Joins.under, Joins.namesAt, Joins.mem_namesAt_iff,
  Joins.names_merge, Joins.get?_merge, Joins.namesAt_merge, Joins.eq_of_namesAt,
  Joins.same_eq_sameBy, Joins.same_iff, Joins.same_iff_reaches
-/
import Permit.Proofs.Entries.Equality
import Permit.Proofs.Joins.Merge

namespace Permit.Joins

/-- What holds of a forest if it holds of the forests nested in it holds of every forest. -/
@[elab_as_elim]
theorem forest_induction {motive : Joins → Prop}
    (forest : ∀ children : List (String × Joins),
      (∀ tree ∈ children, motive tree.2) → motive ⟨children⟩) :
    ∀ joins, motive joins
  | ⟨children⟩ => forest children (fun tree _member => forest_induction forest tree.2)
termination_by joins => sizeOf joins
decreasing_by
  have smaller := List.sizeOf_lt_of_mem _member
  cases tree
  simp_all
  omega

variable {joins left right : Joins} {name other : String} {path : List String}

/-!
### Levels
-/

/-- The forest at the end of a path, the empty one where the path leads out of the forest. -/
def under (joins : Joins) (path : List String) : Joins := (joins.follow? path).getD empty

/-- The names at the end of a path, in order. -/
def namesAt (joins : Joins) (path : List String) : List String :=
  Entries.names (joins.under path).children

/-- No path leads anywhere in the empty forest. -/
theorem under_empty (path : List String) : empty.under path = empty := by
  cases path <;> rfl

/-- A path is followed one name at a time. -/
theorem under_cons (joins : Joins) (name : String) (path : List String) :
    joins.under (name :: path) = ((joins.get? name).getD empty).under path := by
  rw [under, follow?]
  cases joins.get? name with
  | none => exact (under_empty path).symm
  | some nested => rfl

theorem namesAt_empty (path : List String) : empty.namesAt path = [] := by
  rw [namesAt, under_empty]
  rfl

/-- The names at the end of a path are those at the end of the rest of it, below its first name. -/
theorem namesAt_cons (joins : Joins) (name : String) (path : List String) :
    joins.namesAt (name :: path) = ((joins.get? name).getD empty).namesAt path := by
  rw [namesAt, under_cons, namesAt]

/-- Nothing is repeated at the end of any path of a forest without repetitions. -/
theorem Distinct.under (distinct : joins.Distinct) (path : List String) :
    (joins.under path).Distinct := by
  induction path generalizing joins with
  | nil => exact distinct
  | cons name path ih =>
      rw [under_cons]
      exact ih distinct.getD

/-- A name stands at the end of a path where the path can be followed on to it. -/
theorem mem_namesAt_iff : name ∈ joins.namesAt path ↔ joins.Reaches (path ++ [name]) := by
  induction path generalizing joins with
  | nil =>
      rw [List.nil_append, reaches_cons]
      simp only [reaches_nil, and_true]
      exact Entries.mem_names_iff
  | cons first path ih =>
      rw [namesAt_cons, ih, List.cons_append, reaches_cons]
      cases joins.get? first with
      | none => simp [reaches_empty_iff]
      | some nested => simp

/-!
### Merging level by level
-/

/-- Trees that are merged in add the names that are not there yet, after those that are. -/
theorem names_mergeAll {children : List (String × Joins)} (unique : Entries.Unique children)
    (left : Joins) :
    Entries.names (left.mergeAll children).children =
      Entries.names left.children ++
        (Entries.names children).filter (fun name => name ∉ Entries.names left.children) := by
  induction children generalizing left with
  | nil => simp [mergeAll, Entries.names]
  | cons tree rest ih =>
      obtain ⟨name, nested⟩ := tree
      obtain ⟨fresh, restUnique⟩ := List.nodup_cons.mp unique
      have joined : Entries.names (left.join name nested).children =
          if name ∈ Entries.names left.children then Entries.names left.children
          else Entries.names left.children ++ [name] := Entries.names_put _ _ _
      have names : Entries.names ((name, nested) :: rest) = name :: Entries.names rest := rfl
      rw [mergeAll_cons, ih restUnique, joined, names]
      by_cases known : name ∈ Entries.names left.children
      · simp [known]
      · -- the name itself does not occur again, so that it may count as one that is there
        have later : ∀ other ∈ Entries.names rest,
            decide (other ∉ Entries.names left.children ++ [name]) =
              decide (other ∉ Entries.names left.children) := by
          intro other member
          have differs : other ≠ name := fun same => fresh (same ▸ member)
          simp [differs]
        rw [if_neg known, List.filter_congr later]
        simp [known]

/-- What is nested under a name in trees that are merged in is merged into what is there. -/
theorem get?_mergeAll {children : List (String × Joins)} (unique : Entries.Unique children)
    (left : Joins) (name : String) :
    ((left.mergeAll children).get? name).getD empty =
      ((left.get? name).getD empty).merge ((get? ⟨children⟩ name).getD empty) := by
  induction children generalizing left with
  | nil => rfl
  | cons tree rest ih =>
      obtain ⟨known, nested⟩ := tree
      obtain ⟨fresh, restUnique⟩ := List.nodup_cons.mp unique
      rw [mergeAll_cons, ih restUnique, join, get?_put, get?_cons]
      by_cases same : known = name
      · have absent : get? ⟨rest⟩ name = none := Entries.get?_eq_none_iff.mpr (same ▸ fresh)
        rw [if_pos same, if_pos same, absent, same]
        rfl
      · rw [if_neg same, if_neg same]

/-- On top, merging puts the new names of the one forest after all names of the other. -/
theorem names_merge (distinct : right.Distinct) (left : Joins) :
    Entries.names (left.merge right).children =
      Entries.names left.children ++
        (Entries.names right.children).filter (fun name => name ∉ Entries.names left.children) := by
  obtain ⟨unique, _⟩ := distinct_iff.mp distinct
  cases right
  rw [merge]
  exact names_mergeAll unique left

/-- What is nested under a name in merged forests is what is nested there in both, merged. A forest
    without the name counts as an empty one. -/
theorem get?_merge (distinct : right.Distinct) (left : Joins) (name : String) :
    ((left.merge right).get? name).getD empty =
      ((left.get? name).getD empty).merge ((right.get? name).getD empty) := by
  obtain ⟨unique, _⟩ := distinct_iff.mp distinct
  cases right
  rw [merge]
  exact get?_mergeAll unique left name

/-- Merging forests merges what is at the end of each path. -/
theorem under_merge (distinct : right.Distinct) (left : Joins) (path : List String) :
    (left.merge right).under path = (left.under path).merge (right.under path) := by
  induction path generalizing left right with
  | nil => rfl
  | cons name path ih =>
      rw [under_cons, under_cons, under_cons, get?_merge distinct]
      exact ih distinct.getD _

/-- At the end of each path the names of the forest that is merged into come first, and the new
    ones after them. -/
theorem namesAt_merge (distinct : right.Distinct) (left : Joins) (path : List String) :
    (left.merge right).namesAt path =
      left.namesAt path ++ (right.namesAt path).filter (fun name => name ∉ left.namesAt path) := by
  rw [namesAt, under_merge distinct]
  exact names_merge (distinct.under path) _

/-!
### Forests from their levels
-/

/-- Distinct forests with the same names in the same order at every level are the same. -/
theorem eq_of_namesAt (leftDistinct : left.Distinct) (rightDistinct : right.Distinct)
    (same : ∀ path, left.namesAt path = right.namesAt path) : left = right := by
  induction left using forest_induction generalizing right with
  | forest children ih =>
      obtain ⟨others⟩ := right
      have unique : Entries.Unique children := (distinct_iff.mp leftDistinct).1
      have names : Entries.names children = Entries.names others := same []
      apply congrArg mk
      apply unique.ext names
      intro name member
      obtain ⟨nested, found⟩ := Entries.mem_names_iff.mp member
      obtain ⟨other, otherFound⟩ := Entries.mem_names_iff.mp (names ▸ member)
      rw [found, otherFound]
      apply congrArg some
      apply ih _ (Entries.mem_of_get? found) (leftDistinct.of_get? found)
        (rightDistinct.of_get? otherFound)
      intro path
      have levels := same (name :: path)
      rwa [namesAt_cons, namesAt_cons, get?, get?, found, otherFound] at levels

/-!
### Equality up to order

Forests are compared like all entries, level by level.
-/

/-- Two forests have the same names on top, and what is nested under a name in one is related to
    what is nested under it in the other. -/
def Matches (related : Joins → Joins → Prop) (left right : Joins) : Prop :=
  (∀ name, name ∈ Entries.names left.children ↔ name ∈ Entries.names right.children) ∧
    ∀ name nested other, left.get? name = some nested → right.get? name = some other →
      related nested other

/-!
### The comparison, one level at a time
-/

/-- Each tree has to find its equal under its own name in the other forest. -/
theorem foundIn_eq_all (others : Joins) (children : List (String × Joins)) :
    others.foundIn children =
      children.all (fun tree => (others.get? tree.1).any (fun other => tree.2.same other)) := by
  induction children with
  | nil => rfl
  | cons tree rest ih =>
      obtain ⟨name, nested⟩ := tree
      rw [foundIn, ih, List.all_cons]
      cases others.get? name <;> rfl

/-- Forests are compared like all entries, what is nested under a name as forests again. -/
theorem same_eq_sameBy (left right : Joins) :
    left.same right = Entries.sameBy same left.children right.children := by
  obtain ⟨children⟩ := left
  rw [same, foundIn_eq_all]
  rfl

/-- Counting the names and finding each of them on the other side compares the names of both. -/
theorem same_iff (leftDistinct : left.Distinct) (rightDistinct : right.Distinct) :
    left.same right = true ↔ Matches (fun nested other => nested.same other = true) left right := by
  obtain ⟨leftUnique, _⟩ := distinct_iff.mp leftDistinct
  obtain ⟨rightUnique, _⟩ := distinct_iff.mp rightDistinct
  rw [same_eq_sameBy, Entries.sameBy_iff leftUnique rightUnique, Entries.matches_iff]
  rfl

/-!
### The paths, one level at a time
-/

/-- Forests that hold the same paths have the same names, with the same paths under each. -/
theorem reaches_iff_matches :
    (∀ path, left.Reaches path ↔ right.Reaches path) ↔
      Matches (fun nested other => ∀ path, nested.Reaches path ↔ other.Reaches path)
        left right := by
  constructor
  · intro paths
    refine ⟨fun name => ?_, ?_⟩
    · have here := paths [name]
      rwa [← List.nil_append [name], ← mem_namesAt_iff, ← mem_namesAt_iff] at here
    · intro name nested other here there path
      have onward := paths (name :: path)
      simpa [reaches_cons, here, there] using onward
  · rintro ⟨names, nested⟩ path
    cases path with
    | nil => exact iff_of_true (reaches_nil left) (reaches_nil right)
    | cons name path =>
        rw [reaches_cons, reaches_cons]
        constructor
        · rintro ⟨tree, here, reached⟩
          obtain ⟨other, there⟩ :=
            Entries.mem_names_iff.mp ((names name).mp (Entries.mem_names_iff.mpr ⟨tree, here⟩))
          exact ⟨other, there, (nested name tree other here there path).mp reached⟩
        · rintro ⟨other, there, reached⟩
          obtain ⟨tree, here⟩ :=
            Entries.mem_names_iff.mp ((names name).mpr (Entries.mem_names_iff.mpr ⟨other, there⟩))
          exact ⟨tree, here, (nested name tree other here there path).mpr reached⟩

/-- Distinct forests are equal up to order where they hold the same paths. -/
theorem same_iff_reaches (leftDistinct : left.Distinct) (rightDistinct : right.Distinct) :
    left.same right = true ↔ ∀ path, left.Reaches path ↔ right.Reaches path := by
  induction left using forest_induction generalizing right with
  | forest children ih =>
      rw [same_iff leftDistinct rightDistinct, reaches_iff_matches]
      apply and_congr_right
      intro _
      refine forall_congr' fun name => forall_congr' fun nested => forall_congr' fun other =>
        forall_congr' fun here => forall_congr' fun there => ?_
      exact ih _ (Entries.mem_of_get? here) (leftDistinct.of_get? here)
        (rightDistinct.of_get? there)

end Permit.Joins
