/-
Module: Permit.Proofs.Joins.Algebra
Layer: Proofs
Purpose: The laws of merging. Forests that are put together by joining and merging repeat no name,
  and merging them is a union of paths that keeps the order of the first forest: associative,
  idempotent, with the empty forest on either side as its unit, and commutative up to order. A
  forest covers conditions exactly where merging their joins in changes nothing.
Main exports: Joins.Assembled, Joins.paths, Joins.merge_eq_self_iff,
  Joins.covers_iff_merge_eq_self, Joins.mergeLeaves_eq_self, Joins.merge_algebra
-/
import Mathlib.Data.Set.Basic
import Permit.Proofs.Joins.Equality

namespace Permit.Joins

variable {left middle right joins : Joins}

/-- A forest that is put together from the empty one by joining and merging. -/
inductive Assembled : Joins → Prop
  | empty : Assembled Joins.empty
  | join {joins nested : Joins} (name : String) :
      Assembled joins → Assembled nested → Assembled (joins.join name nested)
  | merge {left right : Joins} : Assembled left → Assembled right → Assembled (left.merge right)

/-- Neither joining nor merging repeats a name. -/
theorem Assembled.distinct (assembled : joins.Assembled) : joins.Distinct := by
  induction assembled with
  | empty => exact distinct_empty
  | join name _ _ ih _ => exact ih.join name _
  | merge _ _ ih _ => exact ih.merge

/-- The paths of at least one name that can be followed in a forest. -/
def paths (joins : Joins) : Set (List String) := {path | path ≠ [] ∧ joins.Reaches path}

/-- The empty path is left out, since every forest has it. -/
theorem mem_paths_iff {path : List String} :
    path ∈ joins.paths ↔ path ≠ [] ∧ joins.Reaches path :=
  Iff.rfl

/-- The path without names can be followed everywhere, so that the others tell forests apart. -/
theorem paths_eq_iff :
    left.paths = right.paths ↔ ∀ path, left.Reaches path ↔ right.Reaches path := by
  constructor
  · intro same path
    cases path with
    | nil => exact iff_of_true (reaches_nil left) (reaches_nil right)
    | cons name path =>
        have member : name :: path ∈ left.paths ↔ name :: path ∈ right.paths := by rw [same]
        simpa [mem_paths_iff] using member
  · intro same
    apply Set.ext
    exact fun path => and_congr_right fun _ => same path

/-- A merged forest has the paths of both and no others. -/
theorem paths_merge (distinct : right.Distinct) :
    (left.merge right).paths = left.paths ∪ right.paths := by
  apply Set.ext
  intro path
  rw [Set.mem_union, mem_paths_iff, mem_paths_iff, mem_paths_iff, reaches_merge_iff distinct]
  exact and_or_left

/-!
### Merging as an operation

Each law is read off the names at the end of a path, where merging appends a filtered list.
-/

/-- Merging in the empty forest changes nothing, whatever the forest is. -/
theorem merge_empty (joins : Joins) : joins.merge empty = joins := by
  rw [empty, merge, mergeAll]

/-- Merged into the empty forest, a forest comes out as it is, in its order. A repeated name would
    be joined once only, so the forest has to be without one. -/
theorem empty_merge (distinct : joins.Distinct) : empty.merge joins = joins := by
  apply eq_of_namesAt distinct_empty.merge distinct
  intro path
  simp [namesAt_merge distinct, namesAt_empty]

/-- It does not matter which of two merges comes first. The names at each path come out in the order
    of the three forests either way. -/
theorem merge_assoc (leftDistinct : left.Distinct) (middleDistinct : middle.Distinct)
    (rightDistinct : right.Distinct) :
    (left.merge middle).merge right = left.merge (middle.merge right) := by
  apply eq_of_namesAt leftDistinct.merge.merge leftDistinct.merge
  intro path
  rw [namesAt_merge rightDistinct, namesAt_merge middleDistinct,
    namesAt_merge middleDistinct.merge, namesAt_merge rightDistinct, List.filter_append,
    List.filter_filter, List.append_assoc]
  congr 2
  apply List.filter_congr
  intro name _
  by_cases known : name ∈ left.namesAt path <;> simp [known]

/-- Merging in a forest changes nothing where all its paths are there already. -/
theorem merge_eq_self_iff (leftDistinct : left.Distinct) (rightDistinct : right.Distinct) :
    left.merge right = left ↔ ∀ path, right.Reaches path → left.Reaches path := by
  constructor
  · intro unchanged path reached
    rw [← unchanged]
    exact reaches_merge_right reached
  · intro within
    apply eq_of_namesAt leftDistinct.merge leftDistinct
    intro path
    rw [namesAt_merge rightDistinct, List.append_right_eq_self, List.filter_eq_nil_iff]
    intro name member
    have known : name ∈ left.namesAt path :=
      mem_namesAt_iff.mpr (within _ (mem_namesAt_iff.mp member))
    simp [known]

/-- A forest that is merged into itself adds nothing. -/
theorem merge_self (distinct : joins.Distinct) : joins.merge joins = joins :=
  (merge_eq_self_iff distinct distinct).mpr fun _ reached => reached

/-- The order in which two forests are merged does not matter to what is joined. -/
theorem same_merge_comm (leftDistinct : left.Distinct) (rightDistinct : right.Distinct) :
    (left.merge right).same (right.merge left) = true := by
  rw [same_iff_reaches leftDistinct.merge rightDistinct.merge]
  intro path
  rw [reaches_merge_iff rightDistinct, reaches_merge_iff leftDistinct, or_comm]

/-!
### Coverage
-/

/-- The joins of conditions are there already exactly where the conditions are covered. -/
theorem covers_iff_merge_eq_self (distinct : joins.Distinct) (conditions : Conditions) :
    joins.covers conditions = true ↔ joins.merge (ofConditions conditions) = joins := by
  rw [covers, Conditions.coveredBy_iff, merge_eq_self_iff distinct (distinct_ofConditions _)]
  exact forall_congr' fun path => by rw [reaches_ofConditions_iff]

/-- Coverage is also what equality up to order sees of such a merge. -/
theorem covers_iff_same_merge (distinct : joins.Distinct) (conditions : Conditions) :
    joins.covers conditions = true ↔
      (joins.merge (ofConditions conditions)).same joins = true := by
  rw [covers, Conditions.coveredBy_iff, same_iff_reaches distinct.merge distinct]
  apply forall_congr'
  intro path
  rw [reaches_merge_iff (distinct_ofConditions _), reaches_ofConditions_iff]
  exact or_iff_left_iff_imp.symm

/-- Leaves that are covered add nothing to what is joined. -/
theorem mergeLeaves_eq_self {start : Joins} {leaves : List Conditions}
    (distinct : start.Distinct) (covered : ∀ leaf ∈ leaves, start.covers leaf = true) :
    start.mergeLeaves leaves = start := by
  induction leaves with
  | nil => rfl
  | cons leaf rest ih =>
      have unchanged :=
        (covers_iff_merge_eq_self distinct leaf).mp (covered leaf List.mem_cons_self)
      rw [mergeLeaves_cons, unchanged]
      exact ih (fun other member => covered other (List.mem_cons_of_mem _ member))

/-- Merging is a union of paths in the order of the first forest. -/
theorem merge_algebra (leftAssembled : left.Assembled) (middleAssembled : middle.Assembled)
    (rightAssembled : right.Assembled) :
    left.Distinct ∧
      (left.merge right).paths = left.paths ∪ right.paths ∧
      (∀ path, (left.merge right).namesAt path =
        left.namesAt path ++
          (right.namesAt path).filter (fun name => name ∉ left.namesAt path)) ∧
      (left.merge middle).merge right = left.merge (middle.merge right) ∧
      left.merge empty = left ∧
      empty.merge left = left ∧
      left.merge left = left ∧
      (left.merge right).same (right.merge left) = true ∧
      (left.same right = true ↔ left.paths = right.paths) ∧
      ∀ conditions,
        (left.covers conditions = true ↔ left.merge (ofConditions conditions) = left) ∧
          (left.covers conditions = true ↔
            (left.merge (ofConditions conditions)).same left = true) := by
  have leftDistinct := leftAssembled.distinct
  have rightDistinct := rightAssembled.distinct
  refine ⟨leftDistinct, paths_merge rightDistinct, namesAt_merge rightDistinct left,
    merge_assoc leftDistinct middleAssembled.distinct rightDistinct, merge_empty left,
    empty_merge leftDistinct, merge_self leftDistinct,
    same_merge_comm leftDistinct rightDistinct, ?_, fun conditions => ⟨?_, ?_⟩⟩
  · rw [same_iff_reaches leftDistinct rightDistinct, paths_eq_iff]
  · exact covers_iff_merge_eq_self leftDistinct conditions
  · exact covers_iff_same_merge leftDistinct conditions

/-!
### A newspaper

Both desks join the article. What the second one nests under it comes after what the first one does,
whichever of the two desks that is.
-/

namespace Newspaper

def copyDesk : Joins := empty.join "article" (empty.join "author" empty)

def newsDesk : Joins :=
  (empty.join "section" empty).join "article" ((empty.join "editor" empty).join "author" empty)

def corrections : Conditions :=
  [("final", .equals (.boolean false)),
    ("article", .nested [("editor", .nested [("present", .equals (.boolean true))])])]

/-- The forest of the copy desk is put together by joining and merging. -/
theorem assembled_copyDesk : copyDesk.Assembled :=
  .join _ .empty (.join _ .empty .empty)

/-- The forest of the news desk is put together by joining and merging. -/
theorem assembled_newsDesk : newsDesk.Assembled :=
  .join _ (.join _ .empty .empty) (.join _ (.join _ .empty .empty) .empty)

end Newspaper

theorem newspaper_merged :
    Newspaper.copyDesk.Assembled ∧
    Newspaper.newsDesk.Assembled ∧
    (Newspaper.copyDesk.merge Newspaper.newsDesk).display =
      "[article: [author, editor], section]" ∧
    (Newspaper.newsDesk.merge Newspaper.copyDesk).display =
      "[section, article: [editor, author]]" ∧
    (Newspaper.copyDesk.merge Newspaper.newsDesk).same
      (Newspaper.newsDesk.merge Newspaper.copyDesk) = true ∧
    Newspaper.newsDesk.merge (ofConditions Newspaper.corrections) = Newspaper.newsDesk ∧
    Newspaper.copyDesk.covers Newspaper.corrections = false := by
  have copyDesk := Newspaper.assembled_copyDesk
  have newsDesk := Newspaper.assembled_newsDesk
  obtain ⟨_, _, _, _, _, _, _, same, _⟩ := merge_algebra copyDesk copyDesk newsDesk
  obtain ⟨_, _, _, _, _, _, _, _, _, covers⟩ := merge_algebra newsDesk newsDesk copyDesk
  exact ⟨copyDesk, newsDesk, rfl, rfl, same, (covers Newspaper.corrections).1.mp rfl, rfl⟩

end Permit.Joins
