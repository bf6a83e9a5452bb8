/-
Module: Permit.Proofs.Settings.Worklist
Layer: Proofs
Purpose: Expansion as a loop over the waiting actions that never closes an alias: an action may wait
  several times, and an action that is expanded already is opened again when its turn comes. Each
  turn expands a new action or takes a known one away for new ones, so the loop ends. It ends with
  the list that opening each alias once comes to, since a second opening brings nothing forward that
  would not have come next anyway.
Main exports: Settings.Worklist, Settings.Worklist.turn?, Settings.Turns,
  Settings.wellFounded_turns, Settings.spread, Settings.spread_append, Settings.Worklist.Resuming,
  Settings.turns_expandActions
-/
import Mathlib.Data.Finset.Card
import Mathlib.Data.Prod.Lex
import Permit.Proofs.Settings.Reachability

namespace Permit.Settings

variable {aliases : Entries (List String)} {action name : String}
  {pending rest expanded names : List String}

/-!
### The loop
-/

/-- What the loop holds between two turns. -/
structure Worklist where
  /-- The actions that wait, the next one foremost. -/
  pending : List String
  /-- The actions that are expanded, in order. -/
  expanded : List String

/-- The targets of an action, none if it is no alias. -/
def targetsOf (aliases : Entries (List String)) (action : String) : List String :=
  (aliases.get? action).getD []

/-- The names that are not expanded. -/
def unexpanded (expanded names : List String) : List String :=
  names.filter (fun name => name ∉ expanded)

/-- One turn of the loop: the next action is taken, those of its targets that are not expanded go in
    front of what waits, the last one foremost, and the action itself is expanded. -/
def Worklist.turn? (aliases : Entries (List String)) : Worklist → Option Worklist
  | ⟨[], _⟩ => none
  | ⟨action :: rest, expanded⟩ =>
      some ⟨(unexpanded expanded (targetsOf aliases action)).reverse ++ rest,
        addLast expanded action⟩

/-- One turn of the loop leads from the one state to the other. -/
def Turns (aliases : Entries (List String)) (before after : Worklist) : Prop :=
  before.turn? aliases = some after

/-- What is left of names are those that the expansion has not come to yet. -/
theorem mem_unexpanded : name ∈ unexpanded expanded names ↔ name ∈ names ∧ name ∉ expanded := by
  simp [unexpanded]

/-- Expanding an action a second time leaves the list as it is. -/
theorem addLast_of_mem (known : action ∈ expanded) : addLast expanded action = expanded :=
  if_pos known

/-- A new action goes to the end of the list, so that the list keeps the order in which actions were
    first expanded. -/
theorem addLast_of_not_mem (new : action ∉ expanded) :
    addLast expanded action = expanded ++ [action] :=
  if_neg new

/-!
### The loop ends

A known action that is opened again is replaced by actions that are not expanded. So either there is
less left to expand, or as much, with fewer known actions among those that wait.
-/

/-- All actions that an alias has as a target. -/
def allTargets (aliases : Entries (List String)) : List String := aliases.flatMap Prod.snd

/-- A turn puts forward targets only, and there are finitely many of them. This is what bounds the
    loop. -/
theorem targetsOf_subset_allTargets : targetsOf aliases action ⊆ allTargets aliases := by
  intro target member
  unfold targetsOf at member
  cases found : aliases.get? action with
  | none => simp [found] at member
  | some targets =>
      rw [found, Option.getD_some] at member
      exact List.mem_flatMap.mpr ⟨_, Entries.mem_of_get? found, member⟩

namespace Worklist

/-- The actions that may still be expanded. -/
def fresh (aliases : Entries (List String)) (work : Worklist) : Finset String :=
  (allTargets aliases ++ work.pending).toFinset \ work.expanded.toFinset

/-- The waiting actions that are expanded already, each as often as it waits. -/
def known (work : Worklist) : List String :=
  work.pending.filter (fun action => action ∈ work.expanded)

/-- The actions that may still be expanded are the targets of all aliases and the waiting actions,
    less what is expanded. -/
theorem mem_fresh {work : Worklist} : action ∈ work.fresh aliases ↔
    (action ∈ allTargets aliases ∨ action ∈ work.pending) ∧ action ∉ work.expanded := by
  simp [fresh]

end Worklist

/-- A turn leaves no more to expand, since what it puts forward are targets. -/
theorem fresh_subset {later : List String} (kept : expanded ⊆ later) :
    Worklist.fresh aliases
        ⟨(unexpanded expanded (targetsOf aliases action)).reverse ++ rest, later⟩ ⊆
      Worklist.fresh aliases ⟨action :: rest, expanded⟩ := by
  intro other member
  obtain ⟨source, absent⟩ := Worklist.mem_fresh.mp member
  refine Worklist.mem_fresh.mpr ⟨?_, fun old => absent (kept old)⟩
  rcases source with target | waiting
  · exact .inl target
  · rcases List.mem_append.mp waiting with opened | behind
    · exact .inl (targetsOf_subset_allTargets (mem_unexpanded.mp (List.mem_reverse.mp opened)).1)
    · exact .inr (List.mem_cons_of_mem _ behind)

/-- A turn with a new action leaves less to expand. -/
theorem fresh_ssubset_of_not_mem (new : action ∉ expanded) :
    Worklist.fresh aliases
        ⟨(unexpanded expanded (targetsOf aliases action)).reverse ++ rest, expanded ++ [action]⟩ ⊂
      Worklist.fresh aliases ⟨action :: rest, expanded⟩ := by
  rw [Finset.ssubset_iff_of_subset (fresh_subset (List.subset_append_left _ _))]
  refine ⟨action, Worklist.mem_fresh.mpr ⟨.inr List.mem_cons_self, new⟩, ?_⟩
  simp [Worklist.mem_fresh]

/-- A turn with a known action leaves fewer known actions waiting. -/
theorem known_lt_of_mem (old : action ∈ expanded) :
    (Worklist.known
        ⟨(unexpanded expanded (targetsOf aliases action)).reverse ++ rest, expanded⟩).length <
      (Worklist.known ⟨action :: rest, expanded⟩).length := by
  have none : (unexpanded expanded (targetsOf aliases action)).reverse.filter
      (fun action => action ∈ expanded) = [] := by
    rw [List.filter_eq_nil_iff]
    intro other member
    simpa using (mem_unexpanded.mp (List.mem_reverse.mp member)).2
  simp [Worklist.known, List.filter_append, none, old]

/-- What a turn brings down: first how much is left to expand, then how many known actions wait. -/
def Worklist.measure (aliases : Entries (List String)) (work : Worklist) : Nat ×ₗ Nat :=
  toLex ((work.fresh aliases).card, work.known.length)

/-- A turn with a new action leaves less to expand. A turn with a known action leaves as much or
    less, and one known action fewer among those that wait. -/
theorem measure_lt_of_turns {before after : Worklist} (turn : Turns aliases before after) :
    after.measure aliases < before.measure aliases := by
  obtain ⟨pending, expanded⟩ := before
  cases pending with
  | nil => cases turn
  | cons action rest =>
      cases turn
      rw [Worklist.measure, Worklist.measure, Prod.Lex.toLex_lt_toLex]
      by_cases old : action ∈ expanded
      · rw [addLast_of_mem old]
        have noMore : Worklist.fresh aliases
              ⟨(unexpanded expanded (targetsOf aliases action)).reverse ++ rest, expanded⟩ ⊆
            Worklist.fresh aliases ⟨action :: rest, expanded⟩ :=
          fresh_subset (List.Subset.refl expanded)
        exact (Finset.card_le_card noMore).lt_or_eq.imp_right
          (fun same => ⟨same, known_lt_of_mem old⟩)
      · rw [addLast_of_not_mem old]
        exact .inl (Finset.card_lt_card (fresh_ssubset_of_not_mem old))

/-- No run of the loop goes on for ever, whatever it starts from. -/
theorem wellFounded_turns (aliases : Entries (List String)) :
    WellFounded (fun after before => Turns aliases before after) :=
  Subrelation.wf measure_lt_of_turns (InvImage.wf (Worklist.measure aliases) wellFounded_lt)

/-!
### Opening each alias once
-/

/-- The aliases whose names are not expanded. -/
def stillClosed (aliases : Entries (List String)) (expanded : List String) :
    Entries (List String) :=
  aliases.filter (fun entry => entry.1 ∉ expanded)

/-- The actions that expansion comes to where each expanded alias has been opened. -/
def spread (aliases : Entries (List String)) (pending expanded : List String) : List String :=
  expandFrom (stillClosed aliases expanded) pending expanded

/-- An alias is closed until it is expanded; then look-up finds nothing under it. -/
theorem get?_stillClosed :
    (stillClosed aliases expanded).get? name =
      if name ∈ expanded then none else aliases.get? name := by
  induction aliases with
  | nil => simp [stillClosed]
  | cons entry others ih =>
      obtain ⟨known, targets⟩ := entry
      unfold stillClosed at ih ⊢
      by_cases same : known = name
      · subst same
        by_cases old : known ∈ expanded <;> simp_all [Entries.get?_cons]
      · by_cases old : known ∈ expanded <;> simp_all [Entries.get?_cons]

/-- Opening an alias and expanding it are one and the same for the aliases that are still closed.
    With this, states of the loop and states of the expansion correspond. -/
theorem erase_stillClosed :
    (stillClosed aliases expanded).erase name = stillClosed aliases (addLast expanded name) := by
  unfold stillClosed Entries.erase
  rw [List.filter_filter]
  apply List.filter_congr
  intro entry _
  rw [Bool.eq_iff_iff]
  simp [mem_addLast, and_comm]

/-- A turn of the expansion at an alias that is still closed. -/
theorem expandFrom_of_alias {closed : Entries (List String)} {targets : List String}
    (opened : closed.get? action = some targets) :
    expandFrom closed (action :: rest) expanded =
      expandFrom (closed.erase action) (targets.reverse ++ rest) (addLast expanded action) := by
  rw [expandFrom_cons, opened]

/-- A turn of the expansion at an action that is no alias, or one that is opened already. -/
theorem expandFrom_of_no_alias {closed : Entries (List String)}
    (absent : closed.get? action = none) :
    expandFrom closed (action :: rest) expanded =
      expandFrom closed rest (addLast expanded action) := by
  rw [expandFrom_cons, absent]

/-- A known action may be dropped wherever it stands first, since its alias is opened already. -/
theorem spread_cons_of_mem (old : action ∈ expanded) :
    spread aliases (action :: rest) expanded = spread aliases rest expanded := by
  have absent : (stillClosed aliases expanded).get? action = none := by
    rw [get?_stillClosed, if_pos old]
  rw [spread, expandFrom_of_no_alias absent, addLast_of_mem old, spread]

/-- A new action is expanded, and its targets go in front of what waits, the last one foremost. An
    action without targets is the case where nothing goes in front. -/
theorem spread_cons_of_not_mem (new : action ∉ expanded) :
    spread aliases (action :: rest) expanded =
      spread aliases ((targetsOf aliases action).reverse ++ rest) (expanded ++ [action]) := by
  have found : (stillClosed aliases expanded).get? action = aliases.get? action := by
    rw [get?_stillClosed, if_neg new]
  rw [spread, spread, ← addLast_of_not_mem new, ← erase_stillClosed, targetsOf]
  cases opened : aliases.get? action with
  | some targets => rw [expandFrom_of_alias (found.trans opened), Option.getD_some]
  | none =>
      have absent := found.trans opened
      rw [expandFrom_of_no_alias absent, Entries.erase_of_get?_eq_none absent, Option.getD_none,
        List.reverse_nil, List.nil_append]

/-- Actions that wait behind others are expanded after them. -/
theorem spread_append (first second expanded : List String) :
    spread aliases (first ++ second) expanded =
      spread aliases second (spread aliases first expanded) := by
  have general : ∀ closed pending expanded, closed = stillClosed aliases expanded →
      expandFrom closed (pending ++ second) expanded =
        spread aliases second (expandFrom closed pending expanded) := by
    intro closed pending expanded
    induction closed, pending, expanded using expandFrom.induct with
    | case1 closed expanded =>
        rintro rfl
        rw [expandFrom]
        rfl
    | case2 closed expanded name rest targets opened ih =>
        rintro rfl
        rw [List.cons_append, expandFrom_of_alias opened, expandFrom_of_alias opened,
          ← List.append_assoc]
        exact ih erase_stillClosed
    | case3 closed expanded name rest absent ih =>
        rintro rfl
        rw [List.cons_append, expandFrom_of_no_alias absent, expandFrom_of_no_alias absent]
        apply ih
        rw [← erase_stillClosed, Entries.erase_of_get?_eq_none absent]
  exact general _ first expanded rfl

/-- Expansion keeps what is expanded. -/
theorem subset_spread_expanded (aliases : Entries (List String)) (pending expanded : List String) :
    expanded ⊆ spread aliases pending expanded :=
  fun _ member => (mem_expandFrom _ _ _).mpr (.inl member)

/-- Expansion comes to every waiting action. -/
theorem subset_spread_pending (aliases : Entries (List String)) (pending expanded : List String) :
    pending ⊆ spread aliases pending expanded :=
  fun _ member => (mem_expandFrom _ _ _).mpr (.inr ⟨_, member, .refl⟩)

/-- Known actions alone change nothing. -/
theorem spread_of_subset (old : pending ⊆ expanded) :
    spread aliases pending expanded = expanded := by
  induction pending with
  | nil => rw [spread, expandFrom]
  | cons action rest ih =>
      obtain ⟨first, others⟩ := List.cons_subset.mp old
      rw [spread_cons_of_mem first, ih others]

/-- Known actions may be left out. -/
theorem spread_unexpanded {earlier : List String} (kept : earlier ⊆ expanded) :
    spread aliases (unexpanded earlier pending) expanded = spread aliases pending expanded := by
  induction pending generalizing expanded with
  | nil => rfl
  | cons action rest ih =>
      by_cases old : action ∈ earlier
      · have dropped : unexpanded earlier (action :: rest) = unexpanded earlier rest :=
          List.filter_cons_of_neg (by simpa using old)
        rw [dropped, spread_cons_of_mem (kept old), ih kept]
      · have stays : unexpanded earlier (action :: rest) = [action] ++ unexpanded earlier rest :=
          List.filter_cons_of_pos (by simpa using old)
        have onward :=
          ih (List.Subset.trans kept (subset_spread_expanded aliases [action] expanded))
        rw [stays, spread_append, onward, ← spread_append, List.singleton_append]

/-!
### The loop comes to the same list

An action that waits although it is expanded has its targets behind it, as far as nothing before it
expands them: it was put there by itself, or its targets went in front of it when it was first
opened. So opening it again puts forward what comes next anyway.
-/

/-- What is left of the targets of an action, whatever more is expanded, comes next among the
    waiting actions. -/
def Resumes (aliases : Entries (List String)) (expanded : List String) (action : String)
    (behind : List String) : Prop :=
  ∃ next others, behind = next ++ others ∧ ∀ later, expanded ⊆ later →
    unexpanded later (targetsOf aliases action).reverse = unexpanded later next

/-- Each known action that waits has what is left of its targets behind it. -/
def Worklist.Resuming (aliases : Entries (List String)) (work : Worklist) : Prop :=
  ∀ before action behind, work.pending = before ++ action :: behind → action ∈ work.expanded →
    Resumes aliases (work.expanded ++ before) action behind

/-- It does not matter whether targets are turned round before or after those that are expanded are
    dropped. -/
theorem reverse_unexpanded :
    (unexpanded expanded names).reverse = unexpanded expanded names.reverse :=
  List.filter_reverse.symm

/-- Nothing is left of names that are all expanded. -/
theorem unexpanded_of_subset (old : names ⊆ expanded) : unexpanded expanded names = [] := by
  rw [unexpanded, List.filter_eq_nil_iff]
  intro name member
  simpa using old member

/-- What is left of two lists of names one after the other. -/
theorem unexpanded_append (first second : List String) :
    unexpanded expanded (first ++ second) =
      unexpanded expanded first ++ unexpanded expanded second :=
  List.filter_append _ _

/-- Names that are dropped early are dropped later as well, so only the later expansion counts. -/
theorem unexpanded_unexpanded {later : List String} (kept : expanded ⊆ later) :
    unexpanded later (unexpanded expanded names) = unexpanded later names := by
  unfold unexpanded
  rw [List.filter_filter]
  apply List.filter_congr
  intro name _
  simpa using fun new old => new (kept old)

/-- The more is expanded, the less is left of the targets, on both sides alike. -/
theorem Resumes.mono {later behind : List String} (kept : expanded ⊆ later)
    (resumes : Resumes aliases expanded action behind) : Resumes aliases later action behind := by
  obtain ⟨next, others, split, left⟩ := resumes
  exact ⟨next, others, split, fun more more' => left more (List.Subset.trans kept more')⟩

/-- Nothing is left of targets that are all expanded. -/
theorem resumes_of_subset {behind : List String} (old : targetsOf aliases action ⊆ expanded) :
    Resumes aliases expanded action behind := by
  refine ⟨[], behind, rfl, fun later kept => ?_⟩
  rw [← reverse_unexpanded, unexpanded_of_subset (List.Subset.trans old kept)]
  rfl

/-- An action among its own targets has the rest of them behind it. -/
theorem resumes_of_split {before next others : List String}
    (split : unexpanded expanded (targetsOf aliases action).reverse = before ++ action :: next) :
    Resumes aliases (expanded ++ action :: before) action (next ++ others) := by
  refine ⟨next, others, rfl, fun later kept => ?_⟩
  have old : before ++ [action] ⊆ later := by
    intro name member
    apply kept
    simp only [List.mem_append, List.mem_cons, List.not_mem_nil, or_false] at member ⊢
    rcases member with front | same
    · exact .inr (.inr front)
    · exact .inr (.inl same)
  have earlier : expanded ⊆ later :=
    List.Subset.trans (List.subset_append_left _ _) kept
  calc unexpanded later (targetsOf aliases action).reverse
      = unexpanded later (unexpanded expanded (targetsOf aliases action).reverse) :=
        (unexpanded_unexpanded earlier).symm
    _ = unexpanded later ((before ++ [action]) ++ next) := by rw [split, List.append_cons]
    _ = unexpanded later next := by
        rw [unexpanded_append, unexpanded_of_subset old, List.nil_append]

/-- A known action whose targets come next is opened in vain. -/
theorem spread_of_resumes (resumes : Resumes aliases expanded action rest) :
    spread aliases (unexpanded expanded (targetsOf aliases action).reverse ++ rest) expanded =
      spread aliases rest expanded := by
  obtain ⟨next, others, rfl, left⟩ := resumes
  have again : spread aliases next (spread aliases next expanded) = spread aliases next expanded :=
    spread_of_subset (subset_spread_pending aliases next expanded)
  rw [left expanded (List.Subset.refl _), spread_append, spread_unexpanded (List.Subset.refl _),
    spread_append, again, ← spread_append]

/-- A turn does not change what expansion comes to. -/
theorem spread_of_turns {before after : Worklist} (turn : Turns aliases before after)
    (resuming : before.Resuming aliases) :
    spread aliases after.pending after.expanded =
      spread aliases before.pending before.expanded := by
  obtain ⟨pending, expanded⟩ := before
  cases pending with
  | nil => cases turn
  | cons action rest =>
      cases turn
      simp only [reverse_unexpanded]
      by_cases old : action ∈ expanded
      · have resumes := resuming [] action rest rfl old
        rw [List.append_nil] at resumes
        rw [addLast_of_mem old, spread_of_resumes resumes, spread_cons_of_mem old]
      · have kept : expanded ⊆ expanded ++ [action] := List.subset_append_left _ _
        rw [addLast_of_not_mem old, spread_append, spread_unexpanded kept, ← spread_append,
          spread_cons_of_not_mem old]

/-- A known action that waits behind what a turn puts forward waited there before, or it is the
    action of the turn, all of whose targets are put forward or expanded. -/
theorem resumes_behind {between behind : List String}
    (resuming : Worklist.Resuming aliases ⟨action :: (between ++ name :: behind), expanded⟩)
    (waits : name ∈ addLast expanded action) :
    Resumes aliases
      (addLast expanded action ++
        (unexpanded expanded (targetsOf aliases action).reverse ++ between))
      name behind := by
  by_cases old : name ∈ expanded
  · have resumes := resuming (action :: between) name behind rfl old
    apply resumes.mono
    intro known member
    simp only [List.mem_append, List.mem_cons, mem_addLast] at member ⊢
    tauto
  · obtain rfl : name = action := (mem_addLast.mp waits).resolve_left old
    apply resumes_of_subset
    intro target member
    by_cases known : target ∈ expanded
    · simp [mem_addLast, known]
    · simp [mem_unexpanded, known, member]

/-- A known action among those that a turn puts forward is the action of the turn. -/
theorem resumes_within {front next : List String}
    (split : unexpanded expanded (targetsOf aliases action).reverse = front ++ name :: next)
    (waits : name ∈ addLast expanded action) :
    Resumes aliases (addLast expanded action ++ front) name (next ++ rest) := by
  have forward : name ∈ unexpanded expanded (targetsOf aliases action).reverse := by
    rw [split]
    simp
  have new := (mem_unexpanded.mp forward).2
  obtain rfl : name = action := (mem_addLast.mp waits).resolve_left new
  rw [addLast_of_not_mem new, List.append_assoc]
  exact resumes_of_split split

/-- A turn keeps what is left of the targets of known actions behind them. -/
theorem Worklist.Resuming.turn {before after : Worklist} (resuming : before.Resuming aliases)
    (turn : Turns aliases before after) : after.Resuming aliases := by
  obtain ⟨pending, expanded⟩ := before
  cases pending with
  | nil => cases turn
  | cons action rest =>
      cases turn
      intro front known behind split waits
      simp only [reverse_unexpanded] at split
      rcases List.append_eq_append_iff.mp split with
        ⟨between, rfl, rfl⟩ | ⟨between, opened, later⟩
      · exact resumes_behind resuming waits
      · cases between with
        | nil =>
            cases later
            have behindAll : Resumes aliases (addLast expanded action ++
                (unexpanded expanded (targetsOf aliases action).reverse ++ [])) known behind :=
              resumes_behind resuming waits
            rwa [List.append_nil, opened, List.append_nil] at behindAll
        | cons first next =>
            cases later
            exact resumes_within opened waits

/-- From where known actions have their targets behind them, the loop comes to what opening each
    alias once comes to. -/
theorem turns_spread (work : Worklist) (resuming : work.Resuming aliases) :
    Relation.ReflTransGen (Turns aliases) work ⟨[], spread aliases work.pending work.expanded⟩ := by
  induction work using (wellFounded_turns aliases).induction with
  | _ work ih =>
      obtain ⟨pending, expanded⟩ := work
      cases pending with
      | nil => rw [spread_of_subset (List.nil_subset expanded)]
      | cons action rest =>
          have turn : Turns aliases ⟨action :: rest, expanded⟩
              ⟨(unexpanded expanded (targetsOf aliases action)).reverse ++ rest,
                addLast expanded action⟩ := rfl
          have onward := ih _ turn (resuming.turn turn)
          rw [spread_of_turns turn resuming] at onward
          exact onward.head turn

/-- The loop over listed actions ends with the expanded actions, in their order. -/
theorem turns_expandActions (settings : Settings) (actions : List String) :
    Relation.ReflTransGen (Turns settings.aliases) ⟨actions.reverse, []⟩
      ⟨[], settings.expandActions actions⟩ := by
  have resuming : Worklist.Resuming settings.aliases ⟨actions.reverse, []⟩ := by
    intro before action behind _ known
    cases known
  have whole : stillClosed settings.aliases [] = settings.aliases := by
    simp [stillClosed]
  have run := turns_spread _ resuming
  simp only [spread, whole] at run
  exact run

end Permit.Settings
