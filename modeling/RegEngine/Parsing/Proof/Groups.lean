import RegEngine.Parsing.Chunker

/-!
# Groups of elements

`Grouped`: what the loop of `_group_by_clause` keeps. The groups and the open one are the elements read so
far, in order; the headings of the open group have the running clause number.
-/

namespace RegEngine.Parsing

/-- A clause or a section header. -/
def DocumentElement.IsHeading (el : DocumentElement) : Prop :=
  el.kind = .clause ∨ el.kind = .sectionHeader

/-- All headings of the group have one clause number. -/
def OneClause (group : List DocumentElement) : Prop :=
  ∀ a ∈ group, ∀ b ∈ group, a.IsHeading → b.IsHeading → a.clauseNumber = b.clauseNumber

structure Grouped (seen : List DocumentElement) (g : Grouping) : Prop where
  flatten : g.groups.flatten ++ g.current = seen
  nonempty : ∀ group ∈ g.groups, group ≠ []
  oneClause : ∀ group ∈ g.groups, OneClause group
  /-- The headings of the open group have the running number. -/
  current : ∀ el ∈ g.current, el.IsHeading → el.clauseNumber = g.currentClause

theorem oneClause_of_forall {group : List DocumentElement} {number : Option String}
    (h : ∀ el ∈ group, el.IsHeading → el.clauseNumber = number) : OneClause group :=
  fun a ha b hb hah hbh => (h a ha hah).trans (h b hb hbh).symm

variable {seen : List DocumentElement} {g : Grouping} {el : DocumentElement}

/-- The element goes on the open group. -/
theorem Grouped.attach (h : Grouped seen g) {number : Option String}
    (hcurrent : ∀ e ∈ g.current, e.IsHeading → e.clauseNumber = number)
    (hel : el.IsHeading → el.clauseNumber = number) :
    Grouped (seen ++ [el]) { g with current := g.current ++ [el], currentClause := number } where
  flatten := by rw [← h.flatten, List.append_assoc]
  nonempty := h.nonempty
  oneClause := h.oneClause
  current e he := by
    rcases List.mem_append.1 he with he | he
    · exact hcurrent e he
    · cases List.mem_singleton.1 he
      exact hel

/-- The open group is closed, and the element opens the next one. -/
theorem Grouped.close (h : Grouped seen g) (hne : g.current ≠ []) :
    Grouped (seen ++ [el])
      { groups := g.groups ++ [g.current], current := [el], currentClause := el.clauseNumber } where
  flatten := by simp [← h.flatten]
  nonempty group hgroup := by
    rcases List.mem_append.1 hgroup with hgroup | hgroup
    · exact h.nonempty group hgroup
    · cases List.mem_singleton.1 hgroup
      exact hne
  oneClause group hgroup := by
    rcases List.mem_append.1 hgroup with hgroup | hgroup
    · exact h.oneClause group hgroup
    · cases List.mem_singleton.1 hgroup
      exact oneClause_of_forall h.current
  current e he _ := by rw [List.mem_singleton.1 he]

/-- A footnote with no group open is a group of its own. -/
theorem Grouped.alone (h : Grouped seen g) (hnil : g.current = []) (hel : ¬ el.IsHeading) :
    Grouped (seen ++ [el]) { g with groups := g.groups ++ [[el]] } where
  flatten := by simp [← h.flatten, hnil]
  nonempty group hgroup := by
    rcases List.mem_append.1 hgroup with hgroup | hgroup
    · exact h.nonempty group hgroup
    · simp [List.mem_singleton.1 hgroup]
  oneClause group hgroup := by
    rcases List.mem_append.1 hgroup with hgroup | hgroup
    · exact h.oneClause group hgroup
    · cases List.mem_singleton.1 hgroup
      intro a ha _ _ hah
      exact absurd (List.mem_singleton.1 ha ▸ hah) hel
  current := h.current

theorem grouped_groupStep (h : Grouped seen g) (el : DocumentElement) :
    Grouped (seen ++ [el]) (groupStep g el) := by
  have hopen : ∀ (hne : g.current ≠ []) (hel : ¬ el.IsHeading),
      Grouped (seen ++ [el]) { g with current := g.current ++ [el] } :=
    fun _ hel => h.attach h.current fun hheading => absurd hheading hel
  have hstart : g.current = [] →
      Grouped (seen ++ [el]) { g with current := [el], currentClause := el.clauseNumber } := by
    intro hnil
    have hattach : Grouped (seen ++ [el])
        { g with current := g.current ++ [el], currentClause := el.clauseNumber } :=
      h.attach (by simp [hnil]) fun _ => rfl
    rwa [hnil, List.nil_append] at hattach
  unfold groupStep
  cases hkind : el.kind with
  | footnote =>
    have hel : ¬ el.IsHeading := by simp [DocumentElement.IsHeading, hkind]
    by_cases hne : g.current = []
    · simp only [if_neg (not_not.2 hne)]
      exact h.alone hne hel
    · simp only [if_pos hne]
      exact hopen hne hel
  | clause | sectionHeader =>
    by_cases hclose : el.clauseNumber ≠ g.currentClause ∧ g.current ≠ []
    · simp only [if_pos hclose]
      exact h.close hclose.2
    · simp only [if_neg hclose]
      refine h.attach (fun e he hheading => ?_) fun _ => rfl
      -- the open group has a heading, so it stays open because the number is the running one
      have hsame : el.clauseNumber = g.currentClause := by
        by_contra hne
        exact hclose ⟨hne, List.ne_nil_of_mem he⟩
      rw [hsame]
      exact h.current e he hheading
  | title | narrativeText | table | listItem | uncategorized =>
    have hel : ¬ el.IsHeading := by simp [DocumentElement.IsHeading, hkind]
    by_cases hne : g.current = []
    · simp only [if_neg (not_not.2 hne)]
      exact hstart hne
    · simp only [if_pos hne]
      exact hopen hne hel

theorem grouped_foldl (h : Grouped seen g) (elements : List DocumentElement) :
    Grouped (seen ++ elements) (elements.foldl groupStep g) := by
  induction elements generalizing seen g with
  | nil => simpa using h
  | cons el elements ih =>
    have := ih (grouped_groupStep h el)
    rwa [List.append_assoc, List.singleton_append] at this

/-- The groups are the elements in order, cut into non-empty parts with one clause number each. -/
theorem groups_partition (elements : List DocumentElement) :
    (groupByClause elements).flatten = elements ∧
      (∀ group ∈ groupByClause elements, group ≠ []) ∧
      ∀ group ∈ groupByClause elements, OneClause group := by
  have hempty : Grouped [] {} := ⟨rfl, by simp, by simp, by simp⟩
  have h : Grouped elements (elements.foldl groupStep {}) := grouped_foldl hempty elements
  unfold groupByClause
  by_cases hnil : (elements.foldl groupStep {}).current = []
  · simp only [hnil, ne_eq, not_true_eq_false, ↓reduceIte]
    refine ⟨?_, h.nonempty, h.oneClause⟩
    have := h.flatten
    rwa [hnil, List.append_nil] at this
  · simp only [hnil, ne_eq, not_false_eq_true, ↓reduceIte]
    refine ⟨by simpa using h.flatten, fun group hgroup => ?_, fun group hgroup => ?_⟩
    · rcases List.mem_append.1 hgroup with hgroup | hgroup
      · exact h.nonempty group hgroup
      · rw [List.mem_singleton.1 hgroup]
        exact hnil
    · rcases List.mem_append.1 hgroup with hgroup | hgroup
      · exact h.oneClause group hgroup
      · rw [List.mem_singleton.1 hgroup]
        exact oneClause_of_forall h.current

end RegEngine.Parsing

/-!
## Paths of clauses

The stack is pruned by level alone. A clause is put upon the last earlier one of a lower level, so its path
is a chain of ancestors exactly when that one is an ancestor each time.
-/

namespace RegEngine.Parsing

open Lib

/-- The label is a proper prefix of the other one, cut at a dot. -/
def Ancestor (a b : String) : Prop := ∃ rest, b.toList = a.toList ++ '.' :: rest

/-- The number of dots of a label, and one. -/
def labelDepth (a : String) : Nat := a.toList.count '.' + 1

theorem Ancestor.trans {a b c : String} (hab : Ancestor a b) (hbc : Ancestor b c) : Ancestor a c := by
  obtain ⟨rest, hb⟩ := hab
  obtain ⟨rest', hc⟩ := hbc
  exact ⟨rest ++ '.' :: rest', by rw [hc, hb, List.append_assoc, List.cons_append]⟩

theorem Ancestor.depth_lt {a b : String} (h : Ancestor a b) : labelDepth a < labelDepth b := by
  obtain ⟨rest, hb⟩ := h
  unfold labelDepth
  rw [hb, List.count_append, List.count_cons_self]
  omega

/-- Of two ancestors the less deep one is an ancestor of the other. -/
theorem Ancestor.of_depth_lt {a b c : String} (ha : Ancestor a c) (hb : Ancestor b c)
    (h : labelDepth a < labelDepth b) : Ancestor a b := by
  obtain ⟨rest, hc⟩ := ha
  obtain ⟨rest', hc'⟩ := hb
  rcases List.append_eq_append_iff.1 (hc.symm.trans hc') with ⟨m, hm, hrest⟩ | ⟨m, hm, hrest⟩
  · cases m with
    | nil =>
      rw [List.append_nil] at hm
      simp [labelDepth, hm] at h
    | cons c m =>
      obtain ⟨rfl, -⟩ := List.cons.inj hrest
      exact ⟨m, hm⟩
  · unfold labelDepth at h
    rw [hm, List.count_append] at h
    omega

/-- The path of a clause: its label, preceded by labels of ancestors in increasing depth. -/
def AncestorPath (number : String) (path : List String) : Prop :=
  ∃ ancestors, path = ancestors ++ [number] ∧ (∀ a ∈ ancestors, Ancestor a number) ∧
    ancestors.Pairwise fun a b => labelDepth a < labelDepth b

theorem ancestorPath_iff {number : String} {ancestors : List String} :
    AncestorPath number (ancestors ++ [number]) ↔ (ancestors ++ [number]).Pairwise Ancestor := by
  rw [List.pairwise_append]
  constructor
  · rintro ⟨as, heq, hall, hdepth⟩
    obtain ⟨rfl, -⟩ := List.append_inj' heq rfl
    refine ⟨hdepth.imp_of_mem fun ha hb h => (hall _ ha).of_depth_lt (hall _ hb) h,
      List.pairwise_singleton _ _, fun a ha b hb => ?_⟩
    rw [List.mem_singleton.1 hb]
    exact hall a ha
  · rintro ⟨hpairwise, -, hall⟩
    exact ⟨ancestors, rfl, fun a ha => hall a ha number (List.mem_singleton_self number),
      hpairwise.imp fun h => h.depth_lt⟩

/-! ### Runs -/

/-- The numbered calls. -/
def numbered (calls : List (Option String × Int)) : List (String × Int) :=
  calls.filterMap fun call => call.1.map fun number => (number, call.2)

theorem stack_run (calls : List (Option String × Int)) :
    (HierarchyTracker.run calls).stack = LevelStack.pushAll (·.2) (numbered calls) := by
  induction calls using List.reverseRecOn with
  | nil => rfl
  | append_singleton calls call ih =>
    have hrun : HierarchyTracker.run (calls ++ [call]) =
        (HierarchyTracker.run calls).update call.1 call.2 := by
      rw [HierarchyTracker.run, List.foldl_append]
      rfl
    have hnumbered : numbered (calls ++ [call]) = numbered calls ++ numbered [call] :=
      List.filterMap_append
    obtain ⟨number, depth⟩ := call
    rw [hrun, hnumbered]
    cases number with
    | none => rw [show numbered [(none, depth)] = [] from rfl, List.append_nil, ← ih]; rfl
    | some number =>
      rw [show numbered [(some number, depth)] = [(number, depth)] from rfl,
        LevelStack.pushAll_concat, ← ih]
      rfl

theorem numbered_append (pre post : List (Option String × Int)) :
    numbered (pre ++ post) = numbered pre ++ numbered post := List.filterMap_append

/-- A numbered call is a call with a number. -/
theorem exists_call_of_numbered {calls : List (Option String × Int)} {pre : List (String × Int)}
    {number : String} {depth : Int} (h : pre ++ [(number, depth)] <+: numbered calls) :
    ∃ pre', numbered pre' = pre ∧ pre' ++ [(some number, depth)] <+: calls := by
  obtain ⟨post, hpost⟩ := h
  rw [List.append_assoc] at hpost
  obtain ⟨l₁, l₂, rfl, hpre, htail⟩ := List.filterMap_eq_append_iff.1 hpost.symm
  obtain ⟨skipped, ⟨number', depth'⟩, rest, rfl, hskipped, hcall, -⟩ := List.filterMap_eq_cons_iff.1 htail
  obtain ⟨n, rfl, heq⟩ := Option.map_eq_some_iff.1 hcall
  cases heq
  have hnone : numbered skipped = [] := List.filterMap_eq_nil_iff.2 hskipped
  refine ⟨l₁ ++ skipped, ?_, ⟨rest, by simp⟩⟩
  rw [numbered_append, hnone, List.append_nil]
  exact hpre

/-- The path of the clause that a call is for. -/
theorem ancestorPath_concat_iff (pre : List (Option String × Int)) (number : String) (depth : Int) :
    AncestorPath number (HierarchyTracker.run (pre ++ [(some number, depth)])).currentPath ↔
      (LevelStack.pushAll (·.2) (numbered pre ++ [(number, depth)])).Pairwise
        fun a b => Ancestor a.1 b.1 := by
  have hnumbered : numbered (pre ++ [(some number, depth)]) = numbered pre ++ [(number, depth)] :=
    numbered_append pre [(some number, depth)]
  rw [HierarchyTracker.currentPath, stack_run, hnumbered, LevelStack.pushAll_concat, List.map_append,
    List.map_singleton, ancestorPath_iff]
  generalize LevelStack.below (fun e : String × Int => e.2) _ _ = stack
  rw [show stack.map (·.1) ++ [number] = (stack ++ [(number, depth)]).map (·.1) by simp, List.pairwise_map]

/-- The last clause of a lower level among some calls. -/
def lastLower (depth : Int) (calls : List (Option String × Int)) : Option (String × Int) :=
  (numbered calls).reverse.find? fun e => e.2 < depth

/-- **When all paths are chains of ancestors**: when the last clause of a lower level, if there is one, is
an ancestor of the clause each time. -/
theorem ancestor_paths_iff (calls : List (Option String × Int)) :
    (∀ pre number depth, pre ++ [(some number, depth)] <+: calls →
      AncestorPath number (HierarchyTracker.run (pre ++ [(some number, depth)])).currentPath) ↔
    ∀ pre number depth, pre ++ [(some number, depth)] <+: calls →
      ∀ e ∈ lastLower depth pre, Ancestor e.1 number := by
  have hstacks := LevelStack.pairwise_pushAll_iff (fun e : String × Int => e.2)
    (r := fun a b => Ancestor a.1 b.1) (fun _ _ _ => Ancestor.trans) (numbered calls)
  have hbegin : ∀ {pre : List (Option String × Int)} {number : String} {depth : Int},
      pre ++ [(some number, depth)] <+: calls →
        numbered pre ++ [(number, depth)] <+: numbered calls := by
    rintro pre number depth ⟨post, rfl⟩
    rw [numbered_append, numbered_append]
    exact List.prefix_append _ _
  constructor
  · intro hpaths pre number depth hpre
    refine hstacks.1 (fun stack hstack => ?_) (numbered pre) (number, depth) (hbegin hpre)
    rcases List.eq_nil_or_concat' stack with rfl | ⟨stack, ⟨number, depth⟩, rfl⟩
    · exact List.Pairwise.nil
    · obtain ⟨pre, rfl, hpre⟩ := exists_call_of_numbered hstack
      exact (ancestorPath_concat_iff pre number depth).1 (hpaths pre number depth hpre)
  · intro hlast pre number depth hpre
    rw [ancestorPath_concat_iff]
    refine hstacks.2 (fun stack e hstack => ?_) _ (hbegin hpre)
    obtain ⟨pre, rfl, hpre⟩ := exists_call_of_numbered hstack
    exact hlast pre e.1 e.2 hpre

/-- **A clause whose parent is missing**: clause `2.1.b` after clause `1`. -/
theorem not_forall_ancestor_paths : ¬ ∀ (calls : List (Option String × Int)) pre number depth,
    pre ++ [(some number, depth)] <+: calls →
      AncestorPath number (HierarchyTracker.run (pre ++ [(some number, depth)])).currentPath := by
  intro h
  have hpath := h [(some "1", 1), (some "2.1.b", 3)] [(some "1", 1)] "2.1.b" 3 (List.prefix_refl _)
  rw [ancestorPath_concat_iff] at hpath
  have hstack : LevelStack.pushAll (fun e : String × Int => e.2)
      (numbered [(some "1", 1)] ++ [("2.1.b", 3)]) = [("1", 1), ("2.1.b", 3)] := by decide
  rw [hstack] at hpath
  obtain ⟨rest, hrest⟩ := List.rel_of_pairwise_cons hpath (List.mem_singleton_self _)
  cases hrest

end RegEngine.Parsing
