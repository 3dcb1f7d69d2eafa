import Mathlib.Algebra.Order.BigOperators.Group.List
import RegEngine.Backtest.CandidateEvaluator
import RegEngine.Canary.Orchestrator
import RegEngine.Lib.Words

/-!
# What namespacing a policy changes

Rego ends a line at a line feed only, Python at more characters. `codeLines` are the lines that Rego reads: neither
blank nor a comment. The lines of the rewritten module are those that Python makes of each line of the module
(`codeLines_rewrite`), so namespacing changes the package alone just when each line is kept (`packageOnly_iff`).
-/

namespace RegEngine.Canary

open Lib Lib.Python Compiler Execution

/-! ## How Rego reads lines -/

/-- The blanks of Rego within a line. -/
def isRegoBlank (c : Char) : Bool := c = ' ' ∨ c = '\t' ∨ c = '\r'

/-- A line past its blanks. -/
def body (line : List Char) : List Char := line.dropWhile isRegoBlank

/-- A line that is neither blank nor a comment. -/
def isCode (line : List Char) : Bool := body line ≠ [] ∧ (body line).head? ≠ some '#'

/-- A line that declares a package. -/
def isDeclaration (line : List Char) : Bool :=
  "package".toList.isPrefixOf (body line) ∧ ((body line).drop 7).head?.any isRegoBlank

def codeLines (regoCode : String) : List (List Char) := (regoCode.toList.splitOn '\n').filter isCode

/-- A line that the rewriting takes for a declaration. -/
def isRewritten (line : List Char) : Bool := startsWith (strip (String.ofList line)) "package "

/-- The declaration of a package. -/
def declaration (package : String) : List Char := ("package " ++ package).toList

/-- The line with the package it declares replaced. -/
def withPackage (package : String) (line : List Char) : List Char :=
  if isDeclaration line then declaration package else line

/-- The module declares the package, and is otherwise the same. -/
structure PackageOnly (regoCode rewritten package : String) : Prop where
  declares : (codeLines rewritten).filter isDeclaration = [declaration package]
  rest : codeLines rewritten = (codeLines regoCode).map (withPackage package)

/-- The code that Python's lines of a line hold. -/
def pieces (line : List Char) : List (List Char) := (splitLinesFrom [] false line).filter isCode

/-- Python takes a line for what Rego does. -/
def Kept (line : List Char) : Prop :=
  if isCode line then
    if isDeclaration line then ∃ q, pieces line = [q] ∧ isRewritten q = true
    else pieces line = [line] ∧ isRewritten line = false
  else pieces line = []

/-- The module has one declaration, and each of its lines is kept. -/
structure KeepsLines (regoCode : String) : Prop where
  declaresOnce : ((codeLines regoCode).filter isDeclaration).length = 1
  kept : ∀ line ∈ regoCode.toList.splitOn '\n', Kept line

/-! ## Python's lines of Rego's lines -/

section Lines

variable {β : Type} {g : List Char → List β}

/-- Up to empty lines, Python's lines past a line feed are those of what follows. -/
theorem flatMap_splitLinesFrom (hg : g [] = []) (b : List Char) : ∀ (a line : List Char) (afterReturn : Bool),
    '\n' ∉ a → (afterReturn = true → line = []) →
    (splitLinesFrom line afterReturn (a ++ '\n' :: b)).flatMap g =
      (splitLinesFrom line afterReturn a).flatMap g ++ (splitLinesFrom [] false b).flatMap g := by
  intro a
  induction a with
  | nil =>
    intro line afterReturn _ hline
    rw [List.nil_append, splitLinesFrom, splitLinesFrom]
    cases afterReturn with
    | true =>
      rw [hline rfl, if_pos ⟨rfl, rfl⟩]
      rfl
    | false =>
      rw [if_neg (by simp), if_pos (by decide), List.flatMap_cons, show decide ('\n' = '\r') = false by decide]
      cases line with
      | nil =>
        rw [hg]
        rfl
      | cons c line =>
        rw [if_neg (by simp), List.flatMap_cons, List.flatMap_nil, List.append_nil]
  | cons c a ih =>
    intro line afterReturn hnl hline
    obtain ⟨hc, hnl⟩ := not_or.1 (mt List.mem_cons.2 hnl)
    have hreturn : ¬ (afterReturn = true ∧ c = '\n') := fun h => hc h.2.symm
    rw [List.cons_append, splitLinesFrom, splitLinesFrom, if_neg hreturn, if_neg hreturn]
    by_cases hbreak : isLineBreak c = true
    · rw [if_pos hbreak, if_pos hbreak, List.flatMap_cons, List.flatMap_cons, List.append_assoc,
        ih [] _ hnl fun _ => rfl]
    · rw [if_neg hbreak, if_neg hbreak]
      exact ih _ false hnl fun h => by cases h

/-- Up to empty lines, Python's lines of a text are those of its lines. -/
theorem flatMap_splitLines (hg : g [] = []) (s : List Char) :
    (splitLinesFrom [] false s).flatMap g =
      (s.splitOn '\n').flatMap fun line => (splitLinesFrom [] false line).flatMap g := by
  have hjoin : ['\n'].intercalate (s.splitOn '\n') = s := List.intercalate_splitOn '\n'
  have hfree : ∀ line ∈ s.splitOn '\n', '\n' ∉ line := fun line h => Delimited.notMem_of_mem_splitOn h
  conv_lhs => rw [← hjoin]
  generalize s.splitOn '\n' = lines at hfree
  induction lines with
  | nil => rfl
  | cons line lines ih =>
    cases lines with
    | nil =>
      rw [List.flatMap_cons, List.flatMap_nil, List.append_nil]
      simp
    | cons next lines =>
      have hrest := ih fun l hl => hfree l (List.mem_cons_of_mem _ hl)
      rw [List.flatMap_cons, ← hrest, List.intercalate_cons_cons, List.append_assoc]
      exact flatMap_splitLinesFrom hg _ line [] false (hfree line List.mem_cons_self) fun h => by cases h

/-- A text without line breaks is one line of Python's. -/
theorem splitLinesFrom_of_no_break : ∀ s line : List Char, (∀ c ∈ s, isLineBreak c = false) → line ++ s ≠ [] →
    splitLinesFrom line false s = [line ++ s] := by
  intro s
  induction s with
  | nil =>
    intro line _ hne
    rw [List.append_nil] at hne ⊢
    rw [splitLinesFrom, if_neg (by simpa using hne)]
  | cons c s ih =>
    intro line hbreak _
    rw [splitLinesFrom, if_neg (by simp), if_neg (by simp [hbreak c List.mem_cons_self]),
      ih _ (fun d hd => hbreak d (List.mem_cons_of_mem _ hd)) (by simp), List.append_assoc]
    rfl

/-- No line of Python's has a line break. -/
theorem no_break_of_mem : ∀ (s line : List Char) (afterReturn : Bool), (∀ c ∈ line, isLineBreak c = false) →
    ∀ l ∈ splitLinesFrom line afterReturn s, ∀ c ∈ l, isLineBreak c = false := by
  intro s
  induction s with
  | nil =>
    intro line afterReturn hline l hl
    rw [splitLinesFrom] at hl
    split at hl
    · cases hl
    · rw [List.mem_singleton.1 hl]
      exact hline
  | cons c s ih =>
    intro line afterReturn hline l hl
    have hnil : ∀ d ∈ ([] : List Char), isLineBreak d = false := fun d hd => by cases hd
    rw [splitLinesFrom] at hl
    by_cases hreturn : afterReturn = true ∧ c = '\n'
    · rw [if_pos hreturn] at hl
      exact ih [] false hnil l hl
    · rw [if_neg hreturn] at hl
      by_cases hbreak : isLineBreak c = true
      · rw [if_pos hbreak] at hl
        cases hl with
        | head => exact hline
        | tail _ hl => exact ih [] _ hnil l hl
      · rw [if_neg hbreak] at hl
        refine ih _ false (fun d hd => ?_) l hl
        obtain hd | hd := List.mem_append.1 hd
        · exact hline d hd
        · rw [List.mem_singleton.1 hd]
          exact Bool.eq_false_iff.2 hbreak

/-- Lists of which the parts of one are no longer than those of the other agree part by part. -/
theorem eq_of_flatMap_eq {α : Type} {f h : α → List β} {l : List α} (hle : ∀ x ∈ l, (h x).length ≤ (f x).length)
    (heq : l.flatMap f = l.flatMap h) : ∀ x ∈ l, f x = h x := by
  induction l with
  | nil => exact fun x hx => by cases hx
  | cons a l ih =>
    rw [List.flatMap_cons, List.flatMap_cons] at heq
    have hrest : (l.flatMap h).length ≤ (l.flatMap f).length := by
      rw [List.length_flatMap, List.length_flatMap]
      exact List.sum_le_sum fun x hx => hle x (List.mem_cons_of_mem _ hx)
    have hlengths := congrArg List.length heq
    rw [List.length_append, List.length_append] at hlengths
    have hfirst := hle a List.mem_cons_self
    obtain ⟨ha, htail⟩ := List.append_inj heq (by omega)
    exact List.forall_mem_cons.2 ⟨ha, ih (fun x hx => hle x (List.mem_cons_of_mem _ hx)) htail⟩

end Lines

/-! ## Code and declarations -/

variable {regoCode package : String} {line : List Char}

theorem isCode_iff : isCode line = true ↔ body line ≠ [] ∧ (body line).head? ≠ some '#' := decide_eq_true_iff

theorem isCode_nil : isCode [] = false := by decide

theorem isCode_of_isDeclaration (h : isDeclaration line = true) : isCode line = true := by
  obtain ⟨hpre, -⟩ := decide_eq_true_iff.1 h
  obtain ⟨rest, hrest⟩ := List.isPrefixOf_iff_prefix.1 hpre
  rw [isCode_iff, ← hrest]
  exact ⟨by simp, by simp⟩

/-- Past Python's blanks are Rego's. -/
theorem dropWhile_body (line : List Char) : (body line).dropWhile isSpace = line.dropWhile isSpace := by
  unfold body
  induction line with
  | nil => rfl
  | cons c line ih =>
    by_cases hc : isRegoBlank c = true
    · have hspace : isSpace c = true := by
        have hcases : c = ' ' ∨ c = '\t' ∨ c = '\r' := decide_eq_true_iff.1 hc
        rcases hcases with rfl | rfl | rfl
        all_goals decide
      rw [List.dropWhile_cons_of_pos hc, List.dropWhile_cons_of_pos hspace, ih]
    · rw [List.dropWhile_cons_of_neg hc]

/-- What is stripped begins as the line does. -/
theorem strip_isPrefixOf (line : List Char) : stripChars isSpace line <+: line.dropWhile isSpace := by
  unfold stripChars
  have hsuffix : (line.dropWhile isSpace).reverse.dropWhile isSpace <:+ (line.dropWhile isSpace).reverse :=
    List.dropWhile_suffix _
  have hpre := List.reverse_prefix.2 hsuffix
  rwa [List.reverse_reverse] at hpre

theorem isRewritten_iff : isRewritten line = true ↔ "package ".toList <+: stripChars isSpace line := by
  unfold isRewritten strip
  rw [startsWith_iff]
  simp only [String.toList_ofList]

theorem isCode_of_isRewritten (h : isRewritten line = true) : isCode line = true := by
  have hpre := (isRewritten_iff.1 h).trans (strip_isPrefixOf line)
  rw [← dropWhile_body] at hpre
  rw [isCode_iff]
  refine ⟨fun hnil => ?_, fun hhash => ?_⟩
  · rw [hnil] at hpre
    exact absurd (List.prefix_nil.1 hpre) (by simp)
  · obtain ⟨rest, hrest⟩ := List.head?_eq_some_iff.1 hhash
    rw [hrest, List.dropWhile_cons_of_neg (by decide)] at hpre
    obtain ⟨t, ht⟩ := hpre
    have hhead := congrArg List.head? ht
    simp at hhead

theorem body_declaration (package : String) : body (declaration package) = declaration package := by
  unfold body declaration
  rw [String.toList_append]
  rfl

theorem isDeclaration_declaration (package : String) : isDeclaration (declaration package) = true := by
  unfold isDeclaration
  rw [body_declaration]
  unfold declaration
  rw [String.toList_append]
  rfl

/-- The line that the rewriting makes of a line. -/
def rewrittenLine (package : String) (line : List Char) : List Char :=
  if isRewritten line then declaration package else line

theorem isCode_rewrittenLine (line : List Char) : isCode (rewrittenLine package line) = isCode line := by
  unfold rewrittenLine
  by_cases h : isRewritten line = true
  · rw [if_pos h, isCode_of_isRewritten h, isCode_of_isDeclaration (isDeclaration_declaration package)]
  · rw [if_neg h]

theorem isDeclaration_withPackage (line : List Char) :
    isDeclaration (withPackage package line) = isDeclaration line := by
  unfold withPackage
  by_cases h : isDeclaration line = true
  · rw [if_pos h, h, isDeclaration_declaration]
  · rw [if_neg h]

/-! ## The rewritten module -/

theorem toList_rewritePackageDeclaration (regoCode package : String) :
    (rewritePackageDeclaration regoCode package).toList =
      ['\n'].intercalate ((splitLinesFrom [] false regoCode.toList).map (rewrittenLine package)) := by
  unfold rewritePackageDeclaration rewritePackage splitLines
  have hsep : "\n".toList = ['\n'] := rfl
  rw [String.toList_intercalate, List.map_map, List.map_map, hsep]
  refine congrArg _ (List.map_congr_left fun line _ => ?_)
  unfold rewrittenLine isRewritten declaration
  rw [Function.comp_apply, Function.comp_apply, apply_ite String.toList, String.toList_ofList]

/-- The code of the lines that Python makes of a text. -/
theorem filter_splitLines (s : List Char) :
    (splitLinesFrom [] false s).filter isCode = (s.splitOn '\n').flatMap pieces := by
  have hfilter : ∀ ls : List (List Char), ls.flatMap (fun l => [l].filter isCode) = ls.filter isCode := by
    intro ls
    induction ls with
    | nil => rfl
    | cons l ls ih => rw [List.flatMap_cons, ih, ← List.filter_append, List.singleton_append]
  have hnil : (fun l => [l].filter isCode) [] = [] := List.filter_cons_of_neg (by decide)
  have hlines : (splitLinesFrom [] false s).flatMap (fun l => [l].filter isCode) = (s.splitOn '\n').flatMap
      fun line => (splitLinesFrom [] false line).flatMap fun l => [l].filter isCode := flatMap_splitLines hnil s
  rw [hfilter] at hlines
  rw [hlines]
  exact List.flatMap_congr fun line _ => hfilter _

/-- Its lines of code are those that Python makes of each line of the module. -/
theorem codeLines_rewrite (h : '\n' ∉ package.toList) :
    codeLines (rewritePackageDeclaration regoCode package) =
      (regoCode.toList.splitOn '\n').flatMap fun line => (pieces line).map (rewrittenLine package) := by
  have hsame : isCode ∘ rewrittenLine package = isCode := by
    funext line
    rw [Function.comp_apply, isCode_rewrittenLine]
  have hlines : ((splitLinesFrom [] false regoCode.toList).map (rewrittenLine package)).filter isCode =
      (regoCode.toList.splitOn '\n').flatMap fun line => (pieces line).map (rewrittenLine package) := by
    rw [List.filter_map, hsame, filter_splitLines, List.map_flatMap]
  unfold codeLines
  rw [toList_rewritePackageDeclaration, ← hlines]
  have hfree : ∀ l ∈ (splitLinesFrom [] false regoCode.toList).map (rewrittenLine package), '\n' ∉ l := by
    intro l hl hmem
    obtain ⟨q, hq, rfl⟩ := List.mem_map.1 hl
    unfold rewrittenLine declaration at hmem
    split at hmem
    · rw [String.toList_append] at hmem
      obtain hmem | hmem := List.mem_append.1 hmem
      · exact absurd hmem (by decide)
      · exact h hmem
    · have hbreak := no_break_of_mem _ [] false (fun d hd => by cases hd) q hq _ hmem
      exact absurd hbreak (by decide)
  generalize (splitLinesFrom [] false regoCode.toList).map (rewrittenLine package) = ls at hfree
  cases ls with
  | nil => rfl
  | cons l ls => rw [List.splitOn_intercalate '\n' hfree (List.cons_ne_nil l ls)]

/-! ## Packages -/

/-- A text that begins with no blank keeps what it begins with up to a character that is none. -/
theorem isPrefix_stripChars {a b : List Char} {c : Char} (hhead : ∀ d ∈ a.head?, isSpace d = false)
    (hne : a ≠ []) (hc : isSpace c = false) : a ++ [c] <+: stripChars isSpace (a ++ c :: b) := by
  have hdrop : (a ++ c :: b).dropWhile isSpace = a ++ c :: b := by
    cases a with
    | nil => exact absurd rfl hne
    | cons d a => exact List.dropWhile_cons_of_neg (by simp [hhead d rfl])
  have hkeep : ∀ x : List Char, ∃ y, (x ++ c :: a.reverse).dropWhile isSpace = y ++ c :: a.reverse := by
    intro x
    induction x with
    | nil => exact ⟨[], List.dropWhile_cons_of_neg (by simp [hc])⟩
    | cons d x ih =>
      by_cases hd : isSpace d = true
      · rw [List.cons_append, List.dropWhile_cons_of_pos hd]
        exact ih
      · exact ⟨d :: x, List.dropWhile_cons_of_neg hd⟩
  unfold stripChars
  rw [hdrop]
  obtain ⟨y, hy⟩ := hkeep b.reverse
  have hreverse : (a ++ c :: b).reverse = b.reverse ++ c :: a.reverse := by simp
  rw [hreverse, hy]
  exact ⟨y.reverse, by simp⟩

/-- The declaration of a canary's package is one to Python. -/
theorem isRewritten_canaryPackage (canaryId package : String) :
    isRewritten (declaration (canaryPackage canaryId package)) = true := by
  have htext : declaration (canaryPackage canaryId package) = "package ".toList ++ 'c' ::
      ("anary.".toList ++ (replace "-" "_" canaryId ++ "." ++ package).toList) := by
    unfold declaration canaryPackage
    rw [String.toList_append, String.toList_append]
    rfl
  rw [isRewritten_iff, htext]
  refine (List.prefix_append _ ['c']).trans (isPrefix_stripChars (fun d hd => ?_) (by simp) (by decide))
  rw [show "package ".toList.head? = some 'p' from rfl] at hd
  rw [← Option.some.inj hd]
  decide

/-- The line that is being read goes on. -/
theorem exists_line_of_prefix : ∀ s line : List Char, line ≠ [] → ∃ l ∈ splitLinesFrom line false s, line <+: l := by
  intro s
  induction s with
  | nil =>
    intro line hne
    rw [splitLinesFrom, if_neg (by simpa using hne)]
    exact ⟨line, List.mem_singleton_self line, List.prefix_refl line⟩
  | cons c s ih =>
    intro line hne
    rw [splitLinesFrom, if_neg (by simp)]
    by_cases hbreak : isLineBreak c = true
    · rw [if_pos hbreak]
      exact ⟨line, List.mem_cons_self, List.prefix_refl line⟩
    · rw [if_neg hbreak]
      obtain ⟨l, hl, hpre⟩ := ih (line ++ [c]) (by simp)
      exact ⟨l, hl, (List.prefix_append line [c]).trans hpre⟩

/-- Past the blanks of Rego, Python reads code where Rego does. -/
theorem exists_code {c : Char} {s : List Char} (hbreak : isLineBreak c = false) (hblank : isRegoBlank c = false)
    (hhash : c ≠ '#') : ∀ (blanks line : List Char) (afterReturn : Bool), (∀ d ∈ blanks, isRegoBlank d = true) →
    (∀ d ∈ line, isRegoBlank d = true) →
    ∃ l ∈ splitLinesFrom line afterReturn (blanks ++ c :: s), isCode l = true := by
  have hnl : c ≠ '\n' := by
    intro h
    rw [h] at hbreak
    exact absurd hbreak (by decide)
  intro blanks
  induction blanks with
  | nil =>
    intro line afterReturn _ hline
    rw [List.nil_append, splitLinesFrom, if_neg fun h => hnl h.2, if_neg (by simp [hbreak])]
    obtain ⟨l, hl, t, rfl⟩ := exists_line_of_prefix s (line ++ [c]) (by simp)
    refine ⟨_, hl, ?_⟩
    have hbody : body (line ++ [c] ++ t) = c :: t := by
      unfold body
      rw [List.append_assoc, List.dropWhile_append_of_pos hline]
      exact List.dropWhile_cons_of_neg (by simp [hblank])
    rw [isCode_iff, hbody]
    exact ⟨by simp, by simpa using hhash⟩
  | cons d blanks ih =>
    intro line afterReturn hblanks hline
    have hd := hblanks d List.mem_cons_self
    have hrest := fun e he => hblanks e (List.mem_cons_of_mem _ he)
    have hdnl : d ≠ '\n' := by
      intro h
      rw [h] at hd
      exact absurd hd (by decide)
    rw [List.cons_append, splitLinesFrom, if_neg fun h => hdnl h.2]
    by_cases hdbreak : isLineBreak d = true
    · rw [if_pos hdbreak]
      obtain ⟨l, hl, hcode⟩ := ih [] _ hrest fun e he => by cases he
      exact ⟨l, List.mem_cons_of_mem _ hl, hcode⟩
    · rw [if_neg hdbreak]
      refine ih _ false hrest fun e he => ?_
      obtain he | he := List.mem_append.1 he
      · exact hline e he
      · rwa [List.mem_singleton.1 he]

/-- A line of Rego that declares a package is code to Python too. -/
theorem pieces_ne_nil (h : isDeclaration line = true) : pieces line ≠ [] := by
  obtain ⟨hpre, -⟩ := decide_eq_true_iff.1 h
  obtain ⟨t, ht⟩ := List.isPrefixOf_iff_prefix.1 hpre
  have hline : line = line.takeWhile isRegoBlank ++ 'p' :: ("ackage".toList ++ t) := by
    have hwhole := List.takeWhile_append_dropWhile (p := isRegoBlank) (l := line)
    rw [show line.dropWhile isRegoBlank = body line from rfl, ← ht] at hwhole
    exact hwhole.symm
  have hblanks : ∀ d ∈ line.takeWhile isRegoBlank, isRegoBlank d = true := fun d hd => List.mem_takeWhile_imp hd
  obtain ⟨l, hl, hcode⟩ := exists_code (c := 'p') (s := "ackage".toList ++ t) (by decide) (by decide) (by decide) _ []
    false hblanks fun d hd => by cases hd
  rw [← hline] at hl
  exact List.ne_nil_of_mem (List.mem_filter.2 ⟨hl, hcode⟩)

/-- The lines of a module as its own lines of code. -/
theorem map_codeLines (regoCode package : String) :
    (codeLines regoCode).map (withPackage package) =
      (regoCode.toList.splitOn '\n').flatMap fun line => if isCode line then [withPackage package line] else [] := by
  unfold codeLines
  generalize regoCode.toList.splitOn '\n' = lines
  induction lines with
  | nil => rfl
  | cons line lines ih =>
    rw [List.flatMap_cons]
    by_cases h : isCode line = true
    · rw [List.filter_cons_of_pos h, List.map_cons, ih, if_pos h]
      rfl
    · rw [List.filter_cons_of_neg h, ih, if_neg h]
      rfl

theorem filter_map_withPackage (package : String) (lines : List (List Char)) :
    (lines.map (withPackage package)).filter isDeclaration =
      List.replicate (lines.filter isDeclaration).length (declaration package) := by
  induction lines with
  | nil => rfl
  | cons line lines ih =>
    rw [List.map_cons]
    by_cases h : isDeclaration line = true
    · rw [List.filter_cons_of_pos (by rw [isDeclaration_withPackage, h]), List.filter_cons_of_pos h, ih]
      unfold withPackage
      rw [if_pos h]
      rfl
    · rw [List.filter_cons_of_neg (by rwa [isDeclaration_withPackage]), List.filter_cons_of_neg h, ih]

/-- The rewritten lines of a line that is kept. -/
theorem map_pieces_of_kept (package : String) (h : Kept line) :
    (pieces line).map (rewrittenLine package) = if isCode line then [withPackage package line] else [] := by
  unfold Kept at h
  by_cases hcode : isCode line = true
  · rw [if_pos hcode] at h ⊢
    by_cases hdecl : isDeclaration line = true
    · rw [if_pos hdecl] at h
      obtain ⟨q, hq, hrewritten⟩ := h
      rw [hq, List.map_singleton, rewrittenLine, if_pos hrewritten, withPackage, if_pos hdecl]
    · rw [if_neg hdecl] at h
      rw [h.1, List.map_singleton, rewrittenLine, if_neg (by simp [h.2]), withPackage, if_neg hdecl]
  · rw [if_neg hcode] at h ⊢
    rw [h, List.map_nil]

/-- Conversely for a line that, unless it declares the package, is one of Python's. -/
theorem kept_of_map_pieces (canaryId package : String)
    (hbreak : isCode line = true → isDeclaration line = false → pieces line = [line])
    (h : (pieces line).map (rewrittenLine (canaryPackage canaryId package)) =
      if isCode line then [withPackage (canaryPackage canaryId package) line] else []) : Kept line := by
  unfold Kept
  by_cases hcode : isCode line = true
  · rw [if_pos hcode] at h ⊢
    by_cases hdecl : isDeclaration line = true
    · rw [if_pos hdecl]
      rw [withPackage, if_pos hdecl] at h
      obtain ⟨q, hq, hline⟩ := List.map_eq_singleton_iff.1 h
      refine ⟨q, hq, ?_⟩
      by_contra hnot
      rw [rewrittenLine, if_neg hnot] at hline
      rw [hline] at hnot
      exact hnot (isRewritten_canaryPackage canaryId package)
    · rw [if_neg hdecl]
      have hdecl := Bool.eq_false_iff.2 hdecl
      have hpieces := hbreak hcode hdecl
      refine ⟨hpieces, Bool.eq_false_iff.2 fun hrewritten => ?_⟩
      rw [hpieces, List.map_singleton, rewrittenLine, if_pos hrewritten, withPackage, if_neg (by simp [hdecl])] at h
      rw [← (List.cons.inj h).1, isDeclaration_declaration] at hdecl
      cases hdecl
  · rw [if_neg hcode] at h ⊢
    exact List.map_eq_nil_iff.1 h

/-- A line of code without a line break is one of Python's. -/
theorem pieces_of_no_break (hcode : isCode line = true) (h : ∀ c ∈ line, isLineBreak c = false) :
    pieces line = [line] := by
  have hne : [] ++ line ≠ [] := by
    intro hnil
    rw [List.nil_append] at hnil
    rw [hnil, isCode_nil] at hcode
    cases hcode
  unfold pieces
  rw [splitLinesFrom_of_no_break line [] h hne, List.nil_append]
  exact List.filter_cons_of_pos hcode

/-- A line of code that is no declaration comes out of the rewriting only if it is one of Python's. -/
theorem pieces_of_rest (hnl : '\n' ∉ package.toList)
    (h : codeLines (rewritePackageDeclaration regoCode package) = (codeLines regoCode).map (withPackage package))
    (hline : line ∈ regoCode.toList.splitOn '\n') (hcode : isCode line = true) (hdecl : isDeclaration line = false) :
    pieces line = [line] := by
  have hmem : line ∈ (codeLines regoCode).map (withPackage package) := by
    refine List.mem_map.2 ⟨line, List.mem_filter.2 ⟨hline, hcode⟩, ?_⟩
    rw [withPackage, if_neg (by simp [hdecl])]
  rw [← h, codeLines_rewrite hnl] at hmem
  obtain ⟨other, -, hmem⟩ := List.mem_flatMap.1 hmem
  obtain ⟨q, hq, heq⟩ := List.mem_map.1 hmem
  unfold rewrittenLine at heq
  split at heq
  · rw [← heq, isDeclaration_declaration] at hdecl
    cases hdecl
  · refine pieces_of_no_break hcode ?_
    rw [← heq]
    exact no_break_of_mem _ [] false (fun d hd => by cases hd) q (List.mem_of_mem_filter hq)

/-- What a module keeps of which namespacing changes the package alone. -/
theorem keepsLines_of_packageOnly {candidate : CompiledRego} {canaryId : String}
    (h : PackageOnly candidate.regoCode (namespaced canaryId candidate).regoCode
      (namespaced canaryId candidate).package) :
    '\n' ∉ (canaryPackage canaryId candidate.package).toList ∧ KeepsLines candidate.regoCode := by
  have hnl : '\n' ∉ (canaryPackage canaryId candidate.package).toList := by
    have hmem : declaration (canaryPackage canaryId candidate.package) ∈
        (codeLines (namespaced canaryId candidate).regoCode).filter isDeclaration := by
      rw [h.declares]
      exact List.mem_singleton_self _
    have hfree := Delimited.notMem_of_mem_splitOn (List.mem_of_mem_filter (List.mem_of_mem_filter hmem))
    unfold declaration at hfree
    rw [String.toList_append] at hfree
    exact fun hc => hfree (List.mem_append_right _ hc)
  have hrest : codeLines (rewritePackageDeclaration candidate.regoCode (canaryPackage canaryId candidate.package)) =
      (codeLines candidate.regoCode).map (withPackage (canaryPackage canaryId candidate.package)) := h.rest
  have honce : ((codeLines candidate.regoCode).filter isDeclaration).length = 1 := by
    have hlength := congrArg List.length h.declares
    rwa [h.rest, filter_map_withPackage, List.length_replicate] at hlength
  refine ⟨hnl, honce, fun line hline => kept_of_map_pieces canaryId
    candidate.package (pieces_of_rest hnl hrest hline) ?_⟩
  have hlines := hrest
  rw [codeLines_rewrite hnl, map_codeLines] at hlines
  refine eq_of_flatMap_eq (fun l hl => ?_) hlines line hline
  by_cases hcode : isCode l = true
  · rw [if_pos hcode, List.length_map]
    cases hdecl : isDeclaration l with
    | true => exact List.length_pos_iff.2 (pieces_ne_nil hdecl)
    | false =>
      rw [pieces_of_rest hnl hrest hl hcode hdecl]
      exact le_rfl
  · rw [if_neg hcode]
    exact Nat.zero_le _

/-- **Namespacing changes the package alone** just when each line of the module is kept. -/
theorem packageOnly_iff (candidate : CompiledRego) (canaryId : String) :
    PackageOnly candidate.regoCode (namespaced canaryId candidate).regoCode (namespaced canaryId candidate).package ↔
      '\n' ∉ (namespaced canaryId candidate).package.toList ∧ KeepsLines candidate.regoCode := by
  constructor
  · intro h
    exact keepsLines_of_packageOnly h
  · intro h
    obtain ⟨hnl, hkeeps⟩ := h
    have hnl : '\n' ∉ (canaryPackage canaryId candidate.package).toList := hnl
    have hrest : codeLines (rewritePackageDeclaration candidate.regoCode (canaryPackage canaryId candidate.package)) =
        (codeLines candidate.regoCode).map (withPackage (canaryPackage canaryId candidate.package)) := by
      rw [codeLines_rewrite hnl, map_codeLines]
      exact List.flatMap_congr fun line hline => map_pieces_of_kept _ (hkeeps.kept line hline)
    refine ⟨?_, hrest⟩
    show (codeLines (rewritePackageDeclaration candidate.regoCode _)).filter isDeclaration = _
    rw [hrest, filter_map_withPackage, hkeeps.declaresOnce]
    rfl

/-- With no line break but line feeds, only Python's reading of declarations matters. -/
theorem keepsLines_of_lineFeeds (hbreak : ∀ c ∈ regoCode.toList, isLineBreak c = true → c = '\n')
    (hsame : ∀ line ∈ codeLines regoCode, isRewritten line = isDeclaration line)
    (honce : ((codeLines regoCode).filter isDeclaration).length = 1) : KeepsLines regoCode := by
  refine ⟨honce, fun line hline => ?_⟩
  have hfree : ∀ c ∈ line, isLineBreak c = false := by
    intro c hc
    by_contra hbroken
    have hnl := hbreak c (Delimited.mem_of_mem_splitOn hline hc) (Bool.not_eq_false _ ▸ hbroken)
    rw [hnl] at hc
    exact Delimited.notMem_of_mem_splitOn hline hc
  unfold Kept
  by_cases hcode : isCode line = true
  · rw [if_pos hcode]
    have hpieces := pieces_of_no_break hcode hfree
    have hread := hsame line (List.mem_filter.2 ⟨hline, hcode⟩)
    by_cases hdecl : isDeclaration line = true
    · rw [if_pos hdecl]
      exact ⟨line, hpieces, by rw [hread, hdecl]⟩
    · rw [if_neg hdecl]
      exact ⟨hpieces, by rw [hread, Bool.eq_false_iff.2 hdecl]⟩
  · rw [if_neg hcode]
    unfold pieces
    cases line with
    | nil => rfl
    | cons c line =>
      rw [splitLinesFrom_of_no_break (c :: line) [] hfree (by simp), List.nil_append]
      exact List.filter_cons_of_neg hcode

/-- An OPA that reads of a module with one declaration its package and its other lines of code, and answers the
queries of a rule of that package alike under any name. -/
def ReadsCode (opa : Backtest.Opa) : Prop :=
  ∀ a b, (codeLines a).map (withPackage "") = (codeLines b).map (withPackage "") →
    ((codeLines a).filter isDeclaration).length = 1 → ∀ rule input, opa.eval a rule input = opa.eval b rule input

/-- Such an OPA decides by the namespaced policy as by the candidate. -/
theorem decision_namespaced {opa : Backtest.Opa} (hopa : ReadsCode opa) {candidate : CompiledRego} {canaryId : String}
    (h : PackageOnly candidate.regoCode (namespaced canaryId candidate).regoCode
      (namespaced canaryId candidate).package) (input : Json) :
    opa.decision (namespaced canaryId candidate).regoCode input = opa.decision candidate.regoCode input := by
  have htwice : ∀ package line, withPackage "" (withPackage package line) = withPackage "" line := by
    intro package line
    unfold withPackage
    by_cases hdecl : isDeclaration line = true
    · rw [if_pos hdecl, if_pos (isDeclaration_declaration package)]
      exact if_pos hdecl ▸ rfl
    · rw [if_neg hdecl]
  have hsame : (codeLines (namespaced canaryId candidate).regoCode).map (withPackage "") =
      (codeLines candidate.regoCode).map (withPackage "") := by
    rw [h.rest, List.map_map]
    exact List.map_congr_left fun line _ => htwice _ line
  unfold Backtest.Opa.decision
  rw [hopa _ _ hsame (by rw [h.declares]; rfl)]

/-- A metric with a line separator in it. -/
def separatedMetric : ExtractedComplianceRule where
  ruleId := "r"
  sourceSha256 := "c1"
  deterministicLogic :=
    [{ metric := "net\u2028worth", canonicalFact := some "net_worth_inr_crore", operator := .gte
       value := ⟨5, 0, Decimal.shortest_five⟩, unit := "crore", upperRequiresRange := no_valueUpper }]
  obligationType := .mandatory

/-- What follows the separator in a comment is code of the rewritten module. -/
theorem not_forall_packageOnly :
    ¬ ∀ rule ruleVersion generatedAt candidate canaryId, compileRuleToRego rule ruleVersion generatedAt = .ok candidate →
      PackageOnly candidate.regoCode (namespaced canaryId candidate).regoCode
        (namespaced canaryId candidate).package := by
  intro h
  have hparts : ∃ p, regoParts separatedMetric = .ok p := ⟨_, rfl⟩
  obtain ⟨p, hp⟩ := hparts
  have hcompiled : compileRuleToRego separatedMetric 1 (.ofInstant 0 (by decide)) =
      .ok (compiledRego separatedMetric 1 (.ofInstant 0 (by decide)) p) := by
    unfold compileRuleToRego
    rw [hp]
    rfl
  obtain ⟨-, hkeeps⟩ := keepsLines_of_packageOnly (h _ _ _ _ "1" hcompiled)
  have hline : "# title: net\u2028worth Compliance Rule".toList ∈
      (compiledRego separatedMetric 1 (.ofInstant 0 (by decide)) p).regoCode.toList.splitOn '\n' := by
    have hlines : ∃ l rest, regoLines separatedMetric 1 (.ofInstant 0 (by decide)) p =
        "# METADATA" :: "# title: net\u2028worth Compliance Rule" :: l :: rest := ⟨_, _, rfl⟩
    obtain ⟨l, rest, hlines⟩ := hlines
    have hsep : "\n".toList = ['\n'] := rfl
    unfold compiledRego
    dsimp only
    rw [hlines, String.toList_intercalate, hsep, List.map_cons, List.map_cons, List.map_cons,
      List.intercalate_cons_cons, List.intercalate_cons_cons, List.append_assoc, List.append_assoc,
      List.singleton_append, List.singleton_append, List.splitOn_append_cons_self_of_not_mem (by decide),
      List.splitOn_append_cons_self_of_not_mem (by decide)]
    exact List.mem_cons_of_mem _ List.mem_cons_self
  have hkept := hkeeps.kept _ hline
  unfold Kept at hkept
  rw [if_neg (by decide)] at hkept
  have hpieces : pieces "# title: net\u2028worth Compliance Rule".toList = ["worth Compliance Rule".toList] := by decide
  rw [hpieces] at hkept
  cases hkept

end RegEngine.Canary
