import Mathlib.Data.List.DropRight
import Mathlib.Data.List.Basic
import RegEngine.Lib.Python
import RegEngine.Lib.Text

/-!
# The words of a text

The words of a text are its longest runs of characters with a property. Substituting a separator for
every run of other characters, and stripping it at both ends, leaves the words with the separator
between them.

* `stripChars_subRuns`: that text is the words, joined.
* `join_inj`: joined words without the separator determine the words.
-/

namespace Lib.Words

open Lib.Python Lib.Text

variable {p : Char → Bool} {sep : Char}

/-- The words of a text, the first of which begins with `word`. -/
def wordsFrom (p : Char → Bool) (word : List Char) : List Char → List (List Char)
  | [] => if word.isEmpty then [] else [word]
  | c :: cs =>
    if p c then wordsFrom p (word ++ [c]) cs
    else if word.isEmpty then wordsFrom p [] cs
    else word :: wordsFrom p [] cs

def words (p : Char → Bool) (s : List Char) : List (List Char) := wordsFrom p [] s

/-- The words with the separator between them. -/
def join (sep : Char) : List (List Char) → List Char
  | [] => []
  | [w] => w
  | w :: ws => w ++ sep :: join sep ws

theorem wordsFrom_mem : ∀ {s word : List Char}, (∀ c ∈ word, p c) →
    ∀ w ∈ wordsFrom p word s, w ≠ [] ∧ ∀ c ∈ w, p c
  | [], word, hword, w, hw => by
    rw [wordsFrom] at hw
    split at hw
    · cases hw
    · rename_i hne
      rw [List.mem_singleton] at hw
      subst hw
      exact ⟨by simpa using hne, hword⟩
  | c :: cs, word, hword, w, hw => by
    rw [wordsFrom] at hw
    split at hw
    · rename_i hc
      refine wordsFrom_mem (fun d hd => ?_) w hw
      rcases List.mem_append.1 hd with hd | hd
      · exact hword d hd
      · rw [List.mem_singleton] at hd
        exact hd ▸ hc
    · split at hw
      · exact wordsFrom_mem (by simp) w hw
      · rename_i hne
        rcases List.mem_cons.1 hw with rfl | hw
        · exact ⟨by simpa using hne, hword⟩
        · exact wordsFrom_mem (by simp) w hw

theorem words_mem {s w : List Char} (hw : w ∈ words p s) : w ≠ [] ∧ ∀ c ∈ w, p c :=
  wordsFrom_mem (by simp) w hw

/-! ## Joined words -/

theorem join_eq_nil : ∀ {ws : List (List Char)}, (∀ w ∈ ws, w ≠ []) → (join sep ws = [] ↔ ws = [])
  | [], _ => by simp [join]
  | [w], h => by simpa [join] using h w List.mem_cons_self
  | w :: w' :: ws, _ => by simp [join]

theorem mem_join {c : Char} : ∀ {ws : List (List Char)}, c ∈ join sep ws → c = sep ∨ ∃ w ∈ ws, c ∈ w
  | [], h => by cases h
  | [w], h => .inr ⟨w, List.mem_cons_self, h⟩
  | w :: w' :: ws, h => by
    rcases List.mem_append.1 h with h | h
    · exact .inr ⟨w, List.mem_cons_self, h⟩
    · rcases List.mem_cons.1 h with h | h
      · exact .inl h
      · exact (mem_join h).imp_right fun ⟨v, hv, hc⟩ => ⟨v, List.mem_cons_of_mem _ hv, hc⟩

/-- **Joined words determine the words**, when there are any and none has the separator in it. -/
theorem join_inj : ∀ {ws ws' : List (List Char)}, ws ≠ [] → ws' ≠ [] → (∀ w ∈ ws, sep ∉ w) →
    (∀ w ∈ ws', sep ∉ w) → join sep ws = join sep ws' → ws = ws'
  | [w], [w'], _, _, _, _, h => congrArg (fun x => [x]) h
  | [w], w' :: v' :: ws', _, _, hw, _, h => by
    have : sep ∈ join sep [w] := by rw [h]; simp [join]
    exact absurd this (hw w List.mem_cons_self)
  | w :: v :: ws, [w'], _, _, _, hw', h => by
    have : sep ∈ join sep [w'] := by rw [← h]; simp [join]
    exact absurd this (hw' w' List.mem_cons_self)
  | w :: v :: ws, w' :: v' :: ws', _, _, hw, hw', h => by
    obtain ⟨rfl, ht⟩ := append_sep_inj (hw w List.mem_cons_self) (hw' w' List.mem_cons_self) h
    rw [join_inj (List.cons_ne_nil _ _) (List.cons_ne_nil _ _)
      (fun x hx => hw x (List.mem_cons_of_mem _ hx)) (fun x hx => hw' x (List.mem_cons_of_mem _ hx))
      ht]

/-! ## Substituting the separator -/

/-- Dropping separators at the end reaches into the first part when the second is all separators. -/
theorem rdropWhile_append (q : Char → Bool) (a b : List Char) :
    (a ++ b).rdropWhile q = if b.rdropWhile q = [] then a.rdropWhile q else a ++ b.rdropWhile q := by
  induction b using List.reverseRecOn with
  | nil => simp
  | append_singleton b x ih =>
    rw [← List.append_assoc, List.rdropWhile_concat, List.rdropWhile_concat]
    by_cases hx : q x
    · rw [if_pos hx, if_pos hx, ih]
    · rw [if_neg hx, if_neg hx]
      simp

theorem rdropWhile_eq_self {q : Char → Bool} {a : List Char} (h : ∀ c ∈ a, q c = false) :
    a.rdropWhile q = a := by
  rw [List.rdropWhile_eq_self_iff]
  intro hne
  simp [h _ (List.getLast_mem hne)]

/-- The text after a word that is going on, or after a separator, without the separators at the end. -/
theorem rdropWhile_subRuns (hsep : p sep = false) : ∀ s word : List Char,
    (∀ c ∈ word, p c) →
    (word ++ subRuns (fun c => !p c) [sep] word.isEmpty s).rdropWhile (· = sep) =
      join sep (wordsFrom p word s)
  | [], word, hword => by
    have hne : ∀ c ∈ word, decide (c = sep) = false := fun c hc => by
      simpa using fun heq : c = sep => absurd (heq ▸ hword c hc) (by simp [hsep])
    rw [subRuns, List.append_nil, rdropWhile_eq_self hne, wordsFrom]
    by_cases hw : word.isEmpty
    · rw [if_pos hw, List.isEmpty_iff.1 hw]
      rfl
    · rw [if_neg hw]
      rfl
  | c :: cs, word, hword => by
    by_cases hc : p c
    · -- the word goes on
      have hword' : ∀ d ∈ word ++ [c], p d := by
        intro d hd
        rcases List.mem_append.1 hd with hd | hd
        · exact hword d hd
        · exact List.mem_singleton.1 hd ▸ hc
      have hne : (word ++ [c]).isEmpty = false := by simp
      rw [wordsFrom, if_pos hc, ← rdropWhile_subRuns hsep cs _ hword', hne]
      simp [subRuns, hc]
    · have hrec : (subRuns (fun c => !p c) [sep] true cs).rdropWhile (· = sep) =
          join sep (wordsFrom p [] cs) := rdropWhile_subRuns hsep cs [] (by simp)
      by_cases hw : word.isEmpty
      · -- no word has begun since the last separator
        rw [wordsFrom, if_neg hc, if_pos hw, ← hrec, List.isEmpty_iff.1 hw]
        simp [subRuns, hc]
      · -- the word ends here; the separator stays if another word follows
        have hne : ∀ c ∈ word, decide (c = sep) = false := fun c hc => by
          simpa using fun heq : c = sep => absurd (heq ▸ hword c hc) (by simp [hsep])
        have hsub : subRuns (fun c => !p c) [sep] word.isEmpty (c :: cs) =
            [sep] ++ subRuns (fun c => !p c) [sep] true cs := by
          simp [subRuns, hc, hw]
        have hws : ∀ w ∈ wordsFrom p [] cs, w ≠ [] := fun w hmem => (words_mem hmem).1
        rw [wordsFrom, if_neg hc, if_neg hw, hsub, rdropWhile_append _ word,
          rdropWhile_append _ [sep], hrec]
        cases hcs : wordsFrom p [] cs with
        | nil => simp [rdropWhile_eq_self hne, join, List.rdropWhile_singleton]
        | cons w ws =>
          have hjoin : join sep (w :: ws) ≠ [] := by
            rw [Ne, join_eq_nil (hcs ▸ hws)]
            exact List.cons_ne_nil _ _
          simp [join, hjoin]

/-- After a separator the text does not begin with one. -/
theorem dropWhile_subRuns (hsep : p sep = false) : ∀ s : List Char,
    (subRuns (fun c => !p c) [sep] true s).dropWhile (· = sep) =
      subRuns (fun c => !p c) [sep] true s
  | [] => rfl
  | c :: cs => by
    by_cases hc : p c
    · have hne : c ≠ sep := fun heq => by simp [heq, hsep] at hc
      simp [subRuns, hc, hne]
    · have hsub : subRuns (fun c => !p c) [sep] true (c :: cs) =
          subRuns (fun c => !p c) [sep] true cs := by simp [subRuns, hc]
      rw [hsub, dropWhile_subRuns hsep cs]

/-- **Substituting and stripping leaves the words, joined.** -/
theorem stripChars_subRuns (hsep : p sep = false) (s : List Char) :
    stripChars (· = sep) (subRuns (fun c => !p c) [sep] false s) = join sep (words p s) := by
  show List.rdropWhile _ (List.dropWhile _ _) = _
  have hfront : (subRuns (fun c => !p c) [sep] false s).dropWhile (· = sep) =
      subRuns (fun c => !p c) [sep] true s := by
    rw [← dropWhile_subRuns hsep s]
    cases s with
    | nil => rfl
    | cons c cs =>
      by_cases hc : p c
      · simp [subRuns, hc]
      · simp [subRuns, hc]
  rw [hfront]
  exact rdropWhile_subRuns hsep s [] (by simp)

end Lib.Words

/-!
## Texts that end in a delimiter

Words with a delimiter behind each, and what splitting at the delimiter gives back.

* `notMem_of_mem_splitOn`, `mem_of_mem_splitOn`: the pieces of any split.
* `splitOn_terminate_iff`: the words are given back exactly when none of them has the delimiter.
-/

namespace Lib.Delimited

variable {α : Type} {a : α}

/-- Each word with the delimiter behind it. -/
def terminate (a : α) (words : List (List α)) : List α := words.flatMap fun w => w ++ [a]

theorem terminate_cons (w : List α) (words : List (List α)) :
    terminate a (w :: words) = w ++ a :: terminate a words := by
  rw [terminate, List.flatMap_cons, List.append_assoc]
  rfl

theorem terminate_append (words words' : List (List α)) :
    terminate a (words ++ words') = terminate a words ++ terminate a words' := List.flatMap_append

variable [DecidableEq α]

/-- No piece has the delimiter. -/
theorem notMem_of_mem_splitOn {l w : List α} (h : w ∈ l.splitOn a) : a ∉ w := by
  induction l generalizing w with
  | nil =>
    rw [List.splitOn_nil, List.mem_singleton] at h
    rw [h]
    exact List.not_mem_nil
  | cons x l ih =>
    rw [List.splitOn_cons_eq_if_modifyHead] at h
    split at h
    · cases List.mem_cons.1 h with
      | inl hw =>
        rw [hw]
        exact List.not_mem_nil
      | inr hw => exact ih hw
    · rename_i hx
      cases hsplit : l.splitOn a with
      | nil => exact absurd hsplit (List.splitOn_ne_nil a l)
      | cons first rest =>
        rw [hsplit, List.modifyHead_cons] at h
        rw [hsplit] at ih
        cases List.mem_cons.1 h with
        | inl hw =>
          rw [hw, List.mem_cons, not_or]
          exact ⟨fun heq => hx (beq_iff_eq.2 heq.symm), ih List.mem_cons_self⟩
        | inr hw => exact ih (List.mem_cons_of_mem _ hw)

/-- The pieces are parts of the text. -/
theorem mem_of_mem_splitOn {l w : List α} (h : w ∈ l.splitOn a) {c : α} (hc : c ∈ w) : c ∈ l := by
  have hjoin : [a].intercalate (l.splitOn a) = l := List.intercalate_splitOn a
  rw [← hjoin, List.intercalate]
  refine List.mem_flatten.2 ⟨w, ?_, hc⟩
  generalize l.splitOn a = words at h
  induction words with
  | nil => cases h
  | cons v words ih =>
    cases words with
    | nil => exact h
    | cons v' words =>
      cases List.mem_cons.1 h with
      | inl hv => exact List.mem_cons.2 (.inl hv)
      | inr hmem => exact List.mem_cons_of_mem _ (List.mem_cons_of_mem _ (ih hmem))

/-- **The words are given back exactly when none of them has the delimiter.** -/
theorem splitOn_terminate_iff (words : List (List α)) :
    (terminate a words).splitOn a = words ++ [[]] ↔ ∀ w ∈ words, a ∉ w := by
  constructor
  · intro h w hw
    refine notMem_of_mem_splitOn (l := terminate a words) ?_
    rw [h]
    exact List.mem_append_left _ hw
  · intro h
    induction words with
    | nil => exact List.splitOn_nil a
    | cons w words ih =>
      rw [terminate_cons, List.splitOn_append_cons_self_of_not_mem (h w List.mem_cons_self),
        ih fun v hv => h v (List.mem_cons_of_mem _ hv), List.cons_append]

end Lib.Delimited
