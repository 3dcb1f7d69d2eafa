import RegEngine.Parsing.Chunker
import Mathlib.Tactic.SplitIfs

/-!
# Fragments of a long text

`pieces`: the fragments the loop of `_split_long_text` still makes, from its buffer and the sentences
that are left. Each has at most `max_chars` characters, and begins with some of the last characters of
the one before it.

* `Cut`: the characters of the fragments without what they repeat.
* `cut_pieces`: with a positive overlap a fragment repeats at most that many characters.
* `length_solid_pieces`: without one, nothing is repeated as long as no block is cut short.
* `split_lossless_iff`: when splitting a text loses and doubles nothing.
-/

namespace RegEngine.Parsing

open Lib Lib.Python

/-! ## Solid characters -/

/-- The characters of a text that are not white space. -/
def solid (s : List Char) : List Char := s.filter fun c => !isSpace c

@[simp] theorem solid_nil : solid [] = [] := rfl

@[simp] theorem solid_append (a b : List Char) : solid (a ++ b) = solid a ++ solid b :=
  List.filter_append ..

theorem solid_cons_space (s : List Char) : solid (' ' :: s) = solid s := rfl

theorem solid_dropWhile (s : List Char) : solid (s.dropWhile isSpace) = solid s := by
  induction s with
  | nil => rfl
  | cons c s ih =>
    by_cases hc : isSpace c
    · simpa [List.dropWhile_cons, hc, solid] using ih
    · simp [hc]

theorem solid_stripChars (s : List Char) : solid (stripChars isSpace s) = solid s := by
  have hreverse : ∀ t : List Char, solid t.reverse = (solid t).reverse := fun t => by
    simp [solid]
  rw [stripChars, hreverse, solid_dropWhile, hreverse, List.reverse_reverse, solid_dropWhile]

theorem solid_joinStripped (a b : List Char) : solid (joinStripped a b) = solid a ++ solid b := by
  rw [joinStripped, solid_stripChars, solid_append, solid_cons_space]

/-- The last character, if there is one, is solid. -/
def EndsSolid (s : List Char) : Prop := ∀ c ∈ s.getLast?, isSpace c = false

theorem endsSolid_stripChars (s : List Char) : EndsSolid (stripChars isSpace s) := by
  intro c hc
  rw [stripChars, List.getLast?_reverse] at hc
  have hhead := List.head?_dropWhile_not isSpace (s.dropWhile isSpace).reverse
  rw [Option.mem_def.1 hc] at hhead
  exact hhead

theorem solid_ne_nil_of_ends {s : List Char} (h : EndsSolid s) (hne : s ≠ []) : solid s ≠ [] := by
  have hlast := h (s.getLast hne) (List.getLast?_eq_some_getLast hne)
  exact List.ne_nil_of_mem (List.mem_filter.2 ⟨List.getLast_mem hne, by simp [hlast]⟩)

theorem EndsSolid.drop {s : List Char} (h : EndsSolid s) (n : Nat) : EndsSolid (s.drop n) := by
  intro c hc
  rw [List.getLast?_drop] at hc
  split at hc
  · cases hc
  · exact h c hc

theorem dropWhile_ne_nil {s : List Char} (h : solid s ≠ []) : s.dropWhile isSpace ≠ [] := by
  intro hnil
  rw [← solid_dropWhile, hnil] at h
  exact h rfl

/-- What stripping leaves of a text in two parts, the second of which is not blank. -/
theorem stripChars_append (a : List Char) {b : List Char} (hb : solid b ≠ []) :
    ∃ q r, stripChars isSpace (a ++ b) = q ++ r ∧ q <:+ a ∧ solid r = solid b := by
  have hright : ∀ (q : List Char) {b' : List Char}, solid b' ≠ [] →
      ((q ++ b').reverse.dropWhile isSpace).reverse = q ++ (b'.reverse.dropWhile isSpace).reverse := by
    intro q b' hb'
    have hne : b'.reverse.dropWhile isSpace ≠ [] := dropWhile_ne_nil (by simpa [solid] using hb')
    rw [List.reverse_append, List.dropWhile_append, if_neg (by simpa using hne), List.reverse_append,
      List.reverse_reverse]
  have hsolid : ∀ b' : List Char, solid (b'.reverse.dropWhile isSpace).reverse = solid b' := by
    intro b'
    have h := solid_dropWhile b'.reverse
    simp only [solid, List.filter_reverse] at h ⊢
    rw [h, List.reverse_reverse]
  unfold stripChars
  rw [List.dropWhile_append]
  split
  · refine ⟨[], _, ?_, List.nil_suffix, (hsolid _).trans (solid_dropWhile b)⟩
    exact hright [] (by rwa [solid_dropWhile])
  · exact ⟨a.dropWhile isSpace, _, hright _ hb, List.dropWhile_suffix _, hsolid b⟩

/-! ## Sentences -/

theorem solid_sentencesFrom : ∀ (cs cur : List Char) (gap : Option (List Char)),
    (∀ g ∈ gap, solid g = []) → solid (sentencesFrom cur gap cs).flatten = solid cur ++ solid cs
  | [], cur, gap, hgap => by
    cases gap with
    | none => simp [sentencesFrom]
    | some g => simp [sentencesFrom, hgap g rfl]
  | c :: cs, cur, gap, hgap => by
    have hcs : solid (c :: cs) = solid [c] ++ solid cs := solid_append [c] cs
    unfold sentencesFrom
    split
    · split
      · rename_i hspace
        have hc : solid [c] = [] := by simp [solid, hspace.1]
        rw [solid_sentencesFrom cs _ _ fun g hg => by cases hg; exact hc, hcs, hc, List.nil_append]
      · rw [solid_sentencesFrom cs _ _ (by simp), hcs, solid_append, List.append_assoc]
    · rename_i space
      have hg := hgap space rfl
      split_ifs with hspace hcut
      · have hc : solid [c] = [] := by simp [solid, hspace]
        rw [solid_sentencesFrom cs _ _ fun g hg' => by cases hg'; rw [solid_append, hg, hc]; rfl, hcs, hc,
          List.nil_append]
      · rw [List.flatten_cons, solid_append, solid_sentencesFrom cs _ _ (by simp), hcs]
      · rw [solid_sentencesFrom cs _ _ (by simp), hcs, solid_append, solid_append, hg,
          List.append_nil, List.append_assoc]

theorem sentencesFrom_ne_nil : ∀ (cs cur : List Char) (gap : Option (List Char)),
    sentencesFrom cur gap cs ≠ []
  | [], _, _ => by simp [sentencesFrom]
  | c :: cs, cur, gap => by
    unfold sentencesFrom
    split
    · split
      · exact sentencesFrom_ne_nil cs _ _
      · exact sentencesFrom_ne_nil cs _ _
    · split_ifs
      · exact sentencesFrom_ne_nil cs _ _
      · exact List.cons_ne_nil _ _
      · exact sentencesFrom_ne_nil cs _ _

/-- A sentence begins with a solid character, but for the first one. -/
theorem solid_of_mem_sentences : ∀ (cs cur : List Char) (gap : Option (List Char)),
    (solid cur ≠ [] → ∀ s ∈ sentencesFrom cur gap cs, solid s ≠ []) ∧
      ∀ s ∈ (sentencesFrom cur gap cs).tail, solid s ≠ []
  | [], cur, gap => by simp +contextual [sentencesFrom]
  | c :: cs, cur, gap => by
    unfold sentencesFrom
    split
    · split
      · exact solid_of_mem_sentences cs _ _
      · obtain ⟨hall, htail⟩ := solid_of_mem_sentences cs (cur ++ [c]) none
        exact ⟨fun h => hall (by simp [h]), htail⟩
    · rename_i space
      split_ifs with hspace hcut
      · exact solid_of_mem_sentences cs _ _
      · have hc : solid [c] ≠ [] := by simp [solid, hspace]
        have hall := (solid_of_mem_sentences cs [c] none).1 hc
        exact ⟨fun h => List.forall_mem_cons.2 ⟨h, hall⟩, hall⟩
      · obtain ⟨hall, htail⟩ := solid_of_mem_sentences cs (cur ++ space ++ [c]) none
        exact ⟨fun h => hall (by simp [h]), htail⟩

/-- A sentence ends in a mark, but for the last one. -/
theorem ends_of_mem_sentences : ∀ (cs cur : List Char) (gap : Option (List Char)),
    (gap ≠ none → EndsSolid cur) → ∀ s ∈ (sentencesFrom cur gap cs).dropLast, EndsSolid s
  | [], cur, gap, _ => by simp [sentencesFrom]
  | c :: cs, cur, gap, hgap => by
    unfold sentencesFrom
    split
    · split
      · rename_i hcut
        refine ends_of_mem_sentences cs _ _ fun _ e he => ?_
        have hmark := hcut.2
        rw [Option.mem_def.1 he] at hmark
        rcases of_decide_eq_true hmark with rfl | rfl | rfl <;> rfl
      · exact ends_of_mem_sentences cs _ _ (by simp)
    · rename_i space
      split_ifs with hspace hcut
      · exact ends_of_mem_sentences cs _ _ fun _ => hgap (by simp)
      · rw [List.dropLast_cons_of_ne_nil (sentencesFrom_ne_nil cs _ _)]
        exact List.forall_mem_cons.2 ⟨hgap (by simp), ends_of_mem_sentences cs _ _ (by simp)⟩
      · exact ends_of_mem_sentences cs _ _ (by simp)

/-! ## Pieces -/

/-- A text in pieces of `n` characters. -/
def chop (n : Nat) (s : List Char) : List (List Char) :=
  (List.range ((s.length + n - 1) / n)).map fun i => (s.drop (i * n)).take n

theorem wrap_eq {n : Int} (hn : 1 ≤ n) (s : List Char) : wrap n s = .ok (chop n.toNat s) := by
  unfold wrap
  rw [if_neg (by omega), if_neg (by omega)]
  rfl

theorem chop_cons {n : Nat} (hn : 0 < n) {s : List Char} (hs : s ≠ []) :
    chop n s = s.take n :: chop n (s.drop n) := by
  have hlen := List.length_pos_iff.2 hs
  have hcount : (s.length + n - 1) / n = ((s.drop n).length + n - 1) / n + 1 := by
    rw [List.length_drop]
    by_cases hle : n ≤ s.length
    · rw [show s.length + n - 1 = (s.length - n + n - 1) + n by omega, Nat.add_div_right _ hn]
    · rw [show s.length - n + n - 1 = n - 1 by omega, Nat.div_eq_of_lt (by omega : n - 1 < n),
        show s.length + n - 1 = (s.length - 1) + n by omega, Nat.add_div_right _ hn,
        Nat.div_eq_of_lt (by omega)]
  unfold chop
  rw [hcount, List.range_succ_eq_map, List.map_cons, List.map_map]
  congr 1
  · simp
  · refine List.map_congr_left fun i _ => ?_
    rw [Function.comp, List.drop_drop, Nat.succ_mul, Nat.add_comm]

theorem chop_nil {n : Nat} (hn : 0 < n) : chop n [] = [] := by
  unfold chop
  rw [List.length_nil, Nat.zero_add, Nat.div_eq_of_lt (by omega)]
  rfl

theorem length_le_of_mem_chop {n : Nat} {s f : List Char} (h : f ∈ chop n s) : f.length ≤ n := by
  obtain ⟨i, -, rfl⟩ := List.mem_map.1 h
  exact List.length_take_le ..

/-- The buffer with a sentence added. -/
def packed (buf sentence : List Char) : List Char :=
  if buf ≠ [] then joinStripped buf sentence else sentence

/-- The fragment a buffer is closed to. -/
def closed (buf : List Char) : List (List Char) := if buf ≠ [] then [buf] else []

/-- The next buffer: the end of the old one, and the sentence. -/
def seeded (overlapChars : Int) (buf sentence : List Char) : List Char :=
  packed (if buf ≠ [] then tailChars overlapChars buf else []) sentence

/-- The fragments from a buffer and the sentences that are left. -/
def pieces (maxChars overlapChars : Int) : List Char → List (List Char) → List (List Char)
  | buf, [] => closed buf
  | buf, sentence :: rest =>
    if (packed buf sentence).length ≤ maxChars then
      pieces maxChars overlapChars (packed buf sentence) rest
    else
      closed buf ++
        if maxChars < (seeded overlapChars buf sentence).length then
          chop maxChars.toNat (seeded overlapChars buf sentence) ++ pieces maxChars overlapChars [] rest
        else pieces maxChars overlapChars (seeded overlapChars buf sentence) rest

section
variable {M k : Int}

theorem append_closed (fragments : List (List Char)) (buf : List Char) :
    (if buf ≠ [] then fragments ++ [buf] else fragments) = fragments ++ closed buf := by
  unfold closed
  split <;> simp

theorem splitFrom_eq (hM : 1 ≤ M) : ∀ (rest : List (List Char)) (fragments : List (List Char))
    (buf : List Char), splitFrom M k fragments buf rest = .ok (fragments ++ pieces M k buf rest)
  | [], fragments, buf => congrArg Except.ok (append_closed fragments buf)
  | s :: rest, fragments, buf => by
    show (if (packed buf s).length ≤ M then splitFrom M k fragments (packed buf s) rest
      else if M < (seeded k buf s).length then
        wrap M (seeded k buf s) >>= fun pieces =>
          splitFrom M k ((if buf ≠ [] then fragments ++ [buf] else fragments) ++ pieces) [] rest
      else splitFrom M k (if buf ≠ [] then fragments ++ [buf] else fragments) (seeded k buf s) rest) = _
    rw [append_closed, pieces]
    split
    · exact splitFrom_eq hM rest _ _
    · split
      · rw [wrap_eq hM]
        show splitFrom M k _ [] rest = _
        rw [splitFrom_eq hM rest, List.append_assoc, List.append_assoc]
      · rw [splitFrom_eq hM rest, List.append_assoc]

theorem length_le_of_mem_pieces (hM : 1 ≤ M) : ∀ (rest : List (List Char)) {buf : List Char},
    buf.length ≤ M → ∀ f ∈ pieces M k buf rest, f.length ≤ M
  | rest, buf, hbuf, f, hf => by
    have hclosed : f ∈ closed buf → f.length ≤ M := by
      intro hf
      unfold closed at hf
      split at hf
      · rwa [List.mem_singleton.1 hf]
      · cases hf
    cases rest with
    | nil => exact hclosed hf
    | cons s rest =>
      rw [pieces] at hf
      split at hf
      · exact length_le_of_mem_pieces hM rest ‹_› f hf
      · rcases List.mem_append.1 hf with hf | hf
        · exact hclosed hf
        · split at hf
          · rcases List.mem_append.1 hf with hf | hf
            · have := length_le_of_mem_chop hf
              omega
            · exact length_le_of_mem_pieces hM rest (by simp; omega) f hf
          · exact length_le_of_mem_pieces hM rest (by omega) f hf

/-! ## What fragments repeat -/

/-- The solid characters of fragments, each without a prefix of at most `k` characters that ends the
fragment before it. -/
inductive Cut (k : Nat) : List Char → List (List Char) → List Char → Prop
  | nil (prev : List Char) : Cut k prev [] []
  | cons {prev p r : List Char} {fs : List (List Char)} {ns : List Char} : p <:+ prev → p.length ≤ k →
      Cut k (p ++ r) fs ns → Cut k prev ((p ++ r) :: fs) (solid r ++ ns)

theorem Cut.append {n : Nat} {prev : List Char} {fs gs : List (List Char)} {ns ms : List Char}
    (h : Cut n prev fs ns) (hrest : ∀ prev, Cut n prev gs ms) : Cut n prev (fs ++ gs) (ns ++ ms) := by
  induction h with
  | nil prev => exact hrest prev
  | cons hp hlen _ ih =>
    rw [List.append_assoc]
    exact .cons hp hlen ih

/-- A buffer is closed to a fragment, and the rest goes on from there. -/
theorem Cut.close {n : Nat} {prev p r : List Char} {gs : List (List Char)} {ns : List Char}
    (hp : p <:+ prev) (hlen : p.length ≤ n)
    (hrest : ∀ prev, (p ++ r ≠ [] → prev = p ++ r) → Cut n prev gs ns) :
    Cut n prev (closed (p ++ r) ++ gs) (solid r ++ ns) := by
  unfold closed
  split
  · exact .cons hp hlen (hrest _ fun _ => rfl)
  · rename_i hnil
    obtain ⟨-, rfl⟩ := List.append_eq_nil_iff.1 (not_not.1 hnil)
    exact hrest prev fun h => absurd h hnil

/-- Nothing need be removed. -/
theorem cut_plain (n : Nat) : ∀ (fs : List (List Char)) (prev : List Char),
    Cut n prev fs (solid fs.flatten)
  | [], prev => .nil prev
  | f :: fs, prev => by
    rw [List.flatten_cons, solid_append]
    exact .cons (p := []) List.nil_suffix (Nat.zero_le _) (cut_plain n fs f)

theorem cut_zero_iff {prev : List Char} {fs : List (List Char)} {ns : List Char} :
    Cut 0 prev fs ns ↔ ns = solid fs.flatten := by
  constructor
  · intro h
    induction h with
    | nil prev => rfl
    | @cons prev p r fs ns hp hlen _ ih =>
      obtain rfl := List.eq_nil_of_length_eq_zero (Nat.le_zero.1 hlen)
      rw [List.flatten_cons, solid_append, ← ih]
      rfl
  · rintro rfl
    exact cut_plain 0 fs prev

theorem flatten_chop {n : Nat} (hn : 0 < n) : ∀ s : List Char, (chop n s).flatten = s := by
  intro s
  induction hlen : s.length using Nat.strong_induction_on generalizing s with
  | _ m ih =>
    by_cases hs : s = []
    · rw [hs, chop_nil hn]
      rfl
    · have hpos := List.length_pos_iff.2 hs
      rw [chop_cons hn hs, List.flatten_cons, ih (s.drop n).length (by rw [List.length_drop]; omega) _ rfl,
        List.take_append_drop]

/-- A chopped text repeats what its first piece does. -/
theorem cut_chop {n m : Nat} (hn : 0 < n) {prev p r : List Char} (hp : p <:+ prev) (hlen : p.length ≤ m)
    (hfit : p.length ≤ n) (hne : p ++ r ≠ []) : Cut m prev (chop n (p ++ r)) (solid r) := by
  have htake : (p ++ r).take n = p ++ r.take (n - p.length) := by
    rw [List.take_append, List.take_of_length_le hfit]
  have hdrop : (p ++ r).drop n = r.drop (n - p.length) := by
    rw [List.drop_append, List.drop_eq_nil_of_le hfit, List.nil_append]
  have hsolid : solid r = solid (r.take (n - p.length)) ++ solid (chop n (r.drop (n - p.length))).flatten := by
    rw [flatten_chop hn, ← solid_append, List.take_append_drop]
  rw [chop_cons hn hne, htake, hdrop, hsolid]
  exact .cons hp hlen (cut_plain m _ _)

/-! ## With an overlap -/

theorem tailChars_suffix (n : Int) (s : List Char) : tailChars n s <:+ s := by
  unfold tailChars
  split
  · exact List.drop_suffix _ _
  · exact List.drop_suffix _ _

theorem length_tailChars_le (hk : 1 ≤ k) (s : List Char) : (tailChars k s).length ≤ k.toNat := by
  unfold tailChars
  rw [if_pos (by omega), List.length_drop]
  omega

/-- A buffer and a sentence: the buffer may lose white space in front. -/
theorem packed_split {p r s : List Char} (hs : p ++ r ≠ [] → solid s ≠ []) :
    ∃ q r', packed (p ++ r) s = q ++ r' ∧ q <:+ p ∧ solid r' = solid r ++ solid s := by
  unfold packed
  split
  · rename_i hbuf
    have hb : solid (r ++ ' ' :: s) ≠ [] := by
      rw [solid_append, solid_cons_space]
      exact List.append_ne_nil_of_right_ne_nil _ (hs hbuf)
    obtain ⟨q, r', heq, hq, hr'⟩ := stripChars_append p hb
    refine ⟨q, r', ?_, hq, by rw [hr', solid_append, solid_cons_space]⟩
    rw [joinStripped, List.append_assoc, heq]
  · rename_i hnil
    obtain ⟨-, rfl⟩ := List.append_eq_nil_iff.1 (not_not.1 hnil)
    exact ⟨[], s, rfl, List.nil_suffix, rfl⟩

/-- The next buffer begins with an end of the old one. -/
theorem seeded_split (hk : 1 ≤ k) {buf s : List Char} (hs : buf ≠ [] → solid s ≠ []) :
    ∃ p r, seeded k buf s = p ++ r ∧ p <:+ buf ∧ p.length ≤ k.toNat ∧ solid r = solid s := by
  unfold seeded
  split
  · rename_i hbuf
    obtain ⟨p, r, heq, hp, hr⟩ := packed_split (p := tailChars k buf) (r := []) fun _ => hs hbuf
    rw [List.append_nil] at heq
    exact ⟨p, r, heq, hp.trans (tailChars_suffix k buf),
      hp.length_le.trans (length_tailChars_le hk buf), hr⟩
  · exact ⟨[], s, rfl, List.nil_suffix, Nat.zero_le _, rfl⟩

/-- **With an overlap**, the fragments repeat at most that many characters each. -/
theorem cut_pieces (hM : 1 ≤ M) (hk : 1 ≤ k) : ∀ (rest : List (List Char)) {prev p r : List Char},
    p <:+ prev → p.length ≤ k.toNat → (p ++ r).length ≤ M → (∀ s ∈ rest.tail, solid s ≠ []) →
    (p ++ r ≠ [] → ∀ s ∈ rest, solid s ≠ []) →
    Cut k.toNat prev (pieces M k (p ++ r) rest) (solid r ++ solid rest.flatten)
  | [], prev, p, r, hp, hlen, _, _, _ => by
    have h : Cut k.toNat prev (closed (p ++ r) ++ []) (solid r ++ []) :=
      Cut.close hp hlen fun prev _ => .nil prev
    rwa [List.append_nil] at h
  | s :: rest, prev, p, r, hp, hlen, hfit, htail, hall => by
    have hrest : ∀ t ∈ rest.tail, solid t ≠ [] := fun t ht => htail t (List.mem_of_mem_tail ht)
    have hs : p ++ r ≠ [] → solid s ≠ [] := fun hne => hall hne s List.mem_cons_self
    rw [pieces, List.flatten_cons, solid_append]
    split
    · rename_i hpacked
      obtain ⟨q, r', heq, hq, hr'⟩ := packed_split hs
      rw [heq] at hpacked ⊢
      have h := cut_pieces hM hk rest (hq.trans hp) (hq.length_le.trans hlen) hpacked hrest fun _ => htail
      rwa [hr', List.append_assoc] at h
    · refine Cut.close hp hlen fun prev hprev => ?_
      obtain ⟨p', r', heq, hp', hlen', hr'⟩ := seeded_split hk hs
      have hp'' : p' <:+ prev := by
        by_cases hbuf : p ++ r = []
        · rw [hbuf] at hp'
          rw [List.suffix_nil.1 hp']
          exact List.nil_suffix
        · rwa [hprev hbuf]
      have hfit' : p'.length ≤ M.toNat := by
        have := hp'.length_le
        omega
      rw [heq, ← hr']
      split
      · rename_i hlong
        have hne : p' ++ r' ≠ [] := by
          intro hnil
          rw [hnil] at hlong
          simp at hlong
          omega
        refine (cut_chop (by omega) hp'' hlen' hfit' hne).append fun prev => ?_
        exact cut_pieces hM hk rest (p := []) (r := []) List.nil_suffix (Nat.zero_le _)
          (by simp; omega) hrest fun _ => htail
      · exact cut_pieces hM hk rest hp'' hlen' (by omega) hrest fun _ => htail

/-! ## Without an overlap -/

theorem solid_packed (buf s : List Char) : solid (packed buf s) = solid buf ++ solid s := by
  unfold packed
  split
  · exact solid_joinStripped buf s
  · rename_i hnil
    rw [not_not.1 hnil]
    rfl

theorem solid_seeded (buf s : List Char) :
    solid (seeded k buf s) = solid (if buf ≠ [] then tailChars k buf else []) ++ solid s :=
  solid_packed _ s

theorem flatten_closed (buf : List Char) : (closed buf).flatten = buf := by
  unfold closed
  split
  · exact List.append_nil buf
  · rename_i hnil
    exact (not_not.1 hnil).symm

/-- No solid character is lost. -/
theorem length_solid_pieces_ge (hM : 1 ≤ M) : ∀ (rest : List (List Char)) (buf : List Char),
    (solid buf).length + (solid rest.flatten).length ≤ (solid (pieces M k buf rest).flatten).length
  | [], buf => by
    rw [pieces, flatten_closed]
    simp
  | s :: rest, buf => by
    rw [pieces, List.flatten_cons, solid_append, List.length_append]
    split
    · have h := length_solid_pieces_ge hM rest (packed buf s)
      rw [solid_packed, List.length_append] at h
      omega
    · have hseeded : (solid s).length ≤ (solid (seeded k buf s)).length := by
        rw [solid_seeded, List.length_append]
        omega
      rw [List.flatten_append, flatten_closed, solid_append, List.length_append]
      split
      · have h := length_solid_pieces_ge hM rest []
        rw [List.flatten_append, flatten_chop (by omega), solid_append, List.length_append]
        simp only [solid_nil, List.length_nil] at h
        omega
      · have h := length_solid_pieces_ge hM rest (seeded k buf s)
        omega

/-- The blocks that packing the sentences one by one closes because the next sentence does not fit. -/
def closedBlocks (maxChars : Int) : List Char → List (List Char) → List (List Char)
  | _, [] => []
  | buf, sentence :: rest =>
    if (packed buf sentence).length ≤ maxChars then closedBlocks maxChars (packed buf sentence) rest
    else
      closed buf ++
        if maxChars < sentence.length then closedBlocks maxChars [] rest
        else closedBlocks maxChars sentence rest

theorem seeded_of_short (hk : k ≤ 0) {buf : List Char} (h : buf.length ≤ -k) (s : List Char) :
    seeded k buf s = s := by
  have htail : tailChars k buf = [] := by
    unfold tailChars
    rw [if_neg (by omega)]
    exact List.drop_eq_nil_of_le (by omega)
  unfold seeded
  rw [htail, ite_self]
  rfl

/-- Short blocks are not repeated. -/
theorem solid_pieces_of_short (hM : 1 ≤ M) (hk : k ≤ 0) : ∀ (rest : List (List Char)) (buf : List Char),
    (∀ b ∈ closedBlocks M buf rest, b.length ≤ -k) →
    solid (pieces M k buf rest).flatten = solid buf ++ solid rest.flatten
  | [], buf, _ => by
    rw [pieces, flatten_closed]
    simp
  | s :: rest, buf, h => by
    rw [closedBlocks] at h
    rw [pieces, List.flatten_cons, solid_append]
    split at h
    · rename_i hpacked
      rw [if_pos hpacked, solid_pieces_of_short hM hk rest _ h, solid_packed, List.append_assoc]
    · rename_i hpacked
      obtain ⟨hclosed, hrest⟩ := List.forall_mem_append.1 h
      have hshort : buf.length ≤ -k := by
        by_cases hbuf : buf = []
        · rw [hbuf]
          simp
          omega
        · exact hclosed buf (by rw [closed, if_pos hbuf]; exact List.mem_singleton_self buf)
      rw [if_neg hpacked, seeded_of_short hk hshort, List.flatten_append, flatten_closed, solid_append]
      split at hrest
      · rename_i hlong
        rw [if_pos hlong, List.flatten_append, flatten_chop (by omega), solid_append,
          solid_pieces_of_short hM hk rest _ hrest]
        rfl
      · rename_i hlong
        rw [if_neg hlong, solid_pieces_of_short hM hk rest _ hrest]

/-- A block that is repeated in part adds solid characters. -/
theorem length_solid_pieces_gt (hM : 1 ≤ M) (hk : k ≤ 0) : ∀ (rest : List (List Char)) (buf : List Char),
    (rest ≠ [] → EndsSolid buf) → (∀ s ∈ rest.dropLast, EndsSolid s) →
    (∃ b ∈ closedBlocks M buf rest, -k < b.length) →
    (solid buf).length + (solid rest.flatten).length < (solid (pieces M k buf rest).flatten).length
  | [], buf, _, _, ⟨b, hb, _⟩ => by cases hb
  | s :: rest, buf, hbuf, hends, ⟨b, hb, hlong⟩ => by
    have hrest : ∀ t ∈ rest.dropLast, EndsSolid t := by
      intro t ht
      cases rest with
      | nil => cases ht
      | cons t' rest => exact hends t (List.mem_cons_of_mem _ ht)
    have hs : rest ≠ [] → EndsSolid s := by
      intro hne
      exact hends s (by rw [List.dropLast_cons_of_ne_nil hne]; exact List.mem_cons_self)
    have hpackedEnds : rest ≠ [] → EndsSolid (packed buf s) := by
      intro hne
      unfold packed
      split
      · exact endsSolid_stripChars _
      · exact hs hne
    rw [closedBlocks] at hb
    rw [pieces, List.flatten_cons, solid_append, List.length_append]
    split at hb
    · rename_i hpacked
      have h := length_solid_pieces_gt hM hk rest (packed buf s) hpackedEnds hrest ⟨b, hb, hlong⟩
      rw [solid_packed, List.length_append] at h
      rw [if_pos hpacked]
      omega
    · rename_i hpacked
      rw [if_neg hpacked, List.flatten_append, flatten_closed, solid_append, List.length_append]
      by_cases hshort : buf.length ≤ -k
      · -- this block is not repeated: the long one comes later
        have hb' : b ∈ (if M < s.length then closedBlocks M [] rest else closedBlocks M s rest) := by
          rcases List.mem_append.1 hb with hb | hb
          · unfold closed at hb
            split at hb
            · rw [List.mem_singleton.1 hb] at hlong
              omega
            · cases hb
          · exact hb
        rw [seeded_of_short hk hshort]
        split at hb'
        · rename_i hwrap
          have h := length_solid_pieces_gt hM hk rest [] (fun _ c hc => by cases hc) hrest ⟨b, hb', hlong⟩
          rw [if_pos hwrap, List.flatten_append, flatten_chop (by omega), solid_append, List.length_append]
          simp only [solid_nil, List.length_nil] at h
          omega
        · rename_i hwrap
          have h := length_solid_pieces_gt hM hk rest s hs hrest ⟨b, hb', hlong⟩
          rw [if_neg hwrap]
          omega
      · have hne : buf ≠ [] := by
          rintro rfl
          simp at hshort
          omega
        have htail : tailChars k buf = buf.drop (-k).toNat := if_neg (by omega)
        have hsolid : solid (tailChars k buf) ≠ [] := by
          rw [htail]
          refine solid_ne_nil_of_ends ((hbuf (List.cons_ne_nil _ _)).drop _) ?_
          exact fun hnil => hshort (by have := List.drop_eq_nil_iff.1 hnil; omega)
        have hpos := List.length_pos_iff.2 hsolid
        have hseeded : (solid s).length < (solid (seeded k buf s)).length := by
          rw [solid_seeded, if_pos hne, List.length_append]
          omega
        split
        · have h := length_solid_pieces_ge hM rest [] (k := k)
          rw [List.flatten_append, flatten_chop (by omega), solid_append, List.length_append]
          simp only [solid_nil, List.length_nil] at h
          omega
        · have h := length_solid_pieces_ge hM rest (seeded k buf s) (k := k)
          omega

theorem pieces_ne_nil (hM : 1 ≤ M) {rest : List (List Char)} {buf : List Char}
    (h : solid buf ++ solid rest.flatten ≠ []) : pieces M k buf rest ≠ [] := by
  intro hnil
  have hge := length_solid_pieces_ge (k := k) hM rest buf
  have hpos := List.length_pos_iff.2 h
  rw [List.length_append] at hpos
  rw [hnil, List.flatten_nil, solid_nil, List.length_nil] at hge
  omega

end

/-! ## Splitting a text -/

/-- The solid characters of a text are those of its fragments, but for what a fragment repeats of the
one before it: a prefix of at most `k` characters. -/
def Reassembles (k : Nat) (text : List Char) (fragments : List (List Char)) : Prop :=
  ∃ f fs ns, fragments = f :: fs ∧ Cut k f fs ns ∧ solid text = solid f ++ ns

/-- Splitting a text ends in fragments of bounded length that make up the text again. -/
def SplitLossless (text : String) (maxChars overlapChars : Int) : Prop :=
  ∃ fragments, splitLongText text maxChars overlapChars = .ok fragments ∧
    (∀ f ∈ fragments, f.toList.length ≤ maxChars) ∧
    Reassembles overlapChars.toNat text.toList (fragments.map (·.toList))

/-- The first fragment repeats nothing. -/
theorem reassembles_of_cut {k : Nat} {text : List Char} {fs : List (List Char)} (hne : fs ≠ [])
    (h : Cut k [] fs (solid text)) : Reassembles k text fs := by
  generalize hns : solid text = ns at h
  cases h with
  | nil => exact absurd rfl hne
  | cons hp _ hrest =>
    obtain rfl := List.suffix_nil.1 hp
    exact ⟨_, _, _, rfl, hrest, hns⟩

theorem reassembles_zero_iff {text : List Char} {fs : List (List Char)} (hne : fs ≠ []) :
    Reassembles 0 text fs ↔ solid text = solid fs.flatten := by
  constructor
  · rintro ⟨f, fs, ns, rfl, hcut, htext⟩
    rw [htext, cut_zero_iff.1 hcut, List.flatten_cons, solid_append]
  · intro h
    refine reassembles_of_cut hne ?_
    rw [h]
    exact cut_plain 0 fs []

/-- The fragments of a text that is too long for one. -/
def longFragments (text : List Char) (maxChars overlapChars : Int) : List (List Char) :=
  let fragments := pieces maxChars overlapChars [] (sentencesFrom [] none text)
  if fragments ≠ [] then fragments else [text]

section
variable {M k : Int}

theorem splitLongText_eq (hM : 1 ≤ M) {text : String} (h : ¬ text.toList.length ≤ M) :
    splitLongText text M k = .ok ((longFragments text.toList M k).map String.ofList) := by
  unfold splitLongText longFragments
  rw [if_neg h, splitFrom_eq hM]
  dsimp only
  rw [List.nil_append]
  show Except.ok _ = _
  split
  · rfl
  · simp

/-- A blank text is one sentence. -/
theorem sentencesFrom_blank : ∀ (cs : List Char) {cur : List Char}, solid cur = [] → solid cs = [] →
    sentencesFrom cur none cs = [cur ++ cs]
  | [], cur, _, _ => by simp [sentencesFrom]
  | c :: cs, cur, hcur, hcs => by
    have hc : solid [c] ++ solid cs = [] := (solid_append [c] cs).symm.trans hcs
    obtain ⟨hc, hcs⟩ := List.append_eq_nil_iff.1 hc
    have hmark : ¬ (isSpace c ∧ cur.getLast?.any (fun e => e = '.' ∨ e = ';' ∨ e = ':')) := by
      rintro ⟨-, hany⟩
      cases hlast : cur.getLast? with
      | none => simp [hlast] at hany
      | some e =>
        have hspace : isSpace e = true := by
          have hnot := List.filter_eq_nil_iff.1 hcur e (List.mem_of_getLast? hlast)
          simpa using hnot
        rw [hlast] at hany
        rcases of_decide_eq_true hany with rfl | rfl | rfl
        all_goals exact absurd hspace (by decide)
    unfold sentencesFrom
    dsimp only
    rw [if_neg hmark, sentencesFrom_blank cs (by rw [solid_append, hcur, hc]; rfl) hcs, List.append_assoc]
    rfl

theorem longFragments_eq (hM : 1 ≤ M) {text : List Char} (h : ¬ text.length ≤ M) :
    longFragments text M k = pieces M k [] (sentencesFrom [] none text) := by
  unfold longFragments
  refine if_pos ?_
  by_cases hsolid : solid text = []
  · have hne : text ≠ [] := by
      rintro rfl
      simp at h
      omega
    have hseeded : seeded k [] text = text := rfl
    rw [sentencesFrom_blank text rfl hsolid, List.nil_append, pieces,
      if_neg (show ¬ (packed [] text).length ≤ M from h), hseeded, if_pos (by omega),
      chop_cons (by omega) hne]
    simp
  · refine pieces_ne_nil hM ?_
    rw [solid_sentencesFrom text [] none (by simp)]
    exact hsolid

theorem splitLossless_iff_reassembles (hM : 1 ≤ M) {text : String} (h : ¬ text.toList.length ≤ M) :
    SplitLossless text M k ↔
      Reassembles k.toNat text.toList (pieces M k [] (sentencesFrom [] none text.toList)) := by
  have hsplit := splitLongText_eq (k := k) hM h
  rw [longFragments_eq hM h] at hsplit
  have hlists : ∀ l : List (List Char), (l.map String.ofList).map (·.toList) = l := by
    intro l
    simp
  constructor
  · rintro ⟨fragments, heq, -, hre⟩
    obtain rfl := Except.ok.inj (hsplit.symm.trans heq)
    rwa [hlists] at hre
  · intro hre
    refine ⟨_, hsplit, fun f hf => ?_, by rwa [hlists]⟩
    obtain ⟨l, hl, rfl⟩ := List.mem_map.1 hf
    rw [String.toList_ofList]
    exact length_le_of_mem_pieces hM _ (by simp; omega) l hl

end

/-- **When splitting a text loses and doubles nothing**: with a positive overlap, or when packing its
sentences closes no block but such as the overlap `-overlapChars:` skips. -/
theorem split_lossless_iff (text : String) (maxChars overlapChars : Int) (hmax : 1 ≤ maxChars) :
    SplitLossless text maxChars overlapChars ↔
      text.toList.length ≤ maxChars ∨ 1 ≤ overlapChars ∨
        ∀ b ∈ closedBlocks maxChars [] (sentencesFrom [] none text.toList), b.length ≤ -overlapChars := by
  by_cases hshort : text.toList.length ≤ maxChars
  · refine ⟨fun _ => .inl hshort, fun _ => ⟨[text], ?_, ?_, text.toList, [], [], rfl, .nil _, ?_⟩⟩
    · unfold splitLongText
      rw [if_pos hshort]
      rfl
    · intro f hf
      rwa [List.mem_singleton.1 hf]
    · simp
  rw [splitLossless_iff_reassembles hmax hshort, or_iff_right hshort]
  have hsolid : solid (sentencesFrom [] none text.toList).flatten = solid text.toList := by
    rw [solid_sentencesFrom text.toList [] none (by simp)]
    rfl
  have hne := longFragments_eq (k := overlapChars) hmax hshort
  have hpieces : pieces maxChars overlapChars [] (sentencesFrom [] none text.toList) ≠ [] := by
    intro hnil
    rw [hnil, longFragments, hnil] at hne
    simp at hne
  by_cases hoverlap : 1 ≤ overlapChars
  · refine ⟨fun _ => .inl hoverlap, fun _ => reassembles_of_cut hpieces ?_⟩
    have h := cut_pieces hmax hoverlap (sentencesFrom [] none text.toList) (p := []) (r := [])
      (List.nil_suffix : [] <:+ []) (Nat.zero_le _) (by simp; omega) (solid_of_mem_sentences text.toList [] none).2
      fun hne => absurd rfl hne
    rw [hsolid] at h
    exact h
  · have hzero : overlapChars.toNat = 0 := by omega
    have hnonpos : overlapChars ≤ 0 := by omega
    rw [hzero, reassembles_zero_iff hpieces, or_iff_right hoverlap]
    constructor
    · intro heq b hb
      by_contra hlong
      have hgt := length_solid_pieces_gt hmax hnonpos _ [] (fun _ c hc => by cases hc)
        (ends_of_mem_sentences text.toList [] none (by simp)) ⟨b, hb, by omega⟩
      rw [hsolid, heq] at hgt
      simp at hgt
    · intro hall
      rw [solid_pieces_of_short hmax hnonpos _ [] hall, hsolid]
      rfl

/-- Two sentences with room for one, and an overlap of two characters. -/
theorem split_lossless_two : SplitLossless "Aa bb. Cc dd." 8 2 :=
  (split_lossless_iff "Aa bb. Cc dd." 8 2 (by decide)).2 (.inr (.inl (by decide)))

/-- **Two sentences without an overlap**: the second fragment repeats the first one as a whole. -/
theorem not_forall_split_lossless : ¬ ∀ (text : String) (maxChars overlapChars : Int), 1 ≤ maxChars →
    0 ≤ overlapChars → SplitLossless text maxChars overlapChars := by
  intro h
  have hlossless := h "A. B." 3 0 (by decide) (by decide)
  rw [splitLossless_iff_reassembles (by decide) (by decide +kernel)] at hlossless
  have hpieces : pieces 3 0 [] (sentencesFrom [] none "A. B.".toList) =
      [['A', '.'], ['A', '.', ' '], ['B', '.']] := by decide +kernel
  rw [hpieces, Int.toNat_zero, reassembles_zero_iff (List.cons_ne_nil _ _)] at hlossless
  exact absurd hlossless (by decide +kernel)

end RegEngine.Parsing
