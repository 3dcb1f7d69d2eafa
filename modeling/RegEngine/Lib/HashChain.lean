import Mathlib.Data.List.Forall2
import Mathlib.Data.List.Infix
import Mathlib.Tactic.Common

/-!
# Hash chains

A record of a hash chain has a sequence number, the hash it points back to, its own hash, and a
local check that its hashes are those of its content (`View`). `Chained V p n L`: the records `L`
continue a chain that stopped with hash `p` before number `n`.

* `chained_append`: a chain is cut at any place (`lastHash` is the hash it stopped with).
* `Chained.sublist_initial`: a selection of a chain that is itself a chain from the same start is a
  prefix of it, so a selection with a hole never is.
* `Chained.commit`: two chains of one length with one last hash agree record by record, in every
  relation that a record's own hash determines.
* `Contiguous w L`: the members of `L` that satisfy `w` form one run; `contiguous_iff_initial` says it
  of the selection that starts at the first of them.
-/

namespace Lib.HashChain

variable {α H : Type}

/-- What a chain sees of a record. -/
structure View (α H : Type) where
  seq : α → Int
  prev : α → H
  cur : α → H
  ok : α → Prop

/-- `L` continues a chain that stopped with hash `p` before number `n`. -/
def Chained (V : View α H) : H → Int → List α → Prop
  | _, _, [] => True
  | p, n, r :: rs => V.seq r = n ∧ V.prev r = p ∧ V.ok r ∧ Chained V (V.cur r) (n + 1) rs

/-- The hash a chain started with `p` stops with. -/
def lastHash (V : View α H) (p : H) (L : List α) : H := (L.getLast?.map V.cur).getD p

@[simp] theorem lastHash_nil (V : View α H) (p : H) : lastHash V p [] = p := rfl

@[simp] theorem lastHash_concat (V : View α H) (p : H) (L : List α) (r : α) :
    lastHash V p (L ++ [r]) = V.cur r := by
  simp [lastHash]

theorem lastHash_cons (V : View α H) (p : H) (r : α) (L : List α) :
    lastHash V p (r :: L) = lastHash V (V.cur r) L := by
  cases L with
  | nil => rfl
  | cons s L => simp [lastHash, List.getLast?_eq_some_getLast]

section
variable {V : View α H}

theorem chained_append : ∀ {A B : List α} {p : H} {n : Int},
    Chained V p n (A ++ B) ↔ Chained V p n A ∧ Chained V (lastHash V p A) (n + A.length) B
  | [], B, p, n => by simp [Chained]
  | r :: A, B, p, n => by
    simp only [List.cons_append, Chained, chained_append (A := A), lastHash_cons, List.length_cons]
    rw [show n + 1 + (A.length : Int) = n + ((A.length + 1 : Nat) : Int) by push_cast; omega]
    tauto

theorem chained_concat {A : List α} {r : α} {p : H} {n : Int} :
    Chained V p n (A ++ [r]) ↔
      Chained V p n A ∧ V.seq r = n + A.length ∧ V.prev r = lastHash V p A ∧ V.ok r := by
  rw [chained_append]
  simp [Chained]

theorem Chained.of_initial {A L : List α} {p : H} {n : Int} (h : Chained V p n L) (hA : A <+: L) :
    Chained V p n A := by
  obtain ⟨B, rfl⟩ := hA
  exact (chained_append.1 h).1

/-- Sequence numbers count up from the start. -/
theorem Chained.le_seq : ∀ {L : List α} {p : H} {n : Int}, Chained V p n L →
    ∀ r ∈ L, n ≤ V.seq r
  | [], _, _, _, _, hr => absurd hr List.not_mem_nil
  | a :: L, p, n, h, r, hr => by
    obtain ⟨hs, -, -, ht⟩ := h
    rcases List.mem_cons.1 hr with rfl | hr
    · omega
    · have := Chained.le_seq ht r hr
      omega

theorem Chained.seq_getElem : ∀ {L : List α} {p : H} {n : Int} {i : Nat} {r : α},
    Chained V p n L → L[i]? = some r → V.seq r = n + i
  | [], _, _, _, _, _, hr => by simp at hr
  | a :: L, p, n, 0, r, h, hr => by
    obtain rfl : a = r := by simpa using hr
    simpa using h.1
  | a :: L, p, n, i + 1, r, h, hr => by
    have := Chained.seq_getElem h.2.2.2 (by simpa using hr)
    push_cast
    omega

/-- A record points back to the hash the chain before it stopped with. -/
theorem Chained.prev_getElem {L : List α} {p : H} {n : Int} {i : Nat} {r : α}
    (h : Chained V p n L) (hr : L[i]? = some r) : V.prev r = lastHash V p (L.take i) := by
  obtain ⟨hi, rfl⟩ := List.getElem?_eq_some_iff.1 hr
  rw [← List.take_append_drop i L, List.drop_eq_getElem_cons hi] at h
  exact (chained_append.1 h).2.2.1

theorem Chained.ok_of_mem {L : List α} {p : H} {n : Int} (h : Chained V p n L) {r : α} (hr : r ∈ L) : V.ok r := by
  obtain ⟨A, B, rfl⟩ := List.append_of_mem hr
  exact (chained_append.1 h).2.2.2.1

/-- A record points back to the record with the number before its own. -/
theorem Chained.prev_of_seq_succ {L : List α} {p : H} {n : Int} (h : Chained V p n L) {q r : α} (hq : q ∈ L)
    (hr : r ∈ L) (hseq : V.seq r = V.seq q + 1) : V.prev r = V.cur q := by
  obtain ⟨i, hi, hqi⟩ := List.getElem_of_mem hq
  obtain ⟨j, hj, hrj⟩ := List.getElem_of_mem hr
  have hqi : L[i]? = some q := List.getElem?_eq_some_iff.2 ⟨hi, hqi⟩
  have hrj : L[j]? = some r := List.getElem?_eq_some_iff.2 ⟨hj, hrj⟩
  have hi := h.seq_getElem hqi
  have hj := h.seq_getElem hrj
  have hji : j = i + 1 := by omega
  rw [h.prev_getElem hrj, hji, List.take_add_one, hqi]
  exact lastHash_concat V p _ q

/-- The record with the first number points back to the start. -/
theorem Chained.prev_of_seq_start {L : List α} {p : H} {n : Int} (h : Chained V p n L) {r : α} (hr : r ∈ L)
    (hseq : V.seq r = n) : V.prev r = p := by
  obtain ⟨j, hj, hrj⟩ := List.getElem_of_mem hr
  have hrj : L[j]? = some r := List.getElem?_eq_some_iff.2 ⟨hj, hrj⟩
  have hj := h.seq_getElem hrj
  obtain rfl : j = 0 := by omega
  exact h.prev_getElem hrj

/-- Neighbours in a chain have consecutive numbers. -/
theorem Chained.seq_succ {A B : List α} {x y : α} {p : H} {n : Int}
    (h : Chained V p n (A ++ x :: y :: B)) : V.seq y = V.seq x + 1 := by
  obtain ⟨-, hx, -, -, hy, -⟩ := chained_append.1 h
  omega

theorem Chained.pairwise : ∀ {L : List α} {p : H} {n : Int}, Chained V p n L →
    L.Pairwise fun r s => V.seq r < V.seq s
  | [], _, _, _ => List.Pairwise.nil
  | a :: L, p, n, h => by
    refine List.Pairwise.cons (fun r hr => ?_) (Chained.pairwise h.2.2.2)
    have := Chained.le_seq h.2.2.2 r hr
    have := h.1
    omega

/-- **A chained selection of a chain is a prefix.** -/
theorem Chained.sublist_initial : ∀ {L L' : List α} {p : H} {n : Int}, Chained V p n L →
    L'.Sublist L → Chained V p n L' → L' <+: L
  | _, [], _, _, _, _, _ => List.nil_prefix
  | [], _ :: _, _, _, _, hs, _ => by simp at hs
  | a :: L, b :: L', p, n, h, hs, h' => by
    -- the head keeps its number, and every later record has a larger one
    cases hs with
    | cons _ hs =>
      have hb : b ∈ L := hs.subset List.mem_cons_self
      have := Chained.le_seq h.2.2.2 b hb
      have := h'.1
      omega
    | cons_cons _ hs =>
      exact List.cons_prefix_cons.2 ⟨rfl, Chained.sublist_initial h.2.2.2 hs h'.2.2.2⟩

/-- **A chain is determined by its length and its last hash**, up to any relation `R` that a
record's hash determines. `G` holds of every hash a record points back to. -/
theorem Chained.commit {W : View α H} {G : H → Prop} {R : α → α → Prop}
    {L L' : List α} {p p' : H} {n n' : Int}
    (bind : ∀ r ∈ L, ∀ r' ∈ L', V.ok r → W.ok r' → G (V.prev r) → G (W.prev r') →
      V.cur r = W.cur r' → V.prev r = W.prev r' ∧ R r r')
    (hV : ∀ r, V.ok r → G (V.cur r)) (hW : ∀ r, W.ok r → G (W.cur r))
    (hp : G p) (hp' : G p') (h : Chained V p n L) (h' : Chained W p' n' L')
    (hlen : L.length = L'.length) (hlast : L.getLast?.map V.cur = L'.getLast?.map W.cur) :
    List.Forall₂ R L L' := by
  have hgood : ∀ {U : View α H} {q : H} {m : Int} {A : List α}, (∀ r, U.ok r → G (U.cur r)) →
      G q → Chained U q m A → G (lastHash U q A) := by
    intro U q m A hU hq hc
    rcases List.eq_nil_or_concat' A with rfl | ⟨B, r, rfl⟩
    · exact hq
    · rw [lastHash_concat]
      exact hU r (chained_concat.1 hc).2.2.2
  induction L using List.reverseRecOn generalizing L' with
  | nil =>
    obtain rfl : L' = [] := List.length_eq_zero_iff.1 (by simpa using hlen.symm)
    exact .nil
  | append_singleton A r ih =>
    rcases List.eq_nil_or_concat' L' with rfl | ⟨A', r', rfl⟩
    · simp at hlen
    obtain ⟨hA, -, hprev, hok⟩ := chained_concat.1 h
    obtain ⟨hA', -, hprev', hok'⟩ := chained_concat.1 h'
    have hlenA : A.length = A'.length := by simpa using hlen
    obtain ⟨heq, hR⟩ := bind r (by simp) r' (by simp) hok hok'
      (hprev ▸ hgood hV hp hA) (hprev' ▸ hgood hW hp' hA') (by simpa using hlast)
    refine List.rel_append (ih (fun s hs s' hs' => bind s (by simp [hs]) s' (by simp [hs'])) hA hA'
      hlenA ?_) (.cons hR .nil)
    -- the two records point back to one hash, the last one of the shorter chains
    rcases List.eq_nil_or_concat' A with rfl | ⟨B, s, rfl⟩
    · obtain rfl : A' = [] := List.length_eq_zero_iff.1 (by simpa using hlenA.symm)
      rfl
    · rcases List.eq_nil_or_concat' A' with rfl | ⟨B', s', rfl⟩
      · simp at hlenA
      · rw [hprev, hprev', lastHash_concat, lastHash_concat] at heq
        simpa using heq

end

/-! ## Selections -/

/-- The members of `L` that satisfy `w` form one run of `L`. -/
def Contiguous (w : α → Bool) (L : List α) : Prop :=
  ∀ i j k : Nat, i < j → j < k → ∀ x y z, L[i]? = some x → L[j]? = some y → L[k]? = some z →
    w x = true → w z = true → w y = true

theorem contiguous_map {β : Type} {f : β → α} {w : α → Bool} {L : List β} :
    Contiguous w (L.map f) ↔ Contiguous (fun b => w (f b)) L := by
  simp only [Contiguous, List.getElem?_map, Option.map_eq_some_iff]
  constructor
  · intro h i j k hij hjk x y z hx hy hz
    exact h i j k hij hjk _ _ _ ⟨x, hx, rfl⟩ ⟨y, hy, rfl⟩ ⟨z, hz, rfl⟩
  · rintro h i j k hij hjk _ _ _ ⟨x, hx, rfl⟩ ⟨y, hy, rfl⟩ ⟨z, hz, rfl⟩
    exact h i j k hij hjk x y z hx hy hz

/-- Along an order, a convex selection is contiguous. -/
theorem contiguous_of_pairwise {w : α → Bool} {le : α → α → Prop} {L : List α}
    (hL : L.Pairwise le)
    (hw : ∀ x y z, le x y → le y z → w x = true → w z = true → w y = true) : Contiguous w L := by
  intro i j k hij hjk x y z hx hy hz
  obtain ⟨hi, rfl⟩ := List.getElem?_eq_some_iff.1 hx
  obtain ⟨hj, rfl⟩ := List.getElem?_eq_some_iff.1 hy
  obtain ⟨hk, rfl⟩ := List.getElem?_eq_some_iff.1 hz
  rw [List.pairwise_iff_getElem] at hL
  exact hw _ _ _ (hL i j hi hj hij) (hL j k hj hk hjk)

theorem filter_prefix_iff (w : α → Bool) : ∀ L : List α,
    L.filter w <+: L ↔ L.Pairwise fun x y => w y = true → w x = true
  | [] => by simp
  | a :: L => by
    by_cases ha : w a = true
    · simp only [List.filter_cons, ha, if_true, List.cons_prefix_cons, true_and,
        filter_prefix_iff w L, List.pairwise_cons, implies_true]
    · simp only [List.filter_cons, ha, List.pairwise_cons, Bool.false_eq_true, imp_false, if_false]
      constructor
      · intro h
        have hnil : L.filter w = [] := by
          cases hf : L.filter w with
          | nil => rfl
          | cons b B =>
            -- the first selected member would be the head, which is not selected
            have hb : b ∈ L.filter w := by rw [hf]; exact List.mem_cons_self
            simp only [hf] at h
            have := (List.cons_prefix_cons.1 h).1
            exact absurd (this ▸ (List.mem_filter.1 hb).2) ha
        have hall : ∀ y ∈ L, ¬ w y = true := fun y hy hw =>
          List.not_mem_nil (hnil ▸ List.mem_filter.2 ⟨hy, hw⟩)
        exact ⟨hall, List.pairwise_of_forall_mem_list fun x _ y hy hw => absurd hw (hall y hy)⟩
      · intro h
        have hnil : L.filter w = [] := List.filter_eq_nil_iff.2 h.1
        simp [hnil]

/-- Past the first selected member, a contiguous selection is a prefix. -/
theorem contiguous_iff_initial {w : α → Bool} {A : List α} {b : α} {B : List α}
    (hA : ∀ a ∈ A, w a = false) (hb : w b = true) :
    Contiguous w (A ++ b :: B) ↔ (b :: B).filter w <+: b :: B := by
  rw [filter_prefix_iff]
  constructor
  · intro h
    rw [List.pairwise_iff_getElem]
    intro i j hi hj hij hw
    rcases Nat.eq_zero_or_pos i with rfl | hpos
    · simpa using hb
    · refine h A.length (A.length + i) (A.length + j) (by omega) (by omega) b _ _ ?_ ?_ ?_ hb hw
      · simp
      · rw [List.getElem?_append_right (by omega), Nat.add_sub_cancel_left,
          List.getElem?_eq_getElem hi]
      · rw [List.getElem?_append_right (by omega), Nat.add_sub_cancel_left,
          List.getElem?_eq_getElem hj]
  · intro h i j k hij hjk x y z hx hy hz hwx hwz
    rw [List.pairwise_iff_getElem] at h
    -- the first selected place is not in `A`
    have hi : A.length ≤ i := by
      by_contra hlt
      have hmem : x ∈ A := by
        rw [List.getElem?_append_left (by omega)] at hx
        exact List.mem_of_getElem? hx
      simp [hA x hmem] at hwx
    rw [List.getElem?_append_right (by omega)] at hy hz
    obtain ⟨hjl, rfl⟩ := List.getElem?_eq_some_iff.1 hy
    obtain ⟨hkl, rfl⟩ := List.getElem?_eq_some_iff.1 hz
    exact h _ _ hjl hkl (by omega) hwz

end Lib.HashChain
