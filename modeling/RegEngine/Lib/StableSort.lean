import Mathlib.Algebra.GroupWithZero.Nat
import Mathlib.Data.List.Sort
import Mathlib.Data.List.Lex
import Mathlib.Data.List.Nodup
import Mathlib.Order.Basic

/-!
# Sorting by a key

A stable sort puts elements of one key in the order they came in. So its result is one for every order of
the elements exactly when elements of one key are equal (`insertionSort_perm_iff`).
-/

namespace Lib.StableSort

variable {α β κ : Type} [LinearOrder κ] {key : α → κ} [DecidableRel fun a b : α => key a ≤ key b]

/-- Sorting by the key. -/
abbrev sortBy (key : α → κ) [DecidableRel fun a b : α => key a ≤ key b] (l : List α) : List α :=
  l.insertionSort fun a b => key a ≤ key b

theorem pairwise_sortBy (l : List α) : (sortBy key l).Pairwise fun a b => key a ≤ key b := by
  have htotal : Std.Total fun a b : α => key a ≤ key b := ⟨fun a b => le_total (key a) (key b)⟩
  have htrans : IsTrans α fun a b : α => key a ≤ key b := ⟨fun _ _ _ => le_trans⟩
  exact List.pairwise_insertionSort _ l

theorem sortBy_eq_of_perm {l l' : List α}
    (h : ∀ a ∈ l, ∀ b ∈ l, key a = key b → a = b) (hperm : l'.Perm l) :
    sortBy key l' = sortBy key l := by
  have hsorted : (sortBy key l').Perm (sortBy key l) :=
    (List.perm_insertionSort _ l').trans (hperm.trans (List.perm_insertionSort _ l).symm)
  apply List.Perm.eq_of_pairwise _ (pairwise_sortBy l') (pairwise_sortBy l) hsorted
  intro a b ha hb hab hba
  have hmem : a ∈ l := hperm.mem_iff.1 ((List.perm_insertionSort _ l').mem_iff.1 ha)
  exact h a hmem b ((List.perm_insertionSort _ l).mem_iff.1 hb) (le_antisymm hab hba)

/-- Elements of one key are all inserted at one place, the last before the others. -/
theorem orderedInsert_orderedInsert (k : κ) (s : List α) :
    ∃ pre post, ∀ a b, key a = k → key b = k →
      (s.orderedInsert (fun a b => key a ≤ key b) b).orderedInsert (fun a b => key a ≤ key b) a =
        pre ++ a :: b :: post := by
  induction s with
  | nil =>
    refine ⟨[], [], fun a b ha hb => ?_⟩
    simp [ha, hb]
  | cons e s ih =>
    by_cases he : k ≤ key e
    · refine ⟨[], e :: s, fun a b ha hb => ?_⟩
      simp [ha, hb, he]
    · obtain ⟨pre, post, hinsert⟩ := ih
      refine ⟨e :: pre, post, fun a b ha hb => ?_⟩
      simp [ha, hb, he, hinsert a b ha hb]

/-- Two elements of one key stay in order. -/
theorem eq_of_sortBy_swap {a b : α} {l : List α} (hkey : key a = key b)
    (h : sortBy key (a :: b :: l) = sortBy key (b :: a :: l)) : a = b := by
  obtain ⟨pre, post, hinsert⟩ := @orderedInsert_orderedInsert α κ _ key _ (key a) (sortBy key l)
  unfold sortBy at h hinsert
  rw [List.insertionSort_cons, List.insertionSort_cons, List.insertionSort_cons,
    List.insertionSort_cons, hinsert a b rfl hkey.symm, hinsert b a hkey.symm rfl] at h
  exact (List.cons.inj (List.append_cancel_left h)).1

/-- The sorted list does not depend on the order, exactly when elements of one key are equal. -/
theorem sortBy_perm_iff (f : β → α) (l : List β) :
    (∀ l' : List β, l'.Perm l → sortBy key (l'.map f) = sortBy key (l.map f)) ↔
      ∀ a ∈ l, ∀ b ∈ l, key (f a) = key (f b) → f a = f b := by
  classical
  constructor
  · intro h a ha b hb hkey
    by_cases hab : a = b
    · rw [hab]
    · have hmem : b ∈ l.erase a := (List.mem_erase_of_ne (Ne.symm hab)).2 hb
      have hperm : (a :: b :: (l.erase a).erase b).Perm l :=
        ((List.perm_cons_erase hmem).symm.cons a).trans (List.perm_cons_erase ha).symm
      have hone := h _ hperm
      have hother := h _ ((List.Perm.swap a b _).trans hperm)
      exact eq_of_sortBy_swap hkey (hone.trans hother.symm)
  · intro h l' hperm
    apply sortBy_eq_of_perm _ (hperm.map f)
    intro x hx y hy hkey
    obtain ⟨a, ha, rfl⟩ := List.mem_map.1 hx
    obtain ⟨b, hb, rfl⟩ := List.mem_map.1 hy
    exact h a ha b hb hkey

end Lib.StableSort

/-!
## Sorted sets

Members under scores, as Redis keeps them: `zadd` gives a member a score, new or not, `zrem` removes it,
`zcard` counts, and `zrevrange` lists the members from the highest score on, those of one score from the
greatest on.
-/

namespace Lib

/-- Distinct members with their scores. -/
structure SortedSet (α β : Type) where
  entries : List (α × β)
  nodup : (entries.map Prod.fst).Nodup

namespace SortedSet

variable {α β : Type}

def empty : SortedSet α β := ⟨[], List.nodup_nil⟩

def zcard (s : SortedSet α β) : Nat := s.entries.length

/-- `a` is a member. -/
def Mem (s : SortedSet α β) (a : α) : Prop := a ∈ s.entries.map Prod.fst

section
variable [DecidableEq α]

def zrem (s : SortedSet α β) (a : α) : SortedSet α β where
  entries := s.entries.filter fun e => e.1 ≠ a
  nodup := s.nodup.sublist (List.filter_sublist.map Prod.fst)

theorem mem_zrem {s : SortedSet α β} {a b : α} : (s.zrem a).Mem b ↔ s.Mem b ∧ b ≠ a := by
  unfold Mem zrem
  constructor
  · intro h
    obtain ⟨e, he, rfl⟩ := List.mem_map.1 h
    obtain ⟨hmem, hne⟩ := List.mem_filter.1 he
    exact ⟨List.mem_map_of_mem hmem, by simpa using hne⟩
  · rintro ⟨h, hne⟩
    obtain ⟨e, he, rfl⟩ := List.mem_map.1 h
    exact List.mem_map_of_mem (List.mem_filter.2 ⟨he, by simpa using hne⟩)

def zadd (s : SortedSet α β) (a : α) (score : β) : SortedSet α β where
  entries := (a, score) :: (s.zrem a).entries
  nodup := by
    rw [List.map_cons, List.nodup_cons]
    exact ⟨fun h => (mem_zrem.1 h).2 rfl, (s.zrem a).nodup⟩

theorem mem_zadd {s : SortedSet α β} {a b : α} {score : β} :
    (s.zadd a score).Mem b ↔ b = a ∨ s.Mem b := by
  unfold Mem zadd
  rw [List.map_cons, List.mem_cons]
  constructor
  · rintro (h | h)
    · exact .inl h
    · exact .inr (mem_zrem.1 h).1
  · rintro (h | h)
    · exact .inl h
    · by_cases hb : b = a
      · exact .inl hb
      · exact .inr (mem_zrem.2 ⟨h, hb⟩)

end

section
variable [LinearOrder α] [LinearOrder β]

def zrevrange (s : SortedSet α β) : List α :=
  (s.entries.insertionSort fun x y => y.2 < x.2 ∨ y.2 = x.2 ∧ y.1 ≤ x.1).map Prod.fst

theorem mem_zrevrange {s : SortedSet α β} {a : α} : a ∈ s.zrevrange ↔ s.Mem a := by
  unfold zrevrange Mem
  exact ((List.perm_insertionSort _ _).map Prod.fst).mem_iff

theorem nodup_zrevrange (s : SortedSet α β) : s.zrevrange.Nodup :=
  ((List.perm_insertionSort _ _).map Prod.fst).nodup_iff.2 s.nodup

end

/-! ### Counts -/

/-- Sets with the same members have the same number of them. -/
theorem zcard_eq_of_mem {s : SortedSet α β} {l : List α} (hl : l.Nodup)
    (h : ∀ a, s.Mem a ↔ a ∈ l) : s.zcard = l.length := by
  have hperm : (s.entries.map Prod.fst).Perm l :=
    (List.perm_ext_iff_of_nodup s.nodup hl).2 h
  rw [zcard, ← List.length_map (f := Prod.fst), hperm.length_eq]

/-- A set whose members are each in exactly one of several sets. -/
theorem zcard_eq_sum {ι : Type} (s : SortedSet α β) (parts : ι → SortedSet α β) {keys : List ι}
    (hkeys : keys.Nodup) (hmem : ∀ a, s.Mem a ↔ ∃ i ∈ keys, (parts i).Mem a)
    (hone : ∀ a i j, (parts i).Mem a → (parts j).Mem a → i = j) :
    s.zcard = (keys.map fun i => (parts i).zcard).sum := by
  have hnodup : (keys.flatMap fun i => (parts i).entries.map Prod.fst).Nodup := by
    rw [List.nodup_flatMap]
    refine ⟨fun i _ => (parts i).nodup, hkeys.imp fun {i j} hij a hi hj => ?_⟩
    exact hij (hone a i j hi hj)
  rw [zcard_eq_of_mem hnodup fun a => (hmem a).trans List.mem_flatMap.symm, List.length_flatMap]
  congr 1
  refine List.map_congr_left fun i _ => ?_
  rw [List.length_map, zcard]

end SortedSet

end Lib
