import Mathlib.Data.List.DropRight
import Mathlib.Data.List.Pairwise
import Mathlib.Order.Lattice

/-!
# Stacks pruned by level

A stack takes entries one by one; an entry first pops those of its own level or a higher one.

* `getLast?_below`: what an entry is put upon is the last earlier entry of a lower level.
* `pairwise_pushAll_iff`: a transitive relation holds along every stack on the way exactly when every
  entry stands in it to the last earlier one of a lower level.
-/

namespace Lib.LevelStack

variable {α β : Type} [LinearOrder β] (level : α → β)

/-- The entries of a stack below a level. -/
def below (b : β) (stack : List α) : List α := stack.rdropWhile fun y => b ≤ level y

def push (stack : List α) (x : α) : List α := below level (level x) stack ++ [x]

def pushAll (xs : List α) : List α := xs.foldl (push level) []

/-- The last entry of a lower level. -/
def lastBelow (b : β) (xs : List α) : Option α := xs.reverse.find? fun y => level y < b

theorem pushAll_concat (xs : List α) (x : α) :
    pushAll level (xs ++ [x]) = below level (level x) (pushAll level xs) ++ [x] := by
  rw [pushAll, List.foldl_append]
  rfl

theorem lastBelow_concat (b : β) (xs : List α) (x : α) :
    lastBelow level b (xs ++ [x]) = if level x < b then some x else lastBelow level b xs := by
  unfold lastBelow
  rw [List.reverse_append, List.reverse_singleton, List.singleton_append]
  by_cases h : level x < b
  · rw [if_pos h, List.find?_cons_of_pos (by simpa using h)]
  · rw [if_neg h, List.find?_cons_of_neg (by simpa using h)]

theorem below_concat (b : β) (stack : List α) (x : α) :
    below level b (stack ++ [x]) = if b ≤ level x then below level b stack else stack ++ [x] := by
  unfold below
  rw [List.rdropWhile_concat]
  simp

/-- Popping down to a level and then to a lower one. -/
theorem below_below {b c : β} (h : b ≤ c) (stack : List α) :
    below level b (below level c stack) = below level b stack := by
  induction stack using List.reverseRecOn with
  | nil => rfl
  | append_singleton stack x ih =>
    rw [below_concat level c]
    split
    · rename_i hc
      rw [ih, below_concat, if_pos (h.trans hc)]
    · rfl

/-- **What an entry is put upon.** -/
theorem getLast?_below (b : β) (xs : List α) :
    (below level b (pushAll level xs)).getLast? = lastBelow level b xs := by
  induction xs using List.reverseRecOn with
  | nil => rfl
  | append_singleton xs x ih =>
    rw [pushAll_concat, lastBelow_concat, below_concat]
    split
    · rename_i hb
      rw [if_neg (not_lt.2 hb), below_below level hb, ih]
    · rename_i hb
      rw [if_pos (not_le.1 hb), List.getLast?_concat]

theorem below_sublist (b : β) (stack : List α) : (below level b stack).Sublist stack :=
  (List.rdropWhile_prefix _ _).sublist

section
variable {level} {r : α → α → Prop}

/-- A pairwise relation on a stack, by its last entry. -/
theorem pairwise_concat_iff (htrans : ∀ x y z, r x y → r y z → r x z) {stack : List α} {x : α}
    (h : stack.Pairwise r) : (stack ++ [x]).Pairwise r ↔ ∀ y ∈ stack.getLast?, r y x := by
  rw [List.pairwise_append]
  constructor
  · rintro ⟨-, -, hall⟩ y hy
    exact hall y (List.mem_of_getLast? hy) x (List.mem_singleton_self x)
  · intro hlast
    refine ⟨h, List.pairwise_singleton r x, fun y hy z hz => ?_⟩
    rw [List.mem_singleton.1 hz]
    obtain ⟨stack, last, rfl⟩ := (List.eq_nil_or_concat' stack).resolve_left (List.ne_nil_of_mem hy)
    have hlx : r last x := hlast last (by simp)
    rcases List.mem_append.1 hy with hy | hy
    · exact htrans _ _ _ ((List.pairwise_append.1 h).2.2 y hy last (List.mem_singleton_self last)) hlx
    · rwa [List.mem_singleton.1 hy]

variable (level) in
/-- **Relations along every stack on the way.** -/
theorem pairwise_pushAll_iff (htrans : ∀ x y z, r x y → r y z → r x z) (xs : List α) :
    (∀ pre, pre <+: xs → (pushAll level pre).Pairwise r) ↔
      ∀ pre x, pre ++ [x] <+: xs → ∀ y ∈ lastBelow level (level x) pre, r y x := by
  constructor
  · intro h pre x hpre
    have hpairwise := h _ hpre
    rw [pushAll_concat] at hpairwise
    rw [← getLast?_below]
    exact (pairwise_concat_iff htrans (List.pairwise_append.1 hpairwise).1).1 hpairwise
  · intro h pre
    induction pre using List.reverseRecOn with
    | nil => exact fun _ => List.Pairwise.nil
    | append_singleton pre x ih =>
      intro hpre
      have hbelow := (ih ((List.prefix_append pre [x]).trans hpre)).sublist
        (below_sublist level (level x) (pushAll level pre))
      rw [pushAll_concat, pairwise_concat_iff htrans hbelow, getLast?_below]
      exact h pre x hpre

end

end Lib.LevelStack
