import Mathlib.Algebra.BigOperators.Group.List.Lemmas
import Mathlib.Algebra.Order.BigOperators.Group.List
import Mathlib.Algebra.Order.Field.Basic
import Mathlib.Tactic.FieldSimp
import Mathlib.Tactic.Linarith
import Mathlib.Tactic.Positivity
import Mathlib.Tactic.Ring

/-!
# Mean and variance of a sample

What one more value does to the mean (`mean_concat`) and to the sum of squared deviations (`squares_concat`), and
its own deviation from the mean of them all (`sub_mean_concat`): less, in units of the deviation, than from the
mean of the others (`deviation_concat_lt`), and bounded by the length (`deviation_concat_le`).
-/

namespace Lib.Moments

variable {K : Type} [Field K]

def mean (l : List K) : K := l.sum / l.length

/-- The sum of the squared deviations from the mean. -/
def squares (l : List K) : K := (l.map fun x => (x - mean l) ^ 2).sum

/-- The variance with one degree of freedom less. -/
def sampleVariance (l : List K) : K := squares l / (l.length - 1)

/-- Squared deviations from any point. -/
theorem sum_sq_sub (l : List K) (c : K) :
    (l.map fun x => (x - c) ^ 2).sum = (l.map (· ^ 2)).sum - 2 * c * l.sum + l.length * c ^ 2 := by
  induction l with
  | nil => simp
  | cons x l ih =>
    rw [List.map_cons, List.sum_cons, ih, List.map_cons, List.sum_cons, List.sum_cons, List.length_cons]
    push_cast
    ring

section CharZero

variable [CharZero K]

theorem length_mul_mean {l : List K} (h : l ≠ []) : l.length * mean l = l.sum := by
  have hlength : (l.length : K) ≠ 0 := Nat.cast_ne_zero.2 fun h0 => h (List.length_eq_zero_iff.1 h0)
  unfold mean
  field_simp

theorem squares_eq {l : List K} (h : l ≠ []) : squares l = (l.map (· ^ 2)).sum - l.length * mean l ^ 2 := by
  unfold squares
  rw [sum_sq_sub, ← length_mul_mean h]
  ring

theorem mean_concat {l : List K} (h : l ≠ []) (x : K) : mean (l ++ [x]) = mean l + (x - mean l) / (l.length + 1) := by
  have hlength : (l.length : K) + 1 ≠ 0 := by exact_mod_cast Nat.succ_ne_zero l.length
  have hsum := length_mul_mean h
  have hmean : mean (l ++ [x]) = (l.sum + x) / (l.length + 1) := by
    unfold mean
    rw [List.sum_append, List.sum_singleton, List.length_append, List.length_singleton, Nat.cast_add, Nat.cast_one]
  rw [hmean, ← hsum]
  field_simp
  ring

theorem sub_mean_concat {l : List K} (h : l ≠ []) (x : K) :
    x - mean (l ++ [x]) = (x - mean l) * l.length / (l.length + 1) := by
  have hlength : (l.length : K) + 1 ≠ 0 := by exact_mod_cast Nat.succ_ne_zero l.length
  rw [mean_concat h]
  field_simp
  ring

theorem squares_concat {l : List K} (h : l ≠ []) (x : K) :
    squares (l ++ [x]) = squares l + (x - mean l) ^ 2 * l.length / (l.length + 1) := by
  have hlength : (l.length : K) + 1 ≠ 0 := by exact_mod_cast Nat.succ_ne_zero l.length
  have hne : l ++ [x] ≠ [] := by simp
  rw [squares_eq hne, squares_eq h, mean_concat h, List.map_append, List.sum_append, List.map_singleton,
    List.sum_singleton, List.length_append, List.length_singleton]
  push_cast
  field_simp
  ring

end CharZero

section Ordered

variable [LinearOrder K] [IsStrictOrderedRing K]

theorem squares_nonneg (l : List K) : 0 ≤ squares l := by
  refine List.sum_nonneg fun y hy => ?_
  obtain ⟨x, -, rfl⟩ := List.mem_map.1 hy
  exact sq_nonneg _

theorem sampleVariance_nonneg {l : List K} (h : l ≠ []) : 0 ≤ sampleVariance l := by
  have hlength : (1 : K) ≤ l.length := by exact_mod_cast List.length_pos_iff.2 h
  exact div_nonneg (squares_nonneg l) (by linarith)

theorem squares_pos {l : List K} (hvar : sampleVariance l ≠ 0) : 0 < squares l := by
  refine lt_of_le_of_ne (squares_nonneg l) fun h0 => hvar ?_
  unfold sampleVariance
  rw [← h0, zero_div]

theorem sampleVariance_pos {l : List K} (h : 2 ≤ l.length) (hvar : sampleVariance l ≠ 0) : 0 < sampleVariance l := by
  have hlength : (2 : K) ≤ l.length := by exact_mod_cast h
  exact div_pos (squares_pos hvar) (by linarith)

/-- One more value leaves a deviation. -/
theorem sampleVariance_concat_ne_zero {l : List K} (h : l ≠ []) (x : K) (hvar : sampleVariance l ≠ 0) :
    sampleVariance (l ++ [x]) ≠ 0 := by
  have hlength : (0 : K) < l.length := by exact_mod_cast List.length_pos_iff.2 h
  have hpos := squares_pos hvar
  unfold sampleVariance
  rw [squares_concat h, List.length_append, List.length_singleton]
  push_cast
  have hrest : (0 : K) < l.length + 1 - 1 := by linarith
  positivity

/-- The squared deviation of the last value, for the variance of them all. -/
theorem deviation_concat {l : List K} (h : l ≠ []) (x : K) (hpos : 0 < squares l) :
    (x - mean (l ++ [x])) ^ 2 / sampleVariance (l ++ [x]) =
      (x - mean l) ^ 2 * l.length ^ 3 /
        ((l.length + 1) * ((l.length + 1) * squares l + (x - mean l) ^ 2 * l.length)) := by
  have hlength : (0 : K) < l.length := by exact_mod_cast List.length_pos_iff.2 h
  have hall : (0 : K) < (l.length + 1) * squares l + (x - mean l) ^ 2 * l.length := by positivity
  unfold sampleVariance
  rw [sub_mean_concat h, squares_concat h, List.length_append, List.length_singleton]
  push_cast
  have hvar : squares l + (x - mean l) ^ 2 * l.length / (l.length + 1) ≠ 0 := by positivity
  field_simp
  ring

/-- What the last value can reach at most. -/
theorem deviation_concat_le {l : List K} (h : l ≠ []) (x : K) (hvar : sampleVariance l ≠ 0) :
    (x - mean (l ++ [x])) ^ 2 / sampleVariance (l ++ [x]) ≤ (l.length : K) ^ 2 / (l.length + 1) := by
  have hlength : (0 : K) < l.length := by exact_mod_cast List.length_pos_iff.2 h
  have hpos := squares_pos hvar
  have hall : (0 : K) < (l.length + 1) * squares l + (x - mean l) ^ 2 * l.length := by positivity
  rw [deviation_concat h x hpos, div_le_div_iff₀ (by positivity) (by positivity)]
  have hrest : 0 ≤ (l.length : K) ^ 2 * (l.length + 1) * ((l.length + 1) * squares l) := by positivity
  nlinarith [hrest]

/-- **A value counted in its own baseline** is nearer to it than to that of the others. -/
theorem deviation_concat_lt {l : List K} {x : K} (h : 2 ≤ l.length) (hx : x ≠ mean l) (hvar : sampleVariance l ≠ 0) :
    (x - mean (l ++ [x])) ^ 2 / sampleVariance (l ++ [x]) < (x - mean l) ^ 2 / sampleVariance l := by
  have hne : l ≠ [] := by
    intro hnil
    rw [hnil] at h
    exact Nat.not_succ_le_zero 1 h
  have hn : (2 : K) ≤ l.length := by exact_mod_cast h
  have hd : 0 < (x - mean l) ^ 2 := by
    have := sub_ne_zero.2 hx
    positivity
  have hpos := squares_pos hvar
  rw [deviation_concat hne x hpos]
  have hright : (x - mean l) ^ 2 / sampleVariance l = (x - mean l) ^ 2 * (l.length - 1) / squares l := by
    unfold sampleVariance
    have : (l.length : K) - 1 ≠ 0 := by linarith
    field_simp
  rw [hright, div_lt_div_iff₀ (by positivity) hpos]
  generalize (x - mean l) ^ 2 = d at hd ⊢
  generalize squares l = s at hpos ⊢
  generalize (l.length : K) = n at hn ⊢
  -- the difference is d s (n² - n - 1) + d² n (n² - 1)
  have hquad : 0 < n ^ 2 - n - 1 := by nlinarith
  have hcube : 0 ≤ n * (n ^ 2 - 1) := by nlinarith [mul_nonneg (by linarith : 0 ≤ n) (by linarith : 0 ≤ n - 2)]
  have hfirst : 0 < d * s * (n ^ 2 - n - 1) := by positivity
  have hsecond : 0 ≤ d ^ 2 * (n * (n ^ 2 - 1)) := by positivity
  nlinarith [hfirst, hsecond]

end Ordered

end Lib.Moments
