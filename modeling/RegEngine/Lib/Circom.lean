import Mathlib.Algebra.BigOperators.Intervals
import Mathlib.Algebra.Field.ZMod
import Mathlib.Tactic.LinearCombination
import Mathlib.Tactic.Ring

/-!
# Comparisons in a prime field

The comparators of circomlib as constraints on the signals of a field with `p` elements: a number in
bits (`Num2Bits`), `LessThan` by one bit of a shifted difference, and `GreaterEqThan`. Only constraints
are modelled, so nothing is said of how a prover finds the bits.

* `num2Bits_iff`: what decompositions there are of a field element.
* `greaterEqThan_one_iff`: the comparator can give 1 exactly when the difference of its inputs, read
  modulo `p`, is below `2 ^ n`.
-/

namespace Lib.Circom

open Finset

variable {p : ℕ} [Fact p.Prime]

/-- `b * (b - 1) === 0`. -/
def IsBit (b : ZMod p) : Prop := b * (b - 1) = 0

/-- `Num2Bits(n)`: the constraints on its outputs. -/
structure Num2Bits (n : ℕ) (v : ZMod p) (out : ℕ → ZMod p) : Prop where
  isBit : ∀ i < n, IsBit (out i)
  sum : ∑ i ∈ range n, out i * 2 ^ i = v

/-- `LessThan(n)`: with the bits of `a + 2 ^ n - b`, the output is 1 minus bit `n`. -/
def LessThan (n : ℕ) (a b out : ZMod p) : Prop :=
  ∃ bits, Num2Bits (n + 1) (a + 2 ^ n - b) bits ∧ out = 1 - bits n

/-- `GreaterEqThan(n)`. -/
def GreaterEqThan (n : ℕ) (a b out : ZMod p) : Prop := LessThan n b (a + 1) out

/-! ## Bits -/

theorem isBit_iff {b : ZMod p} : IsBit b ↔ b = 0 ∨ b = 1 := by
  rw [IsBit, mul_eq_zero, sub_eq_zero]

theorem isBit_natCast {m : ℕ} (h : m < 2) : IsBit (m : ZMod p) := by
  rw [isBit_iff]
  rcases Nat.lt_succ_iff_lt_or_eq.1 h with h0 | h1
  · exact .inl (by rw [Nat.lt_one_iff.1 h0, Nat.cast_zero])
  · exact .inr (by rw [h1, Nat.cast_one])

/-- The number that the first `n` of some bits denote. -/
theorem exists_nat_sum {out : ℕ → ZMod p} :
    ∀ {n : ℕ}, (∀ i < n, IsBit (out i)) →
      ∃ m < 2 ^ n, ((m : ℕ) : ZMod p) = ∑ i ∈ range n, out i * 2 ^ i
  | 0, _ => ⟨0, by simp, by simp⟩
  | n + 1, h => by
    obtain ⟨m, hm, hsum⟩ := exists_nat_sum fun i hi => h i (Nat.lt_succ_of_lt hi)
    have hpow : 2 ^ (n + 1) = 2 ^ n + 2 ^ n := by rw [pow_succ, Nat.mul_two]
    rcases isBit_iff.1 (h n (Nat.lt_succ_self n)) with h0 | h1
    · refine ⟨m, by omega, ?_⟩
      rw [sum_range_succ, ← hsum, h0, zero_mul, add_zero]
    · refine ⟨m + 2 ^ n, by omega, ?_⟩
      rw [sum_range_succ, ← hsum, h1, one_mul, Nat.cast_add, Nat.cast_pow, Nat.cast_ofNat]

/-- The bits of a number. -/
def natBits (m : ℕ) (i : ℕ) : ZMod p := ((m / 2 ^ i % 2 : ℕ) : ZMod p)

theorem sum_natBits (m : ℕ) : ∀ n, ∑ i ∈ range n, natBits (p := p) m i * 2 ^ i = ((m % 2 ^ n : ℕ) : ZMod p)
  | 0 => by simp [Nat.mod_one]
  | n + 1 => by
    rw [sum_range_succ, sum_natBits m n, Nat.mod_pow_succ, natBits]
    push_cast
    ring

/-- **A number in bits**: a field element has `n` bits exactly when it is below `2 ^ n`. -/
theorem num2Bits_iff {n : ℕ} (hn : 2 ^ n ≤ p) {v : ZMod p} :
    (∃ out, Num2Bits n v out) ↔ v.val < 2 ^ n := by
  constructor
  · rintro ⟨out, hbit, hsum⟩
    obtain ⟨m, hm, hcast⟩ := exists_nat_sum hbit
    rw [← hsum, ← hcast, ZMod.val_natCast_of_lt (by omega)]
    exact hm
  · intro h
    refine ⟨natBits v.val, fun i _ => isBit_natCast (Nat.mod_lt _ (by omega)), ?_⟩
    rw [sum_natBits, Nat.mod_eq_of_lt h, ZMod.natCast_zmod_val]

/-! ## Comparators -/

/-- The output is 1 where the highest bit can be 0. -/
theorem lessThan_one_iff {n : ℕ} (hn : 2 ^ (n + 1) ≤ p) {a b : ZMod p} :
    LessThan n a b 1 ↔ (a + 2 ^ n - b).val < 2 ^ n := by
  have hn' : 2 ^ n ≤ p := (Nat.pow_le_pow_right (by omega) (Nat.le_succ n)).trans hn
  rw [← num2Bits_iff hn']
  constructor
  · rintro ⟨bits, ⟨hbit, hsum⟩, hout⟩
    have hzero : bits n = 0 := by linear_combination hout
    refine ⟨bits, fun i hi => hbit i (Nat.lt_succ_of_lt hi), ?_⟩
    rw [← hsum, sum_range_succ, hzero, zero_mul, add_zero]
  · rintro ⟨out, hbit, hsum⟩
    refine ⟨fun i => if i < n then out i else 0, ⟨fun i _ => ?_, ?_⟩, ?_⟩
    · by_cases h : i < n
      · simp only [if_pos h]
        exact hbit i h
      · simp [if_neg h, isBit_iff]
    · rw [sum_range_succ, if_neg (lt_irrefl n), zero_mul, add_zero, ← hsum]
      exact sum_congr rfl fun i hi => by rw [if_pos (mem_range.1 hi)]
    · simp

/-- A reflection of the range below `2 ^ n`. -/
theorem val_reflect_lt {n : ℕ} (hn : 2 ^ n ≤ p) {d : ZMod p} (h : d.val < 2 ^ n) :
    (2 ^ n - 1 - d).val < 2 ^ n := by
  have hcast : 2 ^ n - 1 - d = ((2 ^ n - 1 - d.val : ℕ) : ZMod p) := by
    rw [Nat.cast_sub (by omega), Nat.cast_sub Nat.one_le_two_pow, ZMod.natCast_zmod_val]
    push_cast
    rfl
  rw [hcast, ZMod.val_natCast_of_lt (by omega)]
  omega

/-- **The comparator** can give 1 exactly when `a - b` modulo `p` is below `2 ^ n`. -/
theorem greaterEqThan_one_iff {n : ℕ} (hn : 2 ^ (n + 1) ≤ p) {a b : ZMod p} :
    GreaterEqThan n a b 1 ↔ (a - b).val < 2 ^ n := by
  have hn' : 2 ^ n ≤ p := (Nat.pow_le_pow_right (by omega) (Nat.le_succ n)).trans hn
  have hreflect : b + 2 ^ n - (a + 1) = 2 ^ n - 1 - (a - b) := by ring
  rw [GreaterEqThan, lessThan_one_iff hn, hreflect]
  constructor
  · intro h
    have hback : a - b = 2 ^ n - 1 - (2 ^ n - 1 - (a - b)) := by ring
    rw [hback]
    exact val_reflect_lt hn' h
  · exact val_reflect_lt hn'

end Lib.Circom
