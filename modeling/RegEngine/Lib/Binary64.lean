import Mathlib.Algebra.Order.Ring.Rat
import Mathlib.Data.Nat.Log
import Mathlib.Tactic.Ring
import Mathlib.Tactic.FieldSimp
import Mathlib.Tactic.Linarith
import Mathlib.Tactic.Zify
import Mathlib.Data.List.Basic

/-!
# Doubles

A double is its 64-bit word: a sign, an exponent of 11 bits and a fraction of 52. Magnitudes are
counted in units of `2 ^ -1074`, the smallest one; the order is that of these counts (`rank`), and no
comparison with a NaN holds. `ofRat` is the nearest double, to even from half way.

* `rank_ofRat`: a number that a double can hold (`Exact`) is rounded to itself.
* `le_ofRat_iff`, `lt_ofRat_iff`, `eq_ofRat_iff`: so on exact numbers doubles are ordered as they are.
* `rank_mono`: rounding keeps the order; so it does not cross an exact number (`le_toRat`,
  `toRat_le`), and a sum or a quotient is bounded by exact ones (`Within.add`, `Within.div`).
-/

namespace Lib

structure Binary64 where
  word : BitVec 64
  deriving DecidableEq

namespace Binary64

/-! ## Fields -/

def fraction (x : Binary64) : Nat := x.word.toNat % 2 ^ 52

def exponent (x : Binary64) : Nat := x.word.toNat / 2 ^ 52 % 2 ^ 11

def negative (x : Binary64) : Bool := 2 ^ 63 ≤ x.word.toNat

/-- All bits of the exponent are set: an infinity, or a NaN when the fraction is not zero. -/
def isNaN (x : Binary64) : Bool := x.exponent = 2047 ∧ x.fraction ≠ 0

/-- The magnitude in units of `2 ^ -1074`; that of an infinity is past all finite ones. -/
def magnitude (x : Binary64) : Nat :=
  if x.exponent = 0 then x.fraction else (2 ^ 52 + x.fraction) * 2 ^ (x.exponent - 1)

def rank (x : Binary64) : Int := if x.negative then -(x.magnitude : Int) else x.magnitude

/-- The number a finite double holds. -/
def toRat (x : Binary64) : Rat := x.rank / 2 ^ 1074

/-! ## Comparisons -/

def le (x y : Binary64) : Bool := !x.isNaN && !y.isNaN && decide (x.rank ≤ y.rank)

def lt (x y : Binary64) : Bool := !x.isNaN && !y.isNaN && decide (x.rank < y.rank)

def eq (x y : Binary64) : Bool := !x.isNaN && !y.isNaN && decide (x.rank = y.rank)

/-! ## Rounding -/

/-- `n / d` to the nearest integer, to even from half way. -/
def roundHalfEven (n d : Nat) : Nat :=
  let q := n / d
  let r := 2 * (n % d)
  if d < r ∨ (d = r ∧ q % 2 = 1) then q + 1 else q

/-- The word of the magnitude `n / d`: the significand is rounded to 53 bits, and a carry out of it
goes into the exponent. Past the largest double it is an infinity. -/
def magnitudeWord (n d : Nat) : Nat :=
  let shift := (n / d).log2 - 52
  min (shift * 2 ^ 52 + roundHalfEven n (d * 2 ^ shift)) (2047 * 2 ^ 52)

def ofRat (q : Rat) : Binary64 :=
  let units := q * 2 ^ 1074
  ⟨BitVec.ofNat 64 ((if units.num < 0 then 2 ^ 63 else 0) +
    magnitudeWord units.num.natAbs units.den)⟩

/-- The sum, difference, product and quotient of finite doubles, rounded. -/
def add (x y : Binary64) : Binary64 := ofRat (x.toRat + y.toRat)

def sub (x y : Binary64) : Binary64 := ofRat (x.toRat - y.toRat)

def mul (x y : Binary64) : Binary64 := ofRat (x.toRat * y.toRat)

def div (x y : Binary64) : Binary64 := ofRat (x.toRat / y.toRat)

/-- The other sign, also of a zero. -/
def neg (x : Binary64) : Binary64 := ⟨x.word ^^^ 0x8000000000000000#64⟩

/-- A number that a double holds: at most 53 significant bits, in range. -/
def Exact (q : Rat) : Prop :=
  ∃ (units : Int) (m k : Nat), q * 2 ^ 1074 = units ∧ units.natAbs = m * 2 ^ k ∧ m < 2 ^ 53 ∧ k ≤ 2045

/-! ## Exact numbers -/

theorem roundHalfEven_of_dvd {n d : Nat} (hd : 0 < d) (h : d ∣ n) : roundHalfEven n d = n / d := by
  unfold roundHalfEven
  rw [Nat.mod_eq_zero_of_dvd h]
  simp [Nat.ne_of_gt hd]

/-- The shift of a magnitude with 53 significant bits loses none of them. -/
theorem shift_of_exact {n m k : Nat} (hn : n = m * 2 ^ k) (hm : m < 2 ^ 53) :
    2 ^ (n.log2 - 52) ∣ n ∧ n / 2 ^ (n.log2 - 52) < 2 ^ 53 ∧ n.log2 - 52 ≤ k := by
  have hlt : n / 2 ^ (n.log2 - 52) < 2 ^ 53 := by
    rw [Nat.div_lt_iff_lt_mul (Nat.two_pow_pos _), ← Nat.pow_add]
    exact Nat.lt_of_lt_of_le Nat.lt_log2_self (Nat.pow_le_pow_right (by decide) (by omega))
  have hle : n.log2 - 52 ≤ k := by
    by_cases hzero : n = 0
    · simp [hzero]
    · have hpow : n < 2 ^ (53 + k) := by
        rw [hn, Nat.pow_add]
        exact Nat.mul_lt_mul_of_pos_right hm (Nat.two_pow_pos k)
      have hlog := (Nat.log2_lt hzero).2 hpow
      omega
  refine ⟨?_, hlt, hle⟩
  rw [hn]
  exact Dvd.dvd.mul_left (Nat.pow_dvd_pow 2 (hn ▸ hle)) m

/-- The magnitude of a word without its sign. -/
def wordMagnitude (w : Nat) : Nat :=
  if w / 2 ^ 52 = 0 then w % 2 ^ 52 else (2 ^ 52 + w % 2 ^ 52) * 2 ^ (w / 2 ^ 52 - 1)

theorem magnitudeWord_le (n d : Nat) : magnitudeWord n d ≤ 2047 * 2 ^ 52 := Nat.min_le_right _ _

/-- The parts of a rounded number. -/
theorem parts_ofRat (q : Rat) :
    (ofRat q).negative = decide ((q * 2 ^ 1074).num < 0) ∧
      (ofRat q).magnitude =
        wordMagnitude (magnitudeWord (q * 2 ^ 1074).num.natAbs (q * 2 ^ 1074).den) ∧
      (ofRat q).exponent =
        magnitudeWord (q * 2 ^ 1074).num.natAbs (q * 2 ^ 1074).den / 2 ^ 52 ∧
      (ofRat q).isNaN = false := by
  have hle := magnitudeWord_le (q * 2 ^ 1074).num.natAbs (q * 2 ^ 1074).den
  have hword : (ofRat q).word.toNat = (if (q * 2 ^ 1074).num < 0 then 2 ^ 63 else 0) +
      magnitudeWord (q * 2 ^ 1074).num.natAbs (q * 2 ^ 1074).den := by
    unfold ofRat
    dsimp only
    rw [BitVec.toNat_ofNat, Nat.mod_eq_of_lt]
    split <;> omega
  generalize magnitudeWord (q * 2 ^ 1074).num.natAbs (q * 2 ^ 1074).den = w at hle hword ⊢
  have hexponent : (ofRat q).exponent = w / 2 ^ 52 := by
    rw [exponent, hword]
    split <;> omega
  have hfraction : (ofRat q).fraction = w % 2 ^ 52 := by
    rw [fraction, hword]
    split <;> omega
  refine ⟨?_, ?_, hexponent, ?_⟩
  · rw [negative, hword]
    by_cases hneg : (q * 2 ^ 1074).num < 0
    · simp [hneg]
    · simp only [hneg, if_false, decide_false, decide_eq_false_iff_not]
      omega
  · rw [magnitude, hexponent, hfraction, wordMagnitude]
  · rw [isNaN, hexponent, hfraction, decide_eq_false_iff_not]
    omega

/-- The parts of a word put together from a shift and a significand. -/
theorem word_parts {shift m : Nat} (hm : m < 2 ^ 53) (hnormal : 2 ^ 52 ≤ m ∨ shift = 0)
    (hshift : shift ≤ 2045) :
    shift * 2 ^ 52 + m < 2047 * 2 ^ 52 ∧ wordMagnitude (shift * 2 ^ 52 + m) = m * 2 ^ shift := by
  refine ⟨by omega, ?_⟩
  unfold wordMagnitude
  by_cases hsmall : m < 2 ^ 52
  · have hzero : shift = 0 := hnormal.resolve_left (by omega)
    rw [hzero, if_pos (by omega)]
    omega
  · have hdiv : (shift * 2 ^ 52 + m) / 2 ^ 52 = shift + 1 := by omega
    have hmod : (shift * 2 ^ 52 + m) % 2 ^ 52 = m - 2 ^ 52 := by omega
    rw [hdiv, hmod, if_neg (by omega), Nat.add_sub_cancel, Nat.add_sub_cancel' (by omega)]

theorem magnitudeWord_exact {n m k : Nat} (hn : n = m * 2 ^ k) (hm : m < 2 ^ 53) (hk : k ≤ 2045) :
    magnitudeWord n 1 < 2047 * 2 ^ 52 ∧ wordMagnitude (magnitudeWord n 1) = n := by
  obtain ⟨hdvd, hlt, hle⟩ := shift_of_exact hn hm
  have hnormal : 2 ^ 52 ≤ n / 2 ^ (n.log2 - 52) ∨ n.log2 - 52 = 0 := by
    by_cases hlog : n.log2 ≤ 52
    · exact .inr (by omega)
    · left
      have hzero : n ≠ 0 := by
        rintro rfl
        exact hlog (by decide)
      rw [Nat.le_div_iff_mul_le (Nat.two_pow_pos _), ← Nat.pow_add, Nat.add_sub_cancel' (by omega)]
      exact Nat.log2_self_le hzero
  obtain ⟨hbound, hvalue⟩ := word_parts hlt hnormal (hle.trans hk)
  have hword : magnitudeWord n 1 = (n.log2 - 52) * 2 ^ 52 + n / 2 ^ (n.log2 - 52) := by
    unfold magnitudeWord
    dsimp only
    rw [Nat.div_one, Nat.one_mul, roundHalfEven_of_dvd (Nat.two_pow_pos _) hdvd]
    exact Nat.min_eq_left (by omega)
  rw [hword]
  exact ⟨hbound, hvalue.trans (Nat.div_mul_cancel hdvd)⟩

/-- The parts of the double of an exact number. -/
theorem ofRat_exact {q : Rat} {units : Int} {m k : Nat} (hunits : q * 2 ^ 1074 = units)
    (habs : units.natAbs = m * 2 ^ k) (hm : m < 2 ^ 53) (hk : k ≤ 2045) :
    (ofRat q).exponent ≠ 2047 ∧ (ofRat q).magnitude = units.natAbs ∧
      (ofRat q).negative = decide (units < 0) := by
  obtain ⟨hbound, hvalue⟩ := magnitudeWord_exact habs hm hk
  obtain ⟨hnegative, hmagnitude, hexponent, -⟩ := parts_ofRat q
  rw [hunits, Rat.num_intCast, Rat.den_intCast] at hmagnitude hexponent
  rw [hunits, Rat.num_intCast] at hnegative
  refine ⟨?_, ?_, hnegative⟩
  · rw [hexponent]
    omega
  · rw [hmagnitude, hvalue]

/-- An exact number does not overflow. -/
theorem exponent_ofRat {q : Rat} (h : Exact q) : (ofRat q).exponent ≠ 2047 := by
  obtain ⟨units, m, k, hunits, habs, hm, hk⟩ := h
  exact (ofRat_exact hunits habs hm hk).1

/-- **An exact number is rounded to itself.** -/
theorem rank_ofRat {q : Rat} (h : Exact q) :
    (ofRat q).isNaN = false ∧ ((ofRat q).rank : Rat) = q * 2 ^ 1074 := by
  obtain ⟨units, m, k, hunits, habs, hm, hk⟩ := h
  obtain ⟨hfinite, hmagnitude, hnegative⟩ := ofRat_exact hunits habs hm hk
  constructor
  · simp [isNaN, hfinite]
  · rw [hunits, rank, hnegative, hmagnitude]
    by_cases hneg : units < 0
    · simp only [hneg, decide_true, if_true]
      exact_mod_cast (by omega : -(units.natAbs : Int) = units)
    · simp only [hneg, decide_false, Bool.false_eq_true, if_false]
      exact_mod_cast (by omega : (units.natAbs : Int) = units)

/-- An integer of at most 53 bits is exact. -/
theorem exact_intCast {n : Int} (h : n.natAbs < 2 ^ 53) : Exact n := by
  have hscale : ∀ k : Nat, (n * 2 ^ k).natAbs = n.natAbs * 2 ^ k := by
    intro k
    rw [Int.natAbs_mul, Int.natAbs_pow]
    rfl
  refine ⟨n * 2 ^ 1074, n.natAbs, 1074, ?_, hscale 1074, h, by omega⟩
  rw [Int.cast_mul, Int.cast_pow, Int.cast_ofNat]

section
variable {p q : Rat} (hp : Exact p) (hq : Exact q)
include hp hq

theorem rank_le_iff : (ofRat p).rank ≤ (ofRat q).rank ↔ p ≤ q := by
  have hpos : (0 : Rat) < 2 ^ 1074 := pow_pos (by decide) _
  rw [← Int.cast_le (R := Rat), (rank_ofRat hp).2, (rank_ofRat hq).2]
  exact mul_le_mul_iff_left₀ hpos

theorem le_ofRat_iff : le (ofRat p) (ofRat q) = true ↔ p ≤ q := by
  simp [le, (rank_ofRat hp).1, (rank_ofRat hq).1, rank_le_iff hp hq]

theorem lt_ofRat_iff : lt (ofRat p) (ofRat q) = true ↔ p < q := by
  simp [lt, (rank_ofRat hp).1, (rank_ofRat hq).1, ← not_le, rank_le_iff hq hp]

theorem eq_ofRat_iff : eq (ofRat p) (ofRat q) = true ↔ p = q := by
  have hrank : (ofRat p).rank = (ofRat q).rank ↔ p = q := by
    rw [le_antisymm_iff, rank_le_iff hp hq, rank_le_iff hq hp, ← le_antisymm_iff]
  simp [eq, (rank_ofRat hp).1, (rank_ofRat hq).1, hrank]

end

/-! ## Rounding keeps the order -/

/-- The floor of a larger fraction is no smaller. -/
theorem div_le_div {n d n' d' : Nat} (hd : 0 < d) (hd' : 0 < d') (h : n * d' ≤ n' * d) :
    n / d ≤ n' / d' := by
  rw [Nat.le_div_iff_mul_le hd']
  refine Nat.le_of_mul_le_mul_right ?_ hd
  calc n / d * d' * d = n / d * d * d' := by ring
    _ ≤ n * d' := Nat.mul_le_mul_right _ (Nat.div_mul_le_self n d)
    _ ≤ n' * d := h

theorem div_le_roundHalfEven (n d : Nat) : n / d ≤ roundHalfEven n d := by
  unfold roundHalfEven
  dsimp only
  split <;> omega

theorem roundHalfEven_le_succ (n d : Nat) : roundHalfEven n d ≤ n / d + 1 := by
  unfold roundHalfEven
  dsimp only
  split <;> omega

theorem roundHalfEven_mono {n d n' d' : Nat} (hd : 0 < d) (hd' : 0 < d') (h : n * d' ≤ n' * d) :
    roundHalfEven n d ≤ roundHalfEven n' d' := by
  have hquot := div_le_div hd hd' h
  rcases Nat.lt_or_eq_of_le hquot with hlt | heq
  · exact Nat.le_trans (roundHalfEven_le_succ n d) (Nat.le_trans hlt (div_le_roundHalfEven n' d'))
  · -- the same floor: what is left over decides
    have hrest : n % d * d' ≤ n' % d' * d := by
      have hn : n / d * d * d' + n % d * d' = n * d' := by
        rw [← Nat.add_mul, Nat.div_add_mod']
      have hn' : n / d * d * d' + n' % d' * d = n' * d := by
        rw [heq, Nat.mul_right_comm, ← Nat.add_mul, Nat.div_add_mod']
      omega
    have hlt : d < 2 * (n % d) → d' < 2 * (n' % d') := by
      intro hd₂
      refine Nat.lt_of_mul_lt_mul_right (a := d) ?_
      calc d' * d < 2 * (n % d) * d' := by
            rw [Nat.mul_comm]
            exact Nat.mul_lt_mul_of_pos_right hd₂ hd'
        _ = 2 * (n % d * d') := Nat.mul_assoc ..
        _ ≤ 2 * (n' % d' * d) := Nat.mul_le_mul_left 2 hrest
        _ = 2 * (n' % d') * d := (Nat.mul_assoc ..).symm
    have hle : d = 2 * (n % d) → d' ≤ 2 * (n' % d') := by
      intro hd₂
      refine Nat.le_of_mul_le_mul_right ?_ hd
      calc d' * d = 2 * (n % d) * d' := by rw [← hd₂, Nat.mul_comm]
        _ = 2 * (n % d * d') := Nat.mul_assoc ..
        _ ≤ 2 * (n' % d' * d) := Nat.mul_le_mul_left 2 hrest
        _ = 2 * (n' % d') * d := (Nat.mul_assoc ..).symm
    unfold roundHalfEven
    dsimp only
    rw [← heq]
    split
    · rename_i hcond
      rw [if_pos]
      rcases hcond with hcond | ⟨hcond, hodd⟩
      · exact .inl (hlt hcond)
      · have := hle hcond
        omega
    · split <;> omega

theorem magnitudeWord_mono {n d n' d' : Nat} (hd : 0 < d) (hd' : 0 < d') (h : n * d' ≤ n' * d) :
    magnitudeWord n d ≤ magnitudeWord n' d' := by
  have hquot := div_le_div hd hd' h
  have hlog : (n / d).log2 ≤ (n' / d').log2 := by
    by_cases hzero : n / d = 0
    · simp [hzero]
    · have hzero' : n' / d' ≠ 0 := by
        intro hzero'
        rw [hzero'] at hquot
        exact hzero (Nat.le_zero.1 hquot)
      rw [Nat.le_log2 hzero']
      exact Nat.le_trans (Nat.log2_self_le hzero) hquot
  unfold magnitudeWord
  dsimp only
  refine min_le_min_right _ ?_
  rcases Nat.lt_or_eq_of_le (Nat.sub_le_sub_right hlog 52) with hlt | heq
  · -- a larger exponent: the significand of the smaller one is at most `2 ^ 53`
    have hsmall : roundHalfEven n (d * 2 ^ ((n / d).log2 - 52)) ≤ 2 ^ 53 := by
      have hbits : n / (d * 2 ^ ((n / d).log2 - 52)) < 2 ^ 53 := by
        rw [← Nat.div_div_eq_div_mul, Nat.div_lt_iff_lt_mul (Nat.two_pow_pos _), ← Nat.pow_add]
        exact Nat.lt_of_lt_of_le Nat.lt_log2_self (Nat.pow_le_pow_right (by decide) (by omega))
      have := roundHalfEven_le_succ n (d * 2 ^ ((n / d).log2 - 52))
      omega
    have hlarge : 2 ^ 52 ≤ roundHalfEven n' (d' * 2 ^ ((n' / d').log2 - 52)) := by
      refine Nat.le_trans ?_ (div_le_roundHalfEven ..)
      rw [← Nat.div_div_eq_div_mul, Nat.le_div_iff_mul_le (Nat.two_pow_pos _), ← Nat.pow_add,
        Nat.add_sub_cancel' (by omega)]
      exact Nat.log2_self_le (by
        intro hzero
        rw [hzero] at hlt
        simp at hlt)
    omega
  · rw [← heq]
    refine Nat.add_le_add_left (roundHalfEven_mono ?_ ?_ ?_) _
    · exact Nat.mul_pos hd (Nat.two_pow_pos _)
    · exact Nat.mul_pos hd' (Nat.two_pow_pos _)
    · rw [← Nat.mul_assoc, ← Nat.mul_assoc]
      exact Nat.mul_le_mul_right _ h

theorem wordMagnitude_mono {w w' : Nat} (h : w ≤ w') : wordMagnitude w ≤ wordMagnitude w' := by
  unfold wordMagnitude
  have hdiv : w / 2 ^ 52 ≤ w' / 2 ^ 52 := Nat.div_le_div_right h
  by_cases hzero' : w' / 2 ^ 52 = 0
  · rw [if_pos (by omega), if_pos hzero']
    omega
  · rw [if_neg hzero']
    have hone : 1 ≤ 2 ^ (w' / 2 ^ 52 - 1) := Nat.one_le_two_pow
    by_cases hzero : w / 2 ^ 52 = 0
    · rw [if_pos hzero]
      calc w % 2 ^ 52 ≤ (2 ^ 52 + w' % 2 ^ 52) * 1 := by omega
        _ ≤ _ := Nat.mul_le_mul_left _ hone
    · rw [if_neg hzero]
      rcases Nat.lt_or_eq_of_le hdiv with hlt | heq
      · calc (2 ^ 52 + w % 2 ^ 52) * 2 ^ (w / 2 ^ 52 - 1)
            ≤ 2 ^ 53 * 2 ^ (w / 2 ^ 52 - 1) := Nat.mul_le_mul_right _ (by omega)
          _ = 2 ^ 52 * 2 ^ (w / 2 ^ 52) := by
            rw [← Nat.pow_add, ← Nat.pow_add]
            congr 1
            omega
          _ ≤ (2 ^ 52 + w' % 2 ^ 52) * 2 ^ (w' / 2 ^ 52 - 1) :=
            Nat.mul_le_mul (by omega) (Nat.pow_le_pow_right (by decide) (by omega))
      · rw [heq]
        exact Nat.mul_le_mul_right _ (by omega)

/-- **Rounding keeps the order.** -/
theorem rank_mono {p q : Rat} (h : p ≤ q) : (ofRat p).rank ≤ (ofRat q).rank := by
  have hpos : (0 : Rat) < 2 ^ 1074 := pow_pos (by decide) _
  have hunits : p * 2 ^ 1074 ≤ q * 2 ^ 1074 := mul_le_mul_of_nonneg_right h hpos.le
  obtain ⟨hnegative, hmagnitude, -, -⟩ := parts_ofRat p
  obtain ⟨hnegative', hmagnitude', -, -⟩ := parts_ofRat q
  rw [rank, rank, hnegative, hnegative', hmagnitude, hmagnitude']
  generalize p * 2 ^ 1074 = P at *
  generalize q * 2 ^ 1074 = Q at *
  rw [Rat.le_iff] at hunits
  have hP : (0 : Int) < P.den := by exact_mod_cast P.den_pos
  have hQ : (0 : Int) < Q.den := by exact_mod_cast Q.den_pos
  by_cases hneg : P.num < 0 <;> by_cases hneg' : Q.num < 0 <;>
    simp only [hneg, hneg', decide_true, decide_false, if_true, Bool.false_eq_true, if_false]
  · have hle : Q.num.natAbs * P.den ≤ P.num.natAbs * Q.den := by
      zify
      rw [abs_of_neg hneg, abs_of_neg hneg']
      linarith
    have := wordMagnitude_mono (magnitudeWord_mono Q.den_pos P.den_pos hle)
    omega
  · omega
  · -- a number that is not negative is not below a negative one
    have hle := Int.mul_nonneg (Int.not_lt.1 hneg) hQ.le
    have hlt := Int.mul_neg_of_neg_of_pos hneg' hP
    omega
  · have hle : P.num.natAbs * Q.den ≤ Q.num.natAbs * P.den := by
      zify
      rw [abs_of_nonneg (Int.not_lt.1 hneg), abs_of_nonneg (Int.not_lt.1 hneg')]
      exact hunits
    exact_mod_cast wordMagnitude_mono (magnitudeWord_mono P.den_pos Q.den_pos hle)

theorem toRat_mono {p q : Rat} (h : p ≤ q) : (ofRat p).toRat ≤ (ofRat q).toRat :=
  div_le_div_of_nonneg_right (by exact_mod_cast rank_mono h) (pow_nonneg (by decide) _)

theorem toRat_ofRat {q : Rat} (h : Exact q) : (ofRat q).toRat = q := by
  have hpos : (0 : Rat) < 2 ^ 1074 := pow_pos (by decide) _
  rw [toRat, (rank_ofRat h).2]
  exact mul_div_cancel_right₀ q hpos.ne'

/-- Rounding does not cross a number that a double holds. -/
theorem le_toRat {d q : Rat} (hd : Exact d) (h : d ≤ q) : d ≤ (ofRat q).toRat := by
  rw [← toRat_ofRat hd]
  exact toRat_mono h

theorem toRat_le {d q : Rat} (hd : Exact d) (h : q ≤ d) : (ofRat q).toRat ≤ d := by
  rw [← toRat_ofRat hd]
  exact toRat_mono h

/-- Few bits over a power of two. -/
theorem exact_div_two_pow {n k : Nat} (hn : n < 2 ^ 53) (hk : k ≤ 1074) :
    Exact ((n : Rat) / 2 ^ k) := by
  refine ⟨(n * 2 ^ (1074 - k) : Nat), n, 1074 - k, ?_, Int.natAbs_natCast _, hn, by omega⟩
  have hpow : (2 : Rat) ^ 1074 = 2 ^ k * 2 ^ (1074 - k) := by
    rw [← pow_add, Nat.add_sub_cancel' hk]
  have hpos : (2 : Rat) ^ k ≠ 0 := pow_ne_zero _ (by decide)
  rw [hpow, Int.cast_natCast, Nat.cast_mul, Nat.cast_pow, Nat.cast_ofNat]
  field_simp

/-! ## Comparisons of numbers -/

theorem isNaN_ofRat (q : Rat) : (ofRat q).isNaN = false := (parts_ofRat q).2.2.2

section
variable {x y : Binary64} (hx : x.isNaN = false) (hy : y.isNaN = false)
include hx hy

theorem le_iff_toRat : le x y = true ↔ x.toRat ≤ y.toRat := by
  have hpos : (0 : Rat) < 2 ^ 1074 := pow_pos (by decide) _
  rw [toRat, toRat, div_le_div_iff_of_pos_right hpos, Int.cast_le]
  simp [le, hx, hy]

theorem lt_iff_toRat : lt x y = true ↔ x.toRat < y.toRat := by
  have hpos : (0 : Rat) < 2 ^ 1074 := pow_pos (by decide) _
  rw [toRat, toRat, div_lt_div_iff_of_pos_right hpos, Int.cast_lt]
  simp [lt, hx, hy]

theorem eq_iff_toRat : eq x y = true ↔ x.toRat = y.toRat := by
  have hpos : (0 : Rat) < 2 ^ 1074 := pow_pos (by decide) _
  rw [toRat, toRat, div_left_inj' hpos.ne', Int.cast_inj]
  simp [eq, hx, hy]

end

section
variable {x y : Binary64}

/-- A comparison that holds is one of numbers. -/
theorem toRat_of_le (h : le x y = true) :
    x.isNaN = false ∧ y.isNaN = false ∧ x.toRat ≤ y.toRat := by
  have hnan : x.isNaN = false ∧ y.isNaN = false := by
    simp only [le, Bool.and_eq_true, Bool.not_eq_eq_eq_not, Bool.not_true] at h
    exact h.1
  exact ⟨hnan.1, hnan.2, (le_iff_toRat hnan.1 hnan.2).1 h⟩

theorem toRat_of_eq (h : eq x y = true) : x.toRat = y.toRat := by
  have hnan : x.isNaN = false ∧ y.isNaN = false := by
    simp only [eq, Bool.and_eq_true, Bool.not_eq_eq_eq_not, Bool.not_true] at h
    exact h.1
  exact (eq_iff_toRat hnan.1 hnan.2).1 h

end

theorem toRat_zero : (ofRat 0).toRat = 0 := toRat_ofRat (by simpa using exact_intCast (n := 0))

/-! ## Bounds in units of a power of two -/

/-- The double lies between `lo` and `hi` units of `2 ^ -k`. -/
structure Within (k : Nat) (x : Binary64) (lo hi : Nat) : Prop where
  lower : (lo : Rat) / 2 ^ k ≤ x.toRat
  upper : x.toRat ≤ (hi : Rat) / 2 ^ k

section
variable {k lo hi lo' hi' : Nat} {x y : Binary64}

theorem within_ofRat {q : Rat} (hk : k ≤ 1074) (hlo : (lo : Rat) / 2 ^ k ≤ q)
    (hhi : q ≤ (hi : Rat) / 2 ^ k) (hbits : hi < 2 ^ 53) : Within k (ofRat q) lo hi := by
  have hpos : (0 : Rat) < 2 ^ k := pow_pos (by decide) _
  have hle : lo ≤ hi := by
    have := (div_le_div_iff_of_pos_right hpos).1 (hlo.trans hhi)
    exact_mod_cast this
  exact ⟨le_toRat (exact_div_two_pow (by omega) hk) hlo, toRat_le (exact_div_two_pow hbits hk) hhi⟩

/-- **A rounded sum** is bounded by the sums of the bounds. -/
theorem Within.add (hx : Within k x lo hi) (hy : Within k y lo' hi') (hk : k ≤ 1074)
    (hbits : hi + hi' < 2 ^ 53) : Within k (add x y) (lo + lo') (hi + hi') := by
  refine within_ofRat hk ?_ ?_ hbits
  · rw [Nat.cast_add, add_div]
    exact add_le_add hx.lower hy.lower
  · rw [Nat.cast_add, add_div]
    exact add_le_add hx.upper hy.upper

/-- **A rounded quotient**, in units of its own. -/
theorem Within.div {m n u : Nat} (hx : Within k x lo hi) (hy : Within k y lo' hi') (hpos : 0 < lo')
    (hu : u ≤ 1074) (hm : m * hi' ≤ lo * 2 ^ u) (hn : hi * 2 ^ u ≤ n * lo') (hbits : n < 2 ^ 53) :
    Within u (div x y) m n := by
  have hk : (0 : Rat) < 2 ^ k := pow_pos (by decide) _
  have hup : (0 : Rat) < 2 ^ u := pow_pos (by decide) _
  have hlo' : (0 : Rat) < lo' := by exact_mod_cast hpos
  have hy₀ : 0 < y.toRat := lt_of_lt_of_le (div_pos hlo' hk) hy.lower
  refine within_ofRat hu ?_ ?_ hbits
  · rw [le_div_iff₀ hy₀, div_mul_eq_mul_div, div_le_iff₀ hup]
    have hm : (m : Rat) * hi' ≤ lo * 2 ^ u := by exact_mod_cast hm
    calc (m : Rat) * y.toRat ≤ m * (hi' / 2 ^ k) :=
          mul_le_mul_of_nonneg_left hy.upper (Nat.cast_nonneg m)
      _ = m * hi' / 2 ^ k := (mul_div_assoc ..).symm
      _ ≤ lo * 2 ^ u / 2 ^ k := div_le_div_of_nonneg_right hm hk.le
      _ = lo / 2 ^ k * 2 ^ u := (div_mul_eq_mul_div ..).symm
      _ ≤ x.toRat * 2 ^ u := mul_le_mul_of_nonneg_right hx.lower hup.le
  · rw [div_le_iff₀ hy₀, div_mul_eq_mul_div, le_div_iff₀ hup]
    have hn : (hi : Rat) * 2 ^ u ≤ n * lo' := by exact_mod_cast hn
    calc x.toRat * 2 ^ u ≤ hi / 2 ^ k * 2 ^ u := mul_le_mul_of_nonneg_right hx.upper hup.le
      _ = hi * 2 ^ u / 2 ^ k := div_mul_eq_mul_div ..
      _ ≤ n * lo' / 2 ^ k := div_le_div_of_nonneg_right hn hk.le
      _ = n * (lo' / 2 ^ k) := mul_div_assoc ..
      _ ≤ n * y.toRat := mul_le_mul_of_nonneg_left hy.lower (Nat.cast_nonneg n)

/-- The rounded sum of a list, added up from the left. -/
theorem within_foldl_add {β : Type} {f : β → Binary64} {l h : β → Nat} (hk : k ≤ 1074) :
    ∀ (vs : List β) (acc : Binary64) (lo hi : Nat), (∀ v ∈ vs, Within k (f v) (l v) (h v)) →
      Within k acc lo hi → hi + (vs.map h).sum < 2 ^ 53 →
      Within k (vs.foldl (fun acc v => add acc (f v)) acc) (lo + (vs.map l).sum)
        (hi + (vs.map h).sum)
  | [], acc, lo, hi, _, hacc, _ => by simpa using hacc
  | v :: vs, acc, lo, hi, hvs, hacc, hbits => by
    rw [List.map_cons, List.sum_cons, ← Nat.add_assoc] at hbits
    have hstep := hacc.add (hvs v List.mem_cons_self) hk (by omega)
    have hrest := within_foldl_add hk vs _ _ _ (fun w hw => hvs w (List.mem_cons_of_mem v hw)) hstep
      hbits
    rw [List.foldl_cons, List.map_cons, List.map_cons, List.sum_cons, List.sum_cons, ← Nat.add_assoc,
      ← Nat.add_assoc]
    exact hrest

end

end Binary64

/-!
## Numbers of a Python program

The arithmetic, comparisons, literals and fixed-point format that a computation on numbers uses. A
program's own numbers are doubles; the same computation on rationals is the exact one.
-/

class Number (α : Type) extends Zero α, Add α, Sub α, Mul α, Div α, LT α, LE α, BEq α,
    OfScientific α where
  decidableLT : DecidableLT α
  decidableLE : DecidableLE α
  /-- `f"{x:.2f}"`, for any number of digits. -/
  fixed : Nat → α → String

attribute [reducible, instance] Number.decidableLT Number.decidableLE

namespace Number

variable {α : Type} [Number α]

/-- `f"{x:.0%}"`. -/
def percent (x : α) : String := fixed 0 (x * 100.0) ++ "%"

/-- `max(x, y)`. -/
def max (x y : α) : α := if x < y then y else x

/-- `max(xs, key=f)`, given how two keys compare: the first of the largest ones. -/
def firstMax {β : Type} (lt : β → β → Bool) (first : β) (rest : List β) : β :=
  rest.foldl (fun best x => if lt best x then x else best) first

def maxBy {β : Type} (f : β → α) (first : β) (rest : List β) : β :=
  firstMax (fun x y => decide (f x < f y)) first rest

/-- `<` of two tuples: numbers, and a text last. -/
def tupleLt : List α → String → List α → String → Bool
  | x :: xs, s, y :: ys, t => if x == y then tupleLt xs s ys t else decide (x < y)
  | _, s, _, t => decide (s < t)

/-- A number rounded to these digits after the point, to even from half way. -/
def fixedRat (digits : Nat) (q : Rat) : String :=
  let n := Binary64.roundHalfEven (q.num.natAbs * 10 ^ digits) q.den
  let fraction := (Nat.toDigits 10 (n % 10 ^ digits)).leftpad digits '0'
  (if q < 0 then "-" else "") ++ toString (n / 10 ^ digits) ++
    if digits = 0 then "" else "." ++ String.ofList fraction

instance : Number Rat where
  decidableLT := inferInstance
  decidableLE := inferInstance
  fixed := fixedRat

end Number

namespace Binary64

instance : Zero Binary64 := ⟨ofRat 0⟩

instance : Number Binary64 where
  add := add
  sub := sub
  mul := mul
  div := div
  lt x y := lt x y = true
  le x y := le x y = true
  beq := eq
  ofScientific m s e := ofRat (OfScientific.ofScientific m s e)
  decidableLT x y := inferInstanceAs (Decidable (lt x y = true))
  decidableLE x y := inferInstanceAs (Decidable (le x y = true))
  fixed digits x := Number.fixedRat digits x.toRat

/-- `round(x, digits)`, to even from half way; a zero keeps the sign of `x`. -/
def round (digits : Nat) (x : Binary64) : Binary64 :=
  let q := x.toRat
  let n := roundHalfEven (q.num.natAbs * 10 ^ digits) q.den
  let y := ofRat (n / 10 ^ digits)
  if x.negative then y.neg else y

end Binary64

end Lib
