import Mathlib.NumberTheory.LucasPrimality
import Mathlib.Tactic.NormNum.Prime

/-!
# Powers modulo a number, and large primes

`powMod` squares and multiplies; `powMod_eq` says what it computes. With it Lucas's criterion, for a
number whose predecessor is given as a product of primes, is a test that can be evaluated
(`prime_of_factors`); the order of the curve BN254 passes it (`bn254_prime`).
-/

namespace Lib

/-- `pow(a, n, p)` over the lowest `bits` bits of `n`. -/
def powMod (p : Nat) : Nat → Nat → Nat → Nat
  | 0, _, _ => 1 % p
  | bits + 1, a, n => (if n % 2 = 1 then a else 1) * powMod p bits (a * a % p) (n / 2) % p

theorem powMod_eq (p : Nat) : ∀ {bits : Nat} (a : Nat) {n : Nat}, n < 2 ^ bits →
    powMod p bits a n = a ^ n % p
  | 0, a, n, h => by
    have hn : n = 0 := by omega
    rw [hn, powMod, pow_zero]
  | bits + 1, a, n, h => by
    have hhalf : n / 2 < 2 ^ bits := by
      rw [pow_succ] at h
      omega
    have hsquare : (a * a % p) ^ (n / 2) % p = (a ^ 2) ^ (n / 2) % p := by
      rw [← Nat.pow_mod, pow_two]
    have hbit : (if n % 2 = 1 then a else 1) = a ^ (n % 2) := by
      rcases Nat.mod_two_eq_zero_or_one n with h0 | h1
      · simp [h0]
      · simp [h1]
    have hsplit : a ^ (n % 2) * (a ^ 2) ^ (n / 2) = a ^ n := by
      rw [← pow_mul, ← pow_add, Nat.mod_add_div]
    rw [powMod, powMod_eq p _ hhalf, hsquare, hbit, Nat.mul_mod, Nat.mod_mod, ← Nat.mul_mod, hsplit]

namespace Primality

theorem cast_pow_eq_one_iff {p : ℕ} (hp : 2 ≤ p) (a n : ℕ) :
    (a : ZMod p) ^ n = 1 ↔ a ^ n % p = 1 := by
  have hone : 1 % p = 1 := Nat.mod_eq_of_lt (by omega)
  rw [← Nat.cast_pow, ← Nat.cast_one, ZMod.natCast_eq_natCast_iff', hone]

/-- Lucas's test with the base `a`, over factors of `p - 1`. -/
def lucas (bits p a : ℕ) (factors : List ℕ) : Bool :=
  2 ≤ p && p ≤ 2 ^ bits && factors.prod = p - 1 && powMod p bits a (p - 1) = 1 &&
    factors.all fun q => powMod p bits a ((p - 1) / q) ≠ 1

/-- The factors are given in two parts: small primes, and those that were tested before. -/
theorem prime_of_factors {p : ℕ} (bits a : ℕ) (small tested : List ℕ) (hsmall : ∀ q ∈ small, q.Prime)
    (htested : ∀ q ∈ tested, q.Prime) (h : lucas bits p a (small ++ tested) = true) : p.Prime := by
  simp only [lucas, Bool.and_eq_true, decide_eq_true_eq, List.all_eq_true] at h
  obtain ⟨⟨⟨⟨hp, hbits⟩, hprod⟩, hone⟩, hne⟩ := h
  have hpow : ∀ n ≤ p - 1, powMod p bits a n = a ^ n % p := fun n hn => powMod_eq p a (by omega)
  refine lucas_primality p (a : ZMod p) ?_ fun q hq hdvd => ?_
  · rw [cast_pow_eq_one_iff hp, ← hpow _ (le_refl _)]
    exact hone
  · obtain ⟨r, hr, hqr⟩ : ∃ r ∈ small ++ tested, q ∣ r := by
      rw [← hprod] at hdvd
      exact (Prime.dvd_prod_iff hq.prime).1 hdvd
    have hrprime : r.Prime := (List.mem_append.1 hr).elim (hsmall r) (htested r)
    have heq : q = r := (Nat.prime_dvd_prime_iff_eq hq hrprime).1 hqr
    rw [ne_eq, cast_pow_eq_one_iff hp, heq, ← hpow _ (Nat.div_le_self _ _)]
    exact hne r hr

theorem prime_1593227 : Nat.Prime 1593227 := by norm_num

theorem prime_639533339 : Nat.Prime 639533339 :=
  prime_of_factors 30 2 [2, 229, 853, 1637] [] (by norm_num) (by simp) (by decide +kernel)

theorem prime_65865678001877903 : Nat.Prime 65865678001877903 :=
  prime_of_factors 56 5 [2, 83, 379, 1637] [639533339] (by norm_num)
    (by simp [prime_639533339]) (by decide +kernel)

theorem prime_13818364434197438864469338081 : Nat.Prime 13818364434197438864469338081 :=
  prime_of_factors 94 3 [2, 2, 2, 2, 2, 5, 823] [1593227, 65865678001877903] (by norm_num)
    (by simp [prime_65865678001877903, prime_1593227]) (by decide +kernel)

theorem prime_12048837557 : Nat.Prime 12048837557 :=
  prime_of_factors 34 2 [2, 2, 7, 7, 661, 93001] [] (by norm_num) (by simp)
    (by decide +kernel)

theorem prime_5156902474397 : Nat.Prime 5156902474397 :=
  prime_of_factors 43 2 [2, 2, 107] [12048837557] (by norm_num)
    (by simp [prime_12048837557]) (by decide +kernel)

theorem prime_1670836401704629 : Nat.Prime 1670836401704629 :=
  prime_of_factors 51 2 [2, 2, 3, 3, 3, 3] [5156902474397] (by norm_num)
    (by simp [prime_5156902474397]) (by decide +kernel)

theorem prime_405928799 : Nat.Prime 405928799 :=
  prime_of_factors 29 22 [2, 11, 3691, 4999] [] (by norm_num) (by simp) (by decide +kernel)

/-- **The order of BN254** is a prime. -/
theorem bn254_prime : Nat.Prime
    21888242871839275222246405745257275088548364400416034343698204186575808495617 :=
  prime_of_factors 254 5 (List.replicate 28 2 ++ [3, 3, 13, 29, 983, 11003, 237073])
    [405928799, 1670836401704629, 13818364434197438864469338081] (by norm_num)
    (by simp [prime_405928799, prime_1670836401704629, prime_13818364434197438864469338081])
    (by decide +kernel)

end Lib.Primality
