import RegEngine.Lib.Json
import RegEngine.Lib.Text

/-!
# The text of a number determines it

* `Decimal.repr_inj`: the text of a float determines the float. Positional texts are compared as a
  number over a power of ten, scientific ones part by part.
* `toString_ne_repr`: no integer has the text of a float.
* `numeral_append_inj`: a number's text ends where no character of a numeral follows.
-/

namespace Lib

open Lib.Text

/-! ## Numbers of ten -/

/-- A number that does not end in `0` is determined by its multiple with a power of ten. -/
theorem mul_pow_ten_inj {a b i j : Nat} (ha : a % 10 ≠ 0) (hb : b % 10 ≠ 0)
    (h : a * 10 ^ i = b * 10 ^ j) : a = b ∧ i = j := by
  induction i generalizing j with
  | zero =>
    cases j with
    | zero => exact ⟨by simpa using h, rfl⟩
    | succ j =>
      rw [Nat.pow_succ, ← Nat.mul_assoc, Nat.pow_zero] at h
      omega
  | succ i ih =>
    cases j with
    | zero =>
      rw [Nat.pow_succ, ← Nat.mul_assoc, Nat.pow_zero] at h
      omega
    | succ j =>
      rw [Nat.pow_succ, Nat.pow_succ, ← Nat.mul_assoc, ← Nat.mul_assoc] at h
      obtain ⟨hab, hij⟩ := ih (Nat.eq_of_mul_eq_mul_right (by decide) h)
      exact ⟨hab, by omega⟩

namespace Decimal

/-- Decimals of one sign, with one mantissa in size and one exponent. -/
theorem eq_of_parts {d e : Decimal} (hsign : d.mantissa < 0 ↔ e.mantissa < 0)
    (hm : d.mantissa.natAbs = e.mantissa.natAbs) (hexp : d.exponent = e.exponent) : d = e := by
  obtain ⟨m, x, hd⟩ := d
  obtain ⟨n, y, he⟩ := e
  obtain rfl : m = n := by
    simp only at hsign hm
    omega
  obtain rfl : x = y := hexp
  rfl

/-- Decimals of one size and sign: the sizes are put over one power of ten. -/
theorem eq_of_scaled {d e : Decimal} {k : Nat} (hsign : d.mantissa < 0 ↔ e.mantissa < 0)
    (hd : 0 ≤ d.exponent + k) (he : 0 ≤ e.exponent + k)
    (h : d.mantissa.natAbs * 10 ^ (d.exponent + k).toNat =
      e.mantissa.natAbs * 10 ^ (e.exponent + k).toNat) : d = e := by
  have hpow : ∀ n, 0 < 10 ^ n := fun n => Nat.pow_pos (by decide)
  rcases d.shortest with ⟨hm, hx⟩ | hm <;> rcases e.shortest with ⟨hn, hy⟩ | hn
  · exact eq_of_parts hsign (by rw [hm, hn]) (by rw [hx, hy])
  · rw [hm, Int.natAbs_zero, Nat.zero_mul] at h
    have := hpow (e.exponent + k).toNat
    rcases Nat.mul_eq_zero.1 h.symm with h0 | h0 <;> omega
  · rw [hn, Int.natAbs_zero, Nat.zero_mul] at h
    have := hpow (d.exponent + k).toNat
    rcases Nat.mul_eq_zero.1 h with h0 | h0 <;> omega
  · obtain ⟨hmn, hxy⟩ := mul_pow_ten_inj (by omega) (by omega) h
    exact eq_of_parts hsign hmn (by omega)

/-! ## The parts of `repr` -/

def digits (d : Decimal) : List Char := Nat.toDigits 10 d.mantissa.natAbs

def signChars (d : Decimal) : List Char := if d.mantissa < 0 then ['-'] else []

/-- Only digits. -/
def AllDigits (l : List Char) : Prop := ∀ c ∈ l, c.isDigit = true

theorem digits_all (d : Decimal) : AllDigits d.digits :=
  fun _ hc => Nat.isDigit_of_mem_toDigits (by decide) (by decide) hc

theorem digits_length_pos (d : Decimal) : 0 < d.digits.length :=
  List.length_pos_iff.2 Nat.toDigits_ne_nil

theorem ofDigitChars_digits (d : Decimal) :
    Nat.ofDigitChars 10 d.digits 0 = d.mantissa.natAbs :=
  Nat.ofDigitChars_toDigits (by decide) (by decide)

/-- The text is `whole.fraction`: digits that denote the number over a power of ten. -/
structure Positional (d : Decimal) (whole fraction : List Char) : Prop where
  text : d.repr.toList = d.signChars ++ (whole ++ '.' :: fraction)
  whole_ne : whole ≠ []
  whole_all : AllDigits whole
  fraction_all : AllDigits fraction
  scale : 0 ≤ d.exponent + fraction.length
  value : Nat.ofDigitChars 10 (whole ++ fraction) 0 =
    d.mantissa.natAbs * 10 ^ (d.exponent + fraction.length).toNat

/-- An exponent after the `e`. -/
def exponentChars (e : Int) : List Char :=
  (if e < 0 then '-' else '+') ::
    ((if e.natAbs < 10 then ['0'] else []) ++ Nat.toDigits 10 e.natAbs)

/-- The digits with a point after the first, unless it is the only one. -/
def pointed (l : List Char) : List Char :=
  l.take 1 ++ (if l.length = 1 then [] else '.' :: l.drop 1)

/-- The text is in scientific notation. -/
def Scientific (d : Decimal) : Prop :=
  d.repr.toList = d.signChars ++
    (pointed d.digits ++ 'e' :: exponentChars (d.digits.length + d.exponent - 1))

theorem allDigits_append {l m : List Char} (hl : AllDigits l) (hm : AllDigits m) :
    AllDigits (l ++ m) :=
  fun c hc => (List.mem_append.1 hc).elim (hl c) (hm c)

theorem allDigits_zeros (n : Nat) : AllDigits (List.replicate n '0') := by
  intro c hc
  obtain rfl := (List.mem_replicate.1 hc).2
  rfl

theorem signChars_toList (d : Decimal) :
    (if d.mantissa < 0 then "-" else "").toList = d.signChars := by
  unfold signChars
  split <;> rfl

theorem digits_toList (d : Decimal) : (toString d.mantissa.natAbs).toList = d.digits :=
  Nat.toList_repr

theorem ofDigitChars_zeros (n : Nat) (init : Nat) :
    Nat.ofDigitChars 10 (List.replicate n '0') init = init * 10 ^ n := by
  rw [Nat.ofDigitChars_replicate_zero, Nat.mul_comm]

/-- No digit before the point. -/
theorem positional_below {d : Decimal} (hlow : -4 < (d.digits.length : Int) + d.exponent)
    (hpoint : (d.digits.length : Int) + d.exponent ≤ 0) :
    Positional d ['0']
      (List.replicate (-((d.digits.length : Int) + d.exponent)).toNat '0' ++ d.digits) where
  text := by
    simp only [repr, digits_toList]
    rw [String.toList_append, signChars_toList, if_pos ⟨hlow, by omega⟩, if_pos hpoint]
    simp only [String.toList_append, String.toList_ofList]
    rfl
  whole_ne := List.cons_ne_nil _ _
  whole_all := allDigits_zeros 1
  fraction_all := allDigits_append (allDigits_zeros _) (digits_all d)
  scale := by
    rw [List.length_append, List.length_replicate]
    omega
  value := by
    have hzeros : ∀ n, ['0'] ++ (List.replicate n '0' ++ d.digits) =
        List.replicate (n + 1) '0' ++ d.digits := fun n => rfl
    rw [hzeros, Nat.ofDigitChars_append, ofDigitChars_zeros, Nat.zero_mul, ofDigitChars_digits,
      List.length_append, List.length_replicate]
    rw [show (d.exponent + ((-((d.digits.length : Int) + d.exponent)).toNat + d.digits.length : Nat)
      ).toNat = 0 by omega, Nat.pow_zero, Nat.mul_one]

/-- No digit after the point but a zero. -/
theorem positional_whole {d : Decimal} (hhigh : (d.digits.length : Int) + d.exponent ≤ 16)
    (hexp : 0 ≤ d.exponent) :
    Positional d (d.digits ++ List.replicate d.exponent.toNat '0') ['0'] where
  text := by
    have hpos := digits_length_pos d
    simp only [repr, digits_toList]
    rw [String.toList_append, signChars_toList, if_pos ⟨by omega, hhigh⟩, if_neg (by omega),
      if_pos (by omega), show ((d.digits.length : Int) + d.exponent).toNat - d.digits.length = d.exponent.toNat by omega]
    simp only [String.toList_append, String.toList_ofList]
    rfl
  whole_ne := by
    have := digits_length_pos d
    rw [Ne, List.append_eq_nil_iff, ← List.length_eq_zero_iff]
    omega
  whole_all := allDigits_append (digits_all d) (allDigits_zeros _)
  fraction_all := allDigits_zeros 1
  scale := by
    rw [List.length_singleton]
    omega
  value := by
    have hzeros : d.digits ++ List.replicate d.exponent.toNat '0' ++ ['0'] =
        d.digits ++ List.replicate (d.exponent.toNat + 1) '0' := by
      rw [List.append_assoc, List.replicate_succ']
    rw [hzeros, Nat.ofDigitChars_append, ofDigitChars_digits, ofDigitChars_zeros,
      List.length_singleton, show (d.exponent + ((1 : Nat) : Int)).toNat = d.exponent.toNat + 1 by omega]

/-- The point is among the digits. -/
theorem positional_within {d : Decimal} {p : Nat} (hp : (p : Int) = d.digits.length + d.exponent)
    (hpos : 0 < p) (hhigh : p ≤ 16) (hexp : d.exponent < 0) :
    Positional d (d.digits.take p) (d.digits.drop p) where
  text := by
    simp only [repr, digits_toList]
    rw [← hp, String.toList_append, signChars_toList, if_pos ⟨by omega, by omega⟩,
      if_neg (by omega), if_neg (by omega), Int.toNat_natCast]
    simp only [String.toList_append, String.toList_ofList, List.append_assoc]
    rfl
  whole_ne := by
    have := digits_length_pos d
    rw [Ne, ← List.length_eq_zero_iff, List.length_take]
    omega
  whole_all := fun c hc => digits_all d c (List.mem_of_mem_take hc)
  fraction_all := fun c hc => digits_all d c (List.mem_of_mem_drop hc)
  scale := by
    rw [List.length_drop]
    omega
  value := by
    rw [List.take_append_drop, ofDigitChars_digits, List.length_drop,
      show (d.exponent + (d.digits.length - p : Nat)).toNat = 0 by omega, Nat.pow_zero, Nat.mul_one]

theorem exponentText_toList (e : Int) : (exponentText e).toList = exponentChars e := by
  unfold exponentText exponentChars
  have hdigits : (toString e.natAbs).toList = Nat.toDigits 10 e.natAbs := Nat.toList_repr
  simp only [String.toList_append, hdigits]
  split <;> split <;> rfl

theorem scientific_of_far {d : Decimal}
    (h : ¬ (-4 < (d.digits.length : Int) + d.exponent ∧ (d.digits.length : Int) + d.exponent ≤ 16)) :
    Scientific d := by
  unfold Scientific
  simp only [repr, digits_toList]
  rw [String.toList_append, signChars_toList, if_neg h]
  simp only [String.toList_append, String.toList_ofList, exponentText_toList, pointed]
  split <;> simp

/-- A text of a float is one or the other. -/
theorem repr_cases (d : Decimal) : (∃ whole fraction, Positional d whole fraction) ∨ Scientific d := by
  by_cases hrange : -4 < (d.digits.length : Int) + d.exponent ∧
      (d.digits.length : Int) + d.exponent ≤ 16
  · refine .inl ?_
    by_cases hpoint : (d.digits.length : Int) + d.exponent ≤ 0
    · exact ⟨_, _, positional_below hrange.1 hpoint⟩
    · by_cases hexp : 0 ≤ d.exponent
      · exact ⟨_, _, positional_whole hrange.2 hexp⟩
      · have hp : (((d.digits.length : Int) + d.exponent).toNat : Int) =
            d.digits.length + d.exponent := by omega
        exact ⟨_, _, positional_within hp (by omega) (by omega) (by omega)⟩
  · exact .inr (scientific_of_far hrange)

/-! ## The text of a float -/

theorem not_mem_of_allDigits {l : List Char} {c : Char} (h : AllDigits l)
    (hc : c.isDigit = false) : c ∉ l := fun hmem => by
  rw [h c hmem] at hc
  cases hc

/-- A body that begins with a digit tells the sign apart. -/
theorem signChars_append_inj {d e : Decimal} {c c' : Char} {r r' : List Char}
    (hc : c.isDigit = true) (hc' : c'.isDigit = true)
    (h : d.signChars ++ c :: r = e.signChars ++ c' :: r') :
    (d.mantissa < 0 ↔ e.mantissa < 0) ∧ c :: r = c' :: r' := by
  have hminus : '-'.isDigit = false := rfl
  unfold signChars at h
  split_ifs at h with hd he he
  · exact ⟨⟨fun _ => he, fun _ => hd⟩, (List.cons.inj h).2⟩
  · rw [← (List.cons.inj h).1, hminus] at hc'
    cases hc'
  · rw [(List.cons.inj h).1, hminus] at hc
    cases hc
  · exact ⟨⟨fun h => absurd h hd, fun h => absurd h he⟩, h⟩

theorem mem_pointed {l : List Char} {c : Char} (h : c ∈ pointed l) : c ∈ l ∨ c = '.' := by
  unfold pointed at h
  rcases List.mem_append.1 h with h | h
  · exact .inl (List.mem_of_mem_take h)
  · split at h
    · cases h
    · rcases List.mem_cons.1 h with h | h
      · exact .inr h
      · exact .inl (List.mem_of_mem_drop h)

theorem filter_pointed {l : List Char} (h : AllDigits l) (hpos : 0 < l.length) :
    (pointed l).filter (fun c => c ≠ '.') = l := by
  have hkeep : ∀ m : List Char, AllDigits m → m.filter (fun c => c ≠ '.') = m := by
    intro m hm
    rw [List.filter_eq_self]
    intro c hc
    have : c ≠ '.' := fun hdot => not_mem_of_allDigits hm rfl (hdot ▸ hc)
    simpa using this
  cases l with
  | nil => exact absurd hpos (Nat.lt_irrefl 0)
  | cons c rest =>
    have hc : AllDigits [c] := fun x hx => h x (by simp_all)
    have hrest : AllDigits rest := fun x hx => h x (List.mem_cons_of_mem _ hx)
    unfold pointed
    rw [List.filter_append, List.take_succ_cons, List.take_zero, hkeep _ hc, List.drop_succ_cons,
      List.drop_zero]
    split_ifs with hone
    · rw [List.length_cons] at hone
      rw [List.length_eq_zero_iff.1 (show rest.length = 0 by omega)]
      rfl
    · rw [List.filter_cons_of_neg (by simp), hkeep _ hrest]
      rfl

theorem exponentChars_inj {e f : Int} (h : exponentChars e = exponentChars f) : e = f := by
  have hvalue : ∀ n : Nat, Nat.ofDigitChars 10
      ((if n < 10 then ['0'] else []) ++ Nat.toDigits 10 n) 0 = n := by
    intro n
    have hread : Nat.ofDigitChars 10 (Nat.toDigits 10 n) 0 = n :=
      Nat.ofDigitChars_toDigits (by decide) (by decide)
    split
    · rw [Nat.ofDigitChars_append]
      exact hread
    · exact hread
  obtain ⟨hsign, hdigits⟩ := List.cons.inj h
  have habs : e.natAbs = f.natAbs := by rw [← hvalue e.natAbs, hdigits, hvalue]
  split_ifs at hsign with he hf hf
  · omega
  · exact absurd hsign (by decide)
  · exact absurd hsign (by decide)
  · omega

/-- A positional text has no `e` in it, and begins with a digit after its sign. -/
theorem Positional.body {d : Decimal} {whole fraction : List Char}
    (h : Positional d whole fraction) : ∃ c rest, whole ++ '.' :: fraction = c :: rest ∧
      c.isDigit = true ∧ 'e' ∉ c :: rest := by
  cases whole with
  | nil => exact absurd rfl h.whole_ne
  | cons c rest =>
    refine ⟨c, rest ++ '.' :: fraction, rfl, h.whole_all c List.mem_cons_self, ?_⟩
    intro hmem
    rcases List.mem_append.1 (show 'e' ∈ (c :: rest) ++ '.' :: fraction from hmem) with he | he
    · exact not_mem_of_allDigits h.whole_all rfl he
    · rcases List.mem_cons.1 he with he | he
      · exact absurd he (by decide)
      · exact not_mem_of_allDigits h.fraction_all rfl he

theorem pointed_cons (d : Decimal) : ∃ c rest, pointed d.digits = c :: rest ∧ c.isDigit = true := by
  have hall := digits_all d
  have hpos := digits_length_pos d
  cases hd : d.digits with
  | nil =>
    rw [hd] at hpos
    exact absurd hpos (Nat.lt_irrefl 0)
  | cons c rest => exact ⟨c, _, rfl, hall c (hd ▸ List.mem_cons_self)⟩

theorem e_not_mem_pointed (d : Decimal) : 'e' ∉ pointed d.digits := fun h =>
  (mem_pointed h).elim (not_mem_of_allDigits (digits_all d) rfl) (by decide)

theorem Positional.eq {d e : Decimal} {whole fraction whole' fraction' : List Char}
    (hd : Positional d whole fraction) (he : Positional e whole' fraction')
    (h : d.repr = e.repr) : d = e := by
  have hl := congrArg String.toList h
  obtain ⟨c, rest, hbody, hc, -⟩ := hd.body
  obtain ⟨c', rest', hbody', hc', -⟩ := he.body
  rw [hd.text, he.text, hbody, hbody'] at hl
  obtain ⟨hsign, hrest⟩ := signChars_append_inj hc hc' hl
  rw [← hbody, ← hbody'] at hrest
  obtain ⟨rfl, rfl⟩ := append_sep_inj (not_mem_of_allDigits hd.whole_all rfl)
    (not_mem_of_allDigits he.whole_all rfl) hrest
  exact eq_of_scaled hsign hd.scale he.scale (hd.value.symm.trans he.value)

theorem Scientific.eq {d e : Decimal} (hd : Scientific d) (he : Scientific e)
    (h : d.repr = e.repr) : d = e := by
  have hl := congrArg String.toList h
  obtain ⟨c, rest, hbody, hc⟩ := pointed_cons d
  obtain ⟨c', rest', hbody', hc'⟩ := pointed_cons e
  rw [hd, he, hbody, hbody', List.cons_append, List.cons_append] at hl
  obtain ⟨hsign, hrest⟩ := signChars_append_inj hc hc' hl
  rw [← List.cons_append, ← hbody, ← List.cons_append, ← hbody'] at hrest
  obtain ⟨hpointed, hexp⟩ := append_sep_inj (e_not_mem_pointed d) (e_not_mem_pointed e) hrest
  have hdigits : d.digits = e.digits := by
    rw [← filter_pointed (digits_all d) (digits_length_pos d), hpointed,
      filter_pointed (digits_all e) (digits_length_pos e)]
  have hpoint := exponentChars_inj hexp
  rw [hdigits] at hpoint
  exact eq_of_parts hsign (toDigits_inj hdigits) (by omega)

/-- A positional text is no scientific one. -/
theorem Positional.ne {d e : Decimal} {whole fraction : List Char}
    (hd : Positional d whole fraction) (he : Scientific e) : d.repr ≠ e.repr := by
  intro h
  have hl := congrArg String.toList h
  obtain ⟨c, rest, hbody, hc, hnot⟩ := hd.body
  obtain ⟨c', rest', hbody', hc'⟩ := pointed_cons e
  rw [hd.text, he, hbody, hbody'] at hl
  obtain ⟨-, hrest⟩ := signChars_append_inj hc hc' hl
  rw [hrest] at hnot
  simp at hnot

/-- **The text of a float determines it.** -/
theorem repr_inj {d e : Decimal} (h : d.repr = e.repr) : d = e := by
  rcases repr_cases d with ⟨_, _, hd⟩ | hd <;> rcases repr_cases e with ⟨_, _, he⟩ | he
  · exact hd.eq he h
  · exact absurd h (hd.ne he)
  · exact absurd h.symm (he.ne hd)
  · exact hd.eq he h

/-! ## Numerals -/

/-- The characters of a number's text. -/
def isNumeral (c : Char) : Bool := c.isDigit || c == '-' || c == '+' || c == '.' || c == 'e'

theorem isNumeral_of_isDigit {c : Char} (h : c.isDigit = true) : isNumeral c = true := by
  simp [isNumeral, h]

theorem isNumeral_signChars {d : Decimal} {c : Char} (h : c ∈ d.signChars) : isNumeral c = true := by
  unfold signChars at h
  split at h
  · obtain rfl := List.mem_singleton.1 h
    rfl
  · cases h

theorem isNumeral_exponentChars {e : Int} {c : Char} (h : c ∈ exponentChars e) :
    isNumeral c = true := by
  unfold exponentChars at h
  rcases List.mem_cons.1 h with rfl | h
  · split <;> rfl
  · rcases List.mem_append.1 h with h | h
    · split at h
      · obtain rfl := List.mem_singleton.1 h
        rfl
      · cases h
    · exact isNumeral_of_isDigit (Nat.isDigit_of_mem_toDigits (by decide) (by decide) h)

theorem isNumeral_repr {d : Decimal} {c : Char} (h : c ∈ d.repr.toList) : isNumeral c = true := by
  rcases repr_cases d with ⟨whole, fraction, hd⟩ | hd
  · rw [hd.text] at h
    rcases List.mem_append.1 h with h | h
    · exact isNumeral_signChars h
    rcases List.mem_append.1 h with h | h
    · exact isNumeral_of_isDigit (hd.whole_all c h)
    rcases List.mem_cons.1 h with rfl | h
    · rfl
    · exact isNumeral_of_isDigit (hd.fraction_all c h)
  · rw [hd] at h
    rcases List.mem_append.1 h with h | h
    · exact isNumeral_signChars h
    rcases List.mem_append.1 h with h | h
    · rcases mem_pointed h with h | rfl
      · exact isNumeral_of_isDigit (digits_all d c h)
      · rfl
    rcases List.mem_cons.1 h with rfl | h
    · rfl
    · exact isNumeral_exponentChars h

/-- The text of a float is not that of an integer: it has a point or an `e` in it. -/
theorem dot_or_e_mem_repr (d : Decimal) : '.' ∈ d.repr.toList ∨ 'e' ∈ d.repr.toList := by
  rcases repr_cases d with ⟨whole, fraction, hd⟩ | hd
  · rw [hd.text]
    simp
  · rw [hd]
    simp

end Decimal

theorem isNumeral_toString {n : Int} {c : Char} (h : c ∈ (toString n).toList) :
    Decimal.isNumeral c = true := by
  rcases isDigit_or_minus h with h | rfl
  · exact Decimal.isNumeral_of_isDigit h
  · rfl

theorem toString_ne_repr (n : Int) (d : Decimal) : (toString n).toList ≠ d.repr.toList := by
  intro h
  have hno : ∀ c, c ∈ d.repr.toList → c.isDigit = true ∨ c = '-' := fun c hc =>
    isDigit_or_minus (h ▸ hc)
  rcases Decimal.dot_or_e_mem_repr d with hc | hc
  · rcases hno _ hc with hc | hc <;> exact absurd hc (by decide)
  · rcases hno _ hc with hc | hc <;> exact absurd hc (by decide)

/-- The rest does not go on with a numeral. -/
def Stops (r : List Char) : Prop := ∀ c rest, r = c :: rest → Decimal.isNumeral c = false

theorem stops_nil : Stops [] := by
  intro c rest h
  cases h

theorem stops_cons {c : Char} {r : List Char} (h : Decimal.isNumeral c = false) :
    Stops (c :: r) := by
  intro c' rest h'
  cases h'
  exact h

/-- A numeral ends where the rest stops. -/
theorem numeral_append_inj {l m r s : List Char} (hl : ∀ c ∈ l, Decimal.isNumeral c = true)
    (hm : ∀ c ∈ m, Decimal.isNumeral c = true) (hr : Stops r) (hs : Stops s)
    (h : l ++ r = m ++ s) : l = m ∧ r = s := by
  have hread : ∀ {l r : List Char}, (∀ c ∈ l, Decimal.isNumeral c = true) → Stops r →
      (l ++ r).takeWhile Decimal.isNumeral = l := by
    intro l r hl hr
    rw [List.takeWhile_append_of_pos hl]
    cases r with
    | nil => simp
    | cons c rest => rw [List.takeWhile_cons_of_neg (by simp [hr c rest rfl]), List.append_nil]
  have hlm : l = m := by rw [← hread hl hr, h, hread hm hs]
  rw [hlm] at h
  exact ⟨hlm, List.append_cancel_left h⟩

end Lib
