import RegEngine.Lib.Text
import RegEngine.Lib.Python

/-!
# Integers in Python's texts

`str.isdigit`, and `int` of a text in base 10 and in base 16: blanks around the number, a sign, single
underscores between digits, the prefix of base 16, and the decimal digits of every script. The digits
are those of Unicode 15.0.

* `int?_toString`: a number is read back from its decimal text.
-/

namespace Lib.Python

/-- The zero of each script that has decimal digits; the other nine follow it. -/
def decimalZeros : List Nat :=
  [48, 1632, 1776, 1984, 2406, 2534, 2662, 2790, 2918, 3046, 3174, 3302, 3430, 3558, 3664, 3792, 3872,
    4160, 4240, 6112, 6160, 6470, 6608, 6784, 6800, 6992, 7088, 7232, 7248, 42528, 43216, 43264, 43472,
    43504, 43600, 44016, 65296, 66720, 68912, 69734, 69872, 69942, 70096, 70384, 70736, 70864, 71248,
    71360, 71472, 71904, 72016, 72784, 73040, 73120, 73552, 92768, 92864, 93008, 120782, 120792, 120802,
    120812, 120822, 123200, 123632, 124144, 125264, 130032]

/-- The digits that no number is written with: superscripts, digits in circles and the like. -/
def otherDigits : List (Nat × Nat) :=
  [(178, 179), (185, 185), (4969, 4977), (6618, 6618), (8304, 8304), (8308, 8313), (8320, 8329),
    (9312, 9320), (9332, 9340), (9352, 9360), (9450, 9450), (9461, 9469), (9471, 9471),
    (10102, 10110), (10112, 10120), (10122, 10130), (68160, 68163), (69216, 69224), (69714, 69722),
    (127232, 127242)]

/-- The value of a decimal digit. -/
def decimal? (c : Char) : Option Nat :=
  (decimalZeros.find? fun z => z ≤ c.toNat ∧ c.toNat < z + 10).map (c.toNat - ·)

def isDigitChar (c : Char) : Bool :=
  (decimal? c).isSome || otherDigits.any fun r => r.1 ≤ c.toNat ∧ c.toNat ≤ r.2

/-- `s.isdigit()`. -/
def isdigit (s : String) : Bool := !s.toList.isEmpty && s.toList.all isDigitChar

/-- The blanks around a number: within ASCII the six of C, past it every space. -/
def isIntSpace (c : Char) : Bool :=
  if c.toNat < 127 then (9 ≤ c.toNat ∧ c.toNat ≤ 13) ∨ c = ' ' else isSpace c

/-- The value of a character as a digit of a base. -/
def digitValue? (base : Nat) (c : Char) : Option Nat :=
  let value :=
    if 'a' ≤ c ∧ c ≤ 'z' then some (c.toNat - 87)
    else if 'A' ≤ c ∧ c ≤ 'Z' then some (c.toNat - 55)
    else decimal? c
  value.filter (· < base)

/-- The number written by digits with single underscores between them; the flag says that the character
before was a digit. -/
def digitsValue (base : Nat) : Nat → Bool → List Char → Option Nat
  | n, afterDigit, [] => if afterDigit then some n else none
  | n, afterDigit, c :: cs =>
    if c = '_' then if afterDigit then digitsValue base n false cs else none
    else (digitValue? base c).bind fun d => digitsValue base (base * n + d) true cs

/-- Past the sign, and whether it was a minus. -/
def takeSign : List Char → Bool × List Char
  | [] => (false, [])
  | c :: cs => if c = '-' then (true, cs) else if c = '+' then (false, cs) else (false, c :: cs)

/-- Past `0x` and one underscore after it. -/
def dropHexPrefix : List Char → List Char
  | '0' :: x :: cs =>
    if x = 'x' ∨ x = 'X' then if cs.head? = some '_' then cs.tail else cs else '0' :: x :: cs
  | cs => cs

/-- The limit that only bases other than powers of two have. -/
def withinLimit (base : Nat) (cs : List Char) : Bool :=
  base ≠ 10 || (cs.filter (· ≠ '_')).length ≤ Ascii.maxStrDigits

/-- `int(s, base)` for the bases 10 and 16; `none` is a `ValueError`. -/
def int? (base : Nat) (s : String) : Option Int :=
  let signed := takeSign (stripChars isIntSpace s.toList)
  let body := if base = 16 then dropHexPrefix signed.2 else signed.2
  if withinLimit base body then
    (digitsValue base 0 false body).map fun n : Nat => if signed.1 then -(n : Int) else n
  else none

/-! ## A number's own text -/

theorem digitValue?_of_isDigit {base : Nat} {c : Char} (hbase : 10 ≤ base) (h : c.isDigit = true) :
    digitValue? base c = some (c.toNat - 48) := by
  have hc : 48 ≤ c.toNat ∧ c.toNat ≤ 57 := Char.isDigit_iff_toNat.1 h
  have hdec : decimal? c = some (c.toNat - 48) := by
    rw [decimal?, decimalZeros, List.find?_cons_of_pos (by simp; omega)]
    rfl
  have hlower : ¬ ('a' ≤ c ∧ c ≤ 'z') := by
    intro h
    have hle : ('a' : Char).toNat ≤ c.toNat := h.1
    have ha : ('a' : Char).toNat = 97 := rfl
    omega
  have hupper : ¬ ('A' ≤ c ∧ c ≤ 'Z') := by
    intro h
    have hle : ('A' : Char).toNat ≤ c.toNat := h.1
    have hA : ('A' : Char).toNat = 65 := rfl
    omega
  simp only [digitValue?, hlower, hupper, if_false, hdec]
  rw [Option.filter_some, if_pos (by simpa using by omega)]

theorem digitsValue_of_allDigits {base : Nat} (hbase : 10 ≤ base) :
    ∀ {l : List Char} {n : Nat} {afterDigit : Bool}, (∀ c ∈ l, c.isDigit = true) →
      (l ≠ [] ∨ afterDigit = true) →
      digitsValue base n afterDigit l = some (Nat.ofDigitChars base l n)
  | [], n, afterDigit, _, h => by
    have h : afterDigit = true := by simpa using h
    simp [digitsValue, h]
  | c :: cs, n, afterDigit, hall, _ => by
    have hc : c.isDigit = true := hall c (by simp)
    have hne : c ≠ '_' := by
      intro h
      rw [h] at hc
      exact absurd hc (by decide)
    rw [digitsValue, if_neg hne, digitValue?_of_isDigit hbase hc, Option.bind_some,
      digitsValue_of_allDigits hbase (fun d hd => hall d (by simp [hd])) (.inr rfl),
      Nat.ofDigitChars_cons]
    rfl

/-- A character that is no blank at either end. -/
theorem stripChars_of_ends {p : Char → Bool} {l : List Char} (hhead : ∀ c ∈ l.head?, p c = false)
    (hlast : ∀ c ∈ l.getLast?, p c = false) : stripChars p l = l := by
  have hdrop : ∀ {m : List Char}, (∀ c ∈ m.head?, p c = false) → m.dropWhile p = m := by
    intro m hm
    cases m with
    | nil => rfl
    | cons c cs => exact List.dropWhile_cons_of_neg (by simp [hm c (by simp)])
  have hlast' : ∀ c ∈ l.reverse.head?, p c = false := by
    rw [List.head?_reverse]
    exact hlast
  rw [stripChars, hdrop hhead, hdrop hlast', List.reverse_reverse]

theorem isIntSpace_of_isDigit {c : Char} (h : c.isDigit = true) : isIntSpace c = false := by
  have hc : 48 ≤ c.toNat ∧ c.toNat ≤ 57 := Char.isDigit_iff_toNat.1 h
  have hne : c ≠ ' ' := by
    intro h
    rw [h] at hc
    exact absurd hc (by decide)
  have hrange : ¬ (9 ≤ c.toNat ∧ c.toNat ≤ 13) := by omega
  have hlt : c.toNat < 127 := by omega
  simp [isIntSpace, hlt, hrange, hne]

theorem toDigits_all (n : Nat) : ∀ c ∈ Nat.toDigits 10 n, c.isDigit = true := fun _ hc =>
  Nat.isDigit_of_mem_toDigits (by omega) (by omega) hc

theorem takeSign_digits {l : List Char} (hne : l ≠ []) (hall : ∀ c ∈ l, c.isDigit = true) :
    takeSign l = (false, l) := by
  cases l with
  | nil => exact absurd rfl hne
  | cons c cs =>
    have hc : c.isDigit = true := hall c (by simp)
    have hminus : c ≠ '-' := by
      intro h
      rw [h] at hc
      exact absurd hc (by decide)
    have hplus : c ≠ '+' := by
      intro h
      rw [h] at hc
      exact absurd hc (by decide)
    simp [takeSign, hminus, hplus]

/-- **A number is read back from its text**, when it has no more digits than `int` reads. -/
theorem int?_toString {n : Int}
    (h : (Nat.toDigits 10 n.natAbs).length ≤ Ascii.maxStrDigits) : int? 10 (toString n) = some n := by
  have hall := toDigits_all n.natAbs
  have hne : Nat.toDigits 10 n.natAbs ≠ [] := Nat.toDigits_ne_nil
  have hlast : ∀ c ∈ (Nat.toDigits 10 n.natAbs).getLast?, isIntSpace c = false := fun c hc =>
    isIntSpace_of_isDigit (hall c (List.mem_of_mem_getLast? hc))
  have hlimit : withinLimit 10 (Nat.toDigits 10 n.natAbs) = true := by
    have hle := (List.length_filter_le (· ≠ '_') (Nat.toDigits 10 n.natAbs)).trans h
    simpa [withinLimit] using hle
  have hvalue : digitsValue 10 0 false (Nat.toDigits 10 n.natAbs) = some n.natAbs := by
    rw [digitsValue_of_allDigits (le_refl 10) hall (.inl hne),
      Nat.ofDigitChars_toDigits (by decide) (by decide)]
  by_cases hneg : n < 0
  · have htext : (toString n).toList = '-' :: Nat.toDigits 10 n.natAbs := by
      rw [Text.toList_toString_int, if_pos hneg]
    have hstrip : stripChars isIntSpace (toString n).toList = '-' :: Nat.toDigits 10 n.natAbs := by
      rw [htext]
      refine stripChars_of_ends (by simp [isIntSpace]) ?_
      rw [List.getLast?_cons_of_ne_nil hne]
      exact hlast
    have hsign : takeSign ('-' :: Nat.toDigits 10 n.natAbs) = (true, Nat.toDigits 10 n.natAbs) := rfl
    simp only [int?, hstrip, hsign, hlimit, if_true, show ¬ (10 = 16) by decide, if_false, hvalue,
      Option.map_some]
    congr 1
    omega
  · have htext : (toString n).toList = Nat.toDigits 10 n.natAbs := by
      rw [Text.toList_toString_int, if_neg hneg]
    have hstrip : stripChars isIntSpace (toString n).toList = Nat.toDigits 10 n.natAbs := by
      rw [htext]
      exact stripChars_of_ends (fun c hc => isIntSpace_of_isDigit (hall c (List.mem_of_mem_head? hc)))
        hlast
    simp only [int?, hstrip, takeSign_digits hne hall, hlimit, if_true, show ¬ (10 = 16) by decide,
      if_false, hvalue, Option.map_some, Bool.false_eq_true]
    congr 1
    omega

/-- Numbers of at most a hundred digits. -/
theorem int?_toString_of_lt {n : Nat} (h : n < 10 ^ 100) : int? 10 (toString n) = some (n : Int) := by
  have hlen : (Nat.toDigits 10 n).length ≤ 100 :=
    (Nat.length_toDigits_le_iff (by omega) (by omega)).2 h
  exact int?_toString (n := n) (hlen.trans (by decide))

end Lib.Python
