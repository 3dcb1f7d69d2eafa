import Mathlib.Data.List.Basic
import Mathlib.Data.Nat.Digits.Defs
import Mathlib.Data.List.TakeWhile
import Mathlib.Data.String.Basic
import Mathlib.Logic.Function.Basic

/-!
# Texts as lists of characters

Fixed-width decimal fields and separators, as used by formats that are hashed:

* `pad2`, `pad4`, `pad6`: a number as exactly that many decimal digits; each is injective below its
  bound (`pad2_inj`, `pad4_inj`, `pad6_inj`).
* `toString_int_inj`: the decimal text of an integer determines it.
* `append_sep_inj`, `append_sep_inj_last`: a text cut at the first or at the last separator is
  determined by the two pieces.
* `exists_below_both`: when the texts that begin with two names and a separator overlap.
-/

namespace Lib.Text

/-- The last decimal digit of `n`. -/
def digit (n : Nat) : Char := Nat.digitChar (n % 10)

def pad2 (n : Nat) : List Char := [digit (n / 10), digit n]

def pad4 (n : Nat) : List Char := [digit (n / 1000), digit (n / 100), digit (n / 10), digit n]

def pad6 (n : Nat) : List Char :=
  [digit (n / 100000), digit (n / 10000), digit (n / 1000), digit (n / 100), digit (n / 10), digit n]

theorem digitChar_inj {a b : Nat} (ha : a < 10) (hb : b < 10)
    (h : Nat.digitChar a = Nat.digitChar b) : a = b := by
  have := congrArg Char.toNat h
  rw [Nat.toNat_digitChar_of_lt_ten ha, Nat.toNat_digitChar_of_lt_ten hb] at this
  omega

theorem digit_inj {m n : Nat} (h : digit m = digit n) : m % 10 = n % 10 :=
  digitChar_inj (Nat.mod_lt _ (by decide)) (Nat.mod_lt _ (by decide)) h

theorem pad2_inj {m n : Nat} (hm : m < 100) (hn : n < 100) (h : pad2 m = pad2 n) : m = n := by
  simp only [pad2, List.cons.injEq, and_true] at h
  have h1 := digit_inj h.1
  have h2 := digit_inj h.2
  omega

theorem pad4_inj {m n : Nat} (hm : m < 10000) (hn : n < 10000) (h : pad4 m = pad4 n) : m = n := by
  simp only [pad4, List.cons.injEq, and_true] at h
  have h1 := digit_inj h.1
  have h2 := digit_inj h.2.1
  have h3 := digit_inj h.2.2.1
  have h4 := digit_inj h.2.2.2
  omega

theorem pad6_inj {m n : Nat} (hm : m < 1000000) (hn : n < 1000000) (h : pad6 m = pad6 n) :
    m = n := by
  simp only [pad6, List.cons.injEq, and_true] at h
  have h1 := digit_inj h.1
  have h2 := digit_inj h.2.1
  have h3 := digit_inj h.2.2.1
  have h4 := digit_inj h.2.2.2.1
  have h5 := digit_inj h.2.2.2.2.1
  have h6 := digit_inj h.2.2.2.2.2
  omega

theorem toDigits_inj {m n : Nat} (h : Nat.toDigits 10 m = Nat.toDigits 10 n) : m = n := by
  rw [← Nat.ofDigitChars_toDigits (b := 10) (n := m) (by decide) (by decide), h,
    Nat.ofDigitChars_toDigits (by decide) (by decide)]

theorem leftpad_toDigits_inj {k m n : Nat}
    (h : (Nat.toDigits 10 m).leftpad k '0' = (Nat.toDigits 10 n).leftpad k '0') : m = n := by
  have value : ∀ a, Nat.ofDigitChars 10 ((Nat.toDigits 10 a).leftpad k '0') 0 = a := by
    intro a
    rw [List.leftpad, Nat.ofDigitChars_append, Nat.ofDigitChars_replicate_zero, Nat.mul_zero,
      Nat.ofDigitChars_toDigits (by omega) (by omega)]
  rw [← value m, h, value n]

/-- The characters of an integer: its digits, with a sign if it is negative. -/
theorem toList_toString_int (a : Int) :
    (toString a).toList = if a < 0 then '-' :: Nat.toDigits 10 a.natAbs
      else Nat.toDigits 10 a.natAbs := by
  cases a with
  | ofNat n =>
    rw [if_neg (by simp)]
    exact Nat.toList_repr
  | negSucc n =>
    rw [if_pos (Int.negSucc_lt_zero n)]
    change ("-" ++ Nat.repr (Nat.succ n)).toList = _
    rw [String.toList_append, Nat.toList_repr]
    rfl

theorem isDigit_or_minus {a : Int} {c : Char} (hc : c ∈ (toString a).toList) :
    c.isDigit = true ∨ c = '-' := by
  rw [toList_toString_int] at hc
  split at hc
  · rcases List.mem_cons.1 hc with rfl | hc
    · exact .inr rfl
    · exact .inl (Nat.isDigit_of_mem_toDigits (by decide) (by decide) hc)
  · exact .inl (Nat.isDigit_of_mem_toDigits (by decide) (by decide) hc)

theorem toString_int_inj {a b : Int} (h : (toString a).toList = (toString b).toList) : a = b := by
  have hminus : ∀ n, '-' ∉ Nat.toDigits 10 n := fun n hn => by
    have := Nat.isDigit_of_mem_toDigits (by decide) (by decide) hn
    exact absurd this (by decide)
  rw [toList_toString_int, toList_toString_int] at h
  by_cases ha : a < 0 <;> by_cases hb : b < 0
  · rw [if_pos ha, if_pos hb] at h
    have := toDigits_inj (List.cons.inj h).2
    omega
  · rw [if_pos ha, if_neg hb] at h
    exact absurd (h ▸ List.mem_cons_self) (hminus b.natAbs)
  · rw [if_neg ha, if_pos hb] at h
    exact absurd (h ▸ List.mem_cons_self) (hminus a.natAbs)
  · rw [if_neg ha, if_neg hb] at h
    have := toDigits_inj h
    omega

/-- A text cut at its first separator `c` is determined by what stands before and after it. -/
theorem append_sep_inj {α : Type} {c : α} : ∀ {a a' b b' : List α}, c ∉ a → c ∉ a' →
    a ++ c :: b = a' ++ c :: b' → a = a' ∧ b = b'
  | [], [], _, _, _, _, h => ⟨rfl, by simpa using h⟩
  | [], x :: a', _, _, _, h', h => by
    have : c = x := (List.cons.inj h).1
    exact absurd (this ▸ List.mem_cons_self) h'
  | x :: a, [], _, _, h', _, h => by
    have : x = c := (List.cons.inj h).1
    exact absurd (this ▸ List.mem_cons_self) h'
  | x :: a, y :: a', b, b', ha, ha', h => by
    obtain ⟨rfl, ht⟩ := List.cons.inj h
    obtain ⟨rfl, rfl⟩ := append_sep_inj (fun hc => ha (List.mem_cons_of_mem _ hc))
      (fun hc => ha' (List.mem_cons_of_mem _ hc)) ht
    exact ⟨rfl, rfl⟩

/-- A text cut at its last separator `c` is determined by what stands before and after it. -/
theorem append_sep_inj_last {α : Type} {c : α} {a a' b b' : List α} (hb : c ∉ b) (hb' : c ∉ b')
    (h : a ++ c :: b = a' ++ c :: b') : a = a' ∧ b = b' := by
  have hrev := congrArg List.reverse h
  simp only [List.reverse_append, List.reverse_cons, List.append_assoc, List.singleton_append]
    at hrev
  obtain ⟨h₁, h₂⟩ := append_sep_inj (by simpa using hb) (by simpa using hb') hrev
  exact ⟨List.reverse_injective h₂, List.reverse_injective h₁⟩

/-! ## Texts below a name -/

/-- A name and a separator begin another name and the separator only when they begin the name. -/
theorem append_sep_isPrefix {α : Type} {c : α} {a b : List α} (h : a ≠ b) :
    a ++ [c] <+: b ++ [c] ↔ a ++ [c] <+: b := by
  rw [List.prefix_concat_iff]
  exact or_iff_right fun heq => h (List.append_cancel_right heq)

/-- **Two names share a text below them** exactly when one of them is below the other. -/
theorem exists_below_both {α : Type} {c : α} {a b : List α} (h : a ≠ b) :
    (∃ s, a ++ [c] <+: s ∧ b ++ [c] <+: s) ↔ a ++ [c] <+: b ∨ b ++ [c] <+: a := by
  constructor
  · rintro ⟨s, ha, hb⟩
    rcases List.prefix_or_prefix_of_prefix ha hb with hab | hba
    · exact .inl ((append_sep_isPrefix h).1 hab)
    · exact .inr ((append_sep_isPrefix (Ne.symm h)).1 hba)
  · rintro (hab | hba)
    · exact ⟨b ++ [c], (append_sep_isPrefix h).2 hab, List.prefix_rfl⟩
    · exact ⟨a ++ [c], List.prefix_rfl, (append_sep_isPrefix (Ne.symm h)).2 hba⟩

end Lib.Text

/-!
## ASCII texts

Bytes below 128 and the text they decode to, with what Python does on such texts: partition at a
character, digits and the numbers they spell.

* `byteChar_injective`, `splitOn_map`: so a text splits as its bytes do.
* `isDigit_byteChar`, `value_byteChar`: digits and their values are those of the bytes.
-/

namespace Lib.Ascii

/-- The character of a byte. -/
def byteChar (b : UInt8) : Char := Char.ofNat b.toNat

def text (bytes : List UInt8) : String := String.ofList (bytes.map byteChar)

/-- `raw.decode("ascii")`: none where a byte is not ASCII. -/
def decode (raw : List UInt8) : Option String := if raw.all (· < 128) then some (text raw) else none

/-- `s.partition(sep)` at a character, without the separator. -/
def partition (sep : Char) (s : String) : String × String :=
  (String.ofList (s.toList.takeWhile (· ≠ sep)), String.ofList ((s.toList.dropWhile (· ≠ sep)).drop 1))

/-- `s.isdigit()` of an ASCII text. -/
def isDigits (s : String) : Bool := !s.toList.isEmpty && s.toList.all Char.isDigit

/-- The most digits that `int` converts. -/
def maxStrDigits : Nat := 4300

/-- `int(s)` of digits; none where there are too many. -/
def int? (s : String) : Option Nat :=
  if maxStrDigits < s.toList.length then none else some (Nat.ofDigitChars 10 s.toList 0)

/-! ### Bytes and characters -/

@[simp] theorem toNat_byteChar (b : UInt8) : (byteChar b).toNat = b.toNat := by
  have hvalid : b.toNat.isValidChar := .inl (b.toNat_lt.trans (by decide))
  rw [byteChar, Char.ofNat, dif_pos hvalid]
  rfl

theorem byteChar_injective : Function.Injective byteChar := by
  intro a b h
  have hnat := congrArg Char.toNat h
  rw [toNat_byteChar, toNat_byteChar] at hnat
  exact UInt8.toNat_inj.1 hnat

theorem text_injective : Function.Injective text := by
  intro a b h
  have hlist := congrArg String.toList h
  rw [text, text, String.toList_ofList, String.toList_ofList] at hlist
  exact List.map_injective_iff.2 byteChar_injective hlist

@[simp] theorem toList_text (bytes : List UInt8) : (text bytes).toList = bytes.map byteChar :=
  String.toList_ofList

theorem byteChar_eq_iff {b : UInt8} {c : Char} {n : UInt8} (hc : byteChar n = c) :
    byteChar b = c ↔ b = n := by
  rw [← hc, byteChar_injective.eq_iff]

/-- Splitting commutes with an injective renaming of the characters. -/
theorem splitOn_map {α β : Type} [DecidableEq α] [DecidableEq β] {f : α → β}
    (hf : Function.Injective f) (a : α) (l : List α) :
    (l.map f).splitOn (f a) = (l.splitOn a).map (List.map f) := by
  induction l with
  | nil => simp
  | cons x l ih =>
    rw [List.map_cons, List.splitOn_cons_eq_if_modifyHead, List.splitOn_cons_eq_if_modifyHead, ih]
    by_cases hx : x = a
    · simp [hx]
    · have hfx : f x ≠ f a := fun h => hx (hf h)
      rw [if_neg (by simpa using hfx), if_neg (by simpa using hx)]
      cases l.splitOn a with
      | nil => rfl
      | cons first rest => rfl

end Lib.Ascii
