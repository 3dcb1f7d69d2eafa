import RegEngine.Native.FixTagScanner

/-!
# The decimals of the native scanner

A plain decimal is a sign, digits and perhaps a point with digits behind it (`decimalForm`). The loop
reads just these texts, as far as 15 digits go, and one division rounds the number once.

* `scanDigits_read`: what the loop makes of a run of digits.
* `parsePlainDecimal_eq`: what the whole parser accepts, and the double it returns.
-/

namespace RegEngine.Native.Fix

open Lib

/-! ## The grammar -/

/-- The parts of a decimal: the digits behind the point are `none` where there is no point. -/
structure DecimalForm where
  negative : Bool
  whole : List UInt8
  fraction : Option (List UInt8)
  deriving DecidableEq

/-- The text without its sign. -/
def unsigned (text : List UInt8) : List UInt8 := if text.head? = some kMinus then text.tail else text

/-- What stands behind the first digits: nothing, or a point and more digits. -/
def formOf (negative : Bool) (whole : List UInt8) : List UInt8 → Option DecimalForm
  | [] => some ⟨negative, whole, none⟩
  | c :: fraction =>
    if c = kPoint ∧ fraction.all isDigit = true then some ⟨negative, whole, some fraction⟩ else none

/-- `-?[0-9]+(\.[0-9]*)?`. -/
def decimalForm (text : List UInt8) : Option DecimalForm :=
  let whole := (unsigned text).takeWhile isDigit
  if whole = [] then none
  else formOf (text.head? == some kMinus) whole ((unsigned text).dropWhile isDigit)

/-- The number that digits spell behind `n`. -/
def readNumber (n : Nat) (digits : List UInt8) : Nat :=
  digits.foldl (fun n c => n * 10 + digitValue c) n

def DecimalForm.digits (form : DecimalForm) : List UInt8 := form.whole ++ form.fraction.getD []

/-- The nearest double. -/
def DecimalForm.value (form : DecimalForm) : Binary64 :=
  let value := Binary64.ofRat (readNumber 0 form.digits / (10 ^ (form.fraction.getD []).length : Nat))
  if form.negative then value.neg else value

/-- The double of a form with no more than 15 digits. -/
def DecimalForm.short? (form : DecimalForm) : Option Binary64 :=
  if form.digits.length ≤ kMaxSignificantDigits then some form.value else none

/-! ## Digits -/

theorem digitValue_lt {c : UInt8} (h : isDigit c = true) : digitValue c < 10 := by
  rw [isDigit, Bool.and_eq_true, decide_eq_true_eq, decide_eq_true_eq, UInt8.le_iff_toNat_le,
    UInt8.le_iff_toNat_le] at h
  have hzero : kZero.toNat = 48 := rfl
  have hnine : (0x39 : UInt8).toNat = 57 := rfl
  rw [digitValue]
  omega

theorem readNumber_lt {digits : List UInt8} (h : ∀ c ∈ digits, isDigit c = true) {n k : Nat}
    (hn : n < 10 ^ k) : readNumber n digits < 10 ^ (k + digits.length) := by
  induction digits generalizing n k with
  | nil => exact hn
  | cons c digits ih =>
    have hdigit := digitValue_lt (h c List.mem_cons_self)
    have hstep : n * 10 + digitValue c < 10 ^ (k + 1) := by
      rw [Nat.pow_succ]
      omega
    rw [List.length_cons, Nat.add_comm digits.length 1, ← Nat.add_assoc]
    exact ih (fun d hd => h d (List.mem_cons_of_mem _ hd)) hstep

/-- A text is its leading digits, then nothing or a character that is no digit. -/
theorem digitRun (text : List UInt8) :
    text = text.takeWhile isDigit ++ text.dropWhile isDigit ∧
      (∀ c ∈ text.takeWhile isDigit, isDigit c = true) ∧
      ∀ c rest, text.dropWhile isDigit = c :: rest → isDigit c = false := by
  refine ⟨List.takeWhile_append_dropWhile.symm, List.all_eq_true.1 List.all_takeWhile, ?_⟩
  induction text with
  | nil =>
    intro c rest h
    cases h
  | cons d text ih =>
    intro c rest h
    by_cases hd : isDigit d = true
    · rw [List.dropWhile_cons_of_pos hd] at h
      exact ih c rest h
    · rw [List.dropWhile_cons_of_neg hd, List.cons.injEq] at h
      rw [← h.1]
      exact Bool.not_eq_true _ ▸ hd

/-- The parts of a form are those of its text. -/
theorem decimalForm_eq_some {text : List UInt8} {form : DecimalForm} (h : decimalForm text = some form) :
    form.negative = (text.head? == some kMinus) ∧ form.whole = (unsigned text).takeWhile isDigit ∧
      form.whole ≠ [] ∧
      ((form.fraction = none ∧ (unsigned text).dropWhile isDigit = []) ∨
        ∃ fraction, form.fraction = some fraction ∧
          (unsigned text).dropWhile isDigit = kPoint :: fraction ∧ fraction.all isDigit = true) := by
  unfold decimalForm at h
  dsimp only at h
  by_cases hwhole : (unsigned text).takeWhile isDigit = []
  · rw [if_pos hwhole] at h
    cases h
  · rw [if_neg hwhole] at h
    cases hrest : (unsigned text).dropWhile isDigit with
    | nil =>
      rw [hrest] at h
      cases h
      exact ⟨rfl, rfl, hwhole, .inl ⟨rfl, rfl⟩⟩
    | cons c fraction =>
      rw [hrest, formOf] at h
      by_cases hpoint : c = kPoint ∧ fraction.all isDigit = true
      · rw [if_pos hpoint] at h
        cases h
        exact ⟨rfl, rfl, hwhole, .inr ⟨fraction, rfl, by rw [hpoint.1], hpoint.2⟩⟩
      · rw [if_neg hpoint] at h
        cases h

/-! ## The loop -/

/-- The variables after a run of digits. -/
def DecimalScan.read (scan : DecimalScan) (digits : List UInt8) : DecimalScan where
  mantissa := readNumber scan.mantissa digits
  digitCount := scan.digitCount + digits.length
  fracDigits := if scan.seenDecimalPoint then scan.fracDigits + digits.length else scan.fracDigits
  sawDigit := scan.sawDigit || !digits.isEmpty
  seenDecimalPoint := scan.seenDecimalPoint

theorem scanDigits_read {digits : List UInt8} (h : ∀ c ∈ digits, isDigit c = true) (rest : List UInt8)
    (scan : DecimalScan) (hcount : scan.digitCount ≤ kMaxSignificantDigits)
    (hmantissa : scan.mantissa < 10 ^ scan.digitCount) :
    scanDigits (digits ++ rest) scan =
      if scan.digitCount + digits.length ≤ kMaxSignificantDigits then scanDigits rest (scan.read digits)
      else none := by
  induction digits generalizing scan with
  | nil =>
    rw [List.length_nil, Nat.add_zero, if_pos hcount]
    simp [DecimalScan.read, readNumber]
  | cons c digits ih =>
    have hc := h c List.mem_cons_self
    have hpoint : c ≠ kPoint := by
      intro heq
      rw [heq] at hc
      cases hc
    rw [List.cons_append, scanDigits, if_neg (fun hp => hpoint hp.1), if_neg (by rw [hc]; decide)]
    by_cases hfull : kMaxSignificantDigits ≤ scan.digitCount
    · rw [if_pos hfull, if_neg (by rw [List.length_cons]; omega)]
    · have hdigit := digitValue_lt hc
      have hstep : scan.mantissa * 10 + digitValue c < 10 ^ (scan.digitCount + 1) := by
        rw [Nat.pow_succ]
        omega
      have hword : 10 ^ (scan.digitCount + 1) ≤ 2 ^ 64 := by
        have hle : 10 ^ (scan.digitCount + 1) ≤ 10 ^ 15 := by
          apply Nat.pow_le_pow_right (by decide)
          unfold kMaxSignificantDigits at hfull
          omega
        exact hle.trans (by decide)
      rw [if_neg hfull, Nat.mod_eq_of_lt (Nat.lt_of_lt_of_le hstep hword),
        ih (fun d hd => h d (List.mem_cons_of_mem _ hd)) _ (by show _ + 1 ≤ _; omega) hstep]
      have hlength : scan.digitCount + 1 + digits.length = scan.digitCount + (c :: digits).length := by
        rw [List.length_cons]
        omega
      rw [hlength]
      congr 2
      rw [DecimalScan.read, DecimalScan.read, DecimalScan.mk.injEq]
      refine ⟨rfl, hlength, ?_, ?_, rfl⟩
      · cases scan.seenDecimalPoint with
        | true =>
          rw [if_pos rfl, if_pos rfl, if_pos rfl, List.length_cons]
          show scan.fracDigits + 1 + digits.length = _
          omega
        | false => rfl
      · simp

/-- Digits, then a character that is neither a digit nor a first point: the loop stops before it. -/
theorem scanDigits_stop {c : UInt8} (hc : isDigit c = false) {scan : DecimalScan}
    (hpoint : c ≠ kPoint ∨ scan.seenDecimalPoint = true) (rest : List UInt8) :
    scanDigits (c :: rest) scan = some (scan, c :: rest) := by
  have hnot : ¬ (c = kPoint ∧ scan.seenDecimalPoint = false) := by
    intro h
    cases hpoint with
    | inl hne => exact hne h.1
    | inr hseen =>
      rw [hseen] at h
      cases h.2
  rw [scanDigits, if_neg hnot, if_pos hc]

/-! ## The parser -/

/-- The quotient of a mantissa and a power of ten, both below `10 ^ 15`. -/
theorem div_kPow10 {m k : Nat} (hm : m < 10 ^ 15) (hk : k ≤ 15) :
    (Binary64.ofRat m).div (kPow10 k) = Binary64.ofRat (m / (10 ^ k : Nat)) := by
  have hexact : ∀ n : Nat, n ≤ 10 ^ 15 → (Binary64.ofRat n).toRat = n := by
    intro n hn
    have hint := Binary64.exact_intCast (n := n) (by omega)
    rw [Int.cast_natCast] at hint
    exact Binary64.toRat_ofRat hint
  rw [Binary64.div, kPow10, hexact m (by omega), hexact _ (Nat.pow_le_pow_right (by decide) hk)]

/-- What the parser makes of the loop's result. -/
def finish (negative : Bool) : Option (DecimalScan × List UInt8) → Option Binary64
  | none => none
  | some (scan, rest) =>
    if scan.sawDigit = false ∨ rest ≠ [] then none
    else
      let value := (Binary64.ofRat scan.mantissa).div (kPow10 scan.fracDigits)
      some (if negative then value.neg else value)

theorem finish_rest {negative : Bool} {scan : DecimalScan} {c : UInt8} {rest : List UInt8} :
    finish negative (some (scan, c :: rest)) = none := by
  rw [finish, if_pos (.inr (List.cons_ne_nil c rest))]

/-- The end of the parser, from the variables of the loop. -/
theorem value_eq {form : DecimalForm} (hdigits : ∀ c ∈ form.digits, isDigit c = true)
    (hcount : form.digits.length ≤ kMaxSignificantDigits) :
    (let value := (Binary64.ofRat (readNumber 0 form.digits)).div
        (kPow10 (form.fraction.getD []).length)
      if form.negative then value.neg else value) = form.value := by
  have hlength : form.digits.length = form.whole.length + (form.fraction.getD []).length :=
    List.length_append
  have hlt := readNumber_lt hdigits (n := 0) (k := 0) (by decide)
  have hm : readNumber 0 form.digits < 10 ^ 15 := by
    refine hlt.trans_le (Nat.pow_le_pow_right (by decide) ?_)
    unfold kMaxSignificantDigits at hcount
    omega
  have hk : (form.fraction.getD []).length ≤ 15 := by
    unfold kMaxSignificantDigits at hcount
    omega
  rw [DecimalForm.value, div_kPow10 hm hk]

/-- A loop that has read all digits of a form. -/
theorem finish_form (form : DecimalForm) {scan : DecimalScan}
    (hdigits : ∀ c ∈ form.digits, isDigit c = true)
    (hcount : form.digits.length ≤ kMaxSignificantDigits) (hsaw : scan.sawDigit = true)
    (hmantissa : scan.mantissa = readNumber 0 form.digits)
    (hfraction : scan.fracDigits = (form.fraction.getD []).length) :
    finish form.negative (some (scan, [])) = some form.value := by
  have hgood : ¬ (scan.sawDigit = false ∨ ([] : List UInt8) ≠ []) := by
    rw [hsaw]
    simp
  rw [finish, if_neg hgood, hmantissa, hfraction, ← value_eq hdigits hcount]

section
variable {negative : Bool} {whole : List UInt8}

theorem sawDigit_read (hwhole : whole ≠ []) (scan : DecimalScan) : (scan.read whole).sawDigit = true := by
  cases whole with
  | nil => exact absurd rfl hwhole
  | cons c whole => exact Bool.or_true _

/-- The loop over the digits behind a point. -/
theorem finish_fraction (hwhole : whole ≠ []) (hdigits : ∀ c ∈ whole, isDigit c = true)
    (hcount : whole.length ≤ kMaxSignificantDigits) (fraction : List UInt8) :
    finish negative (scanDigits fraction { DecimalScan.read {} whole with seenDecimalPoint := true }) =
      if fraction.all isDigit = true ∧ whole.length + fraction.length ≤ kMaxSignificantDigits then
        some (DecimalForm.value ⟨negative, whole, some fraction⟩)
      else none := by
  obtain ⟨hsplit, hrun, hstop⟩ := digitRun fraction
  have hstart : (DecimalScan.read {} whole).digitCount = whole.length := Nat.zero_add _
  have hmantissa : readNumber 0 whole < 10 ^ (DecimalScan.read {} whole).digitCount :=
    readNumber_lt (k := 0) hdigits (by decide)
  have hread := scanDigits_read hrun (fraction.dropWhile isDigit)
    { DecimalScan.read {} whole with seenDecimalPoint := true }
    (by rw [← hstart] at hcount; exact hcount) hmantissa
  rw [← hsplit] at hread
  rw [hread]
  cases hrest : fraction.dropWhile isDigit with
  | nil =>
    rw [hrest, List.append_nil] at hsplit
    rw [← hsplit] at hrun ⊢
    have hdigit := List.all_eq_true.2 hrun
    show finish negative (if (DecimalScan.read {} whole).digitCount + _ ≤ _ then _ else _) = _
    rw [hstart]
    by_cases hroom : whole.length + fraction.length ≤ kMaxSignificantDigits
    · rw [if_pos hroom, if_pos ⟨hdigit, hroom⟩]
      have hall : ∀ c ∈ whole ++ fraction, isDigit c = true := by
        intro c hc
        cases List.mem_append.1 hc with
        | inl h => exact hdigits c h
        | inr h => exact hrun c h
      refine finish_form ⟨negative, whole, some fraction⟩ hall ?_ ?_ ?_ ?_
      · rw [DecimalForm.digits, List.length_append]
        exact hroom
      · show ((DecimalScan.read {} whole).sawDigit || _) = true
        rw [sawDigit_read hwhole, Bool.true_or]
      · show readNumber (readNumber 0 whole) fraction = readNumber 0 (whole ++ fraction)
        rw [readNumber, readNumber, readNumber, List.foldl_append]
      · exact Nat.zero_add _
    · rw [if_neg hroom, if_neg (fun h => hroom h.2)]
      rfl
  | cons c rest =>
    have hc := hstop c rest hrest
    have hnot : ¬ (fraction.all isDigit = true ∧
        whole.length + fraction.length ≤ kMaxSignificantDigits) := by
      intro h
      have hmem : c ∈ fraction := by
        rw [hsplit, hrest]
        exact List.mem_append_right _ List.mem_cons_self
      have hdigit := List.all_eq_true.1 h.1 c hmem
      rw [hc] at hdigit
      cases hdigit
    rw [if_neg hnot, scanDigits_stop hc (.inr rfl)]
    split
    · exact finish_rest
    · rfl

/-- The loop over a text that begins with a digit. -/
theorem finish_whole (hwhole : whole ≠ []) (hdigits : ∀ c ∈ whole, isDigit c = true)
    {rest : List UInt8} (hstop : ∀ c rest', rest = c :: rest' → isDigit c = false) :
    finish negative (scanDigits (whole ++ rest) {}) =
      (formOf negative whole rest).bind DecimalForm.short? := by
  rw [scanDigits_read hdigits rest _ (Nat.zero_le _) (by decide)]
  show finish negative (if 0 + _ ≤ _ then _ else _) = _
  rw [Nat.zero_add]
  cases rest with
  | nil =>
    show _ = if (whole ++ []).length ≤ kMaxSignificantDigits then _ else _
    rw [List.append_nil]
    by_cases hcount : whole.length ≤ kMaxSignificantDigits
    · rw [if_pos hcount, if_pos hcount]
      have hdigitsEq : DecimalForm.digits ⟨negative, whole, none⟩ = whole := List.append_nil _
      refine finish_form ⟨negative, whole, none⟩ ?_ ?_ (sawDigit_read hwhole _) ?_ rfl
      · rw [hdigitsEq]
        exact hdigits
      · rw [hdigitsEq]
        exact hcount
      · rw [hdigitsEq]
        rfl
    · rw [if_neg hcount, if_neg hcount]
      rfl
  | cons c fraction =>
    have hc := hstop c fraction rfl
    rw [formOf]
    by_cases hpoint : c = kPoint
    · have hfirst : c = kPoint ∧ (DecimalScan.read {} whole).seenDecimalPoint = false := ⟨hpoint, rfl⟩
      by_cases hall : fraction.all isDigit = true
      · rw [if_pos (show c = kPoint ∧ fraction.all isDigit = true from ⟨hpoint, hall⟩)]
        show _ = if (whole ++ fraction).length ≤ kMaxSignificantDigits then _ else _
        rw [List.length_append]
        by_cases hcount : whole.length ≤ kMaxSignificantDigits
        · rw [if_pos hcount, scanDigits, if_pos hfirst, finish_fraction hwhole hdigits hcount]
          simp only [hall, true_and]
        · rw [if_neg hcount, if_neg (by omega)]
          rfl
      · rw [if_neg (show ¬ (c = kPoint ∧ fraction.all isDigit = true) from fun h => hall h.2)]
        show _ = none
        by_cases hcount : whole.length ≤ kMaxSignificantDigits
        · rw [if_pos hcount, scanDigits, if_pos hfirst, finish_fraction hwhole hdigits hcount,
            if_neg (fun h => hall h.1)]
        · rw [if_neg hcount]
          rfl
    · rw [scanDigits_stop hc (.inl hpoint),
        if_neg (show ¬ (c = kPoint ∧ fraction.all isDigit = true) from fun h => hpoint h.1)]
      split
      · exact finish_rest
      · rfl

end

/-- **The parser accepts the plain decimals of at most 15 digits**, and returns the nearest double. -/
theorem parsePlainDecimal_eq (text : List UInt8) :
    parsePlainDecimal text = (decimalForm text).bind DecimalForm.short? := by
  have hbody : (if (text.head? == some kMinus) = true then text.tail else text) = unsigned text := by
    unfold unsigned
    by_cases h : text.head? = some kMinus
    · rw [if_pos h, if_pos (by rw [h]; decide)]
    · rw [if_neg h, if_neg (by rw [beq_iff_eq]; exact h)]
  obtain ⟨hsplit, hrun, hstop⟩ := digitRun (unsigned text)
  unfold parsePlainDecimal decimalForm
  dsimp only
  rw [hbody]
  generalize (text.head? == some kMinus) = negative
  generalize unsigned text = body at hsplit hrun hstop ⊢
  cases body with
  | nil => rfl
  | cons c tail =>
    by_cases hc : isDigit c = true
    · have hwhole : (c :: tail).takeWhile isDigit ≠ [] := by
        rw [List.takeWhile_cons_of_pos hc]
        exact List.cons_ne_nil _ _
      rw [if_neg hwhole, ← finish_whole hwhole hrun hstop, ← hsplit]
      show (if isDigit c = false then none else _) = _
      rw [if_neg (by rw [hc]; decide)]
      rfl
    · have hwhole : (c :: tail).takeWhile isDigit = [] := List.takeWhile_cons_of_neg hc
      rw [if_pos hwhole]
      show (if isDigit c = false then none else _) = none
      rw [if_pos (Bool.not_eq_true _ ▸ hc)]

end RegEngine.Native.Fix
