import RegEngine.Native.Proof.FixDecimal

/-!
# The grammar of the native decimals

The comment over the parser promises `-?[0-9]+(\.[0-9]+)?` and that any other text fails. The loop takes
the point before it looks for a digit behind it, so a point at the end passes too.

* `decimalForm_text`: a text has just one form.
* `bounded_loopStates`: the mantissa and the table's index, at each head of the loop.
* `parses_plain_iff`: when the parser keeps to the grammar.
-/

namespace RegEngine.Native.Fix

open Lib

/-! ## Texts -/

/-- The text that has the form. -/
def DecimalForm.text (form : DecimalForm) : List UInt8 :=
  (if form.negative then [kMinus] else []) ++
    (form.whole ++
      match form.fraction with
      | none => []
      | some fraction => kPoint :: fraction)

/-- `-?[0-9]+(\.[0-9]*)?`: digits before the point and only digits behind it. -/
structure DecimalForm.Spelled (form : DecimalForm) : Prop where
  whole : form.whole ≠ []
  digits : ∀ c ∈ form.digits, isDigit c = true

/-- `-?[0-9]+(\.[0-9]+)?`: a point has digits behind it. -/
structure DecimalForm.Plain (form : DecimalForm) : Prop extends form.Spelled where
  fraction : form.fraction ≠ some []

theorem unsigned_text {form : DecimalForm} (h : form.Spelled) :
    (form.text.head? == some kMinus) = form.negative ∧
      unsigned form.text = form.whole ++
        match form.fraction with
        | none => []
        | some fraction => kPoint :: fraction := by
  obtain ⟨negative, whole, fraction⟩ := form
  cases negative with
  | true => exact ⟨rfl, rfl⟩
  | false =>
    cases whole with
    | nil => exact absurd rfl h.whole
    | cons c whole =>
      have hc := h.digits c (List.mem_append_left _ List.mem_cons_self)
      have hhead : (c :: whole ++ match fraction with
          | none => []
          | some fraction => kPoint :: fraction).head? ≠ some kMinus := by
        intro heq
        cases heq
        cases hc
      refine ⟨?_, ?_⟩
      · rw [beq_eq_false_iff_ne]
        exact hhead
      · exact if_neg hhead

theorem takeWhile_whole {whole rest : List UInt8} (hdigits : ∀ c ∈ whole, isDigit c = true)
    (hrest : ∀ c ∈ rest.head?, isDigit c = false) :
    (whole ++ rest).takeWhile isDigit = whole ∧ (whole ++ rest).dropWhile isDigit = rest := by
  rw [List.takeWhile_append_of_pos hdigits, List.dropWhile_append_of_pos hdigits]
  cases rest with
  | nil => exact ⟨List.append_nil _, rfl⟩
  | cons c rest =>
    have hc : ¬ isDigit c = true := by
      rw [hrest c rfl]
      decide
    rw [List.takeWhile_cons_of_neg hc, List.dropWhile_cons_of_neg hc]
    exact ⟨List.append_nil _, rfl⟩

/-- **The form of a text is read back.** -/
theorem decimalForm_text {form : DecimalForm} (h : form.Spelled) : decimalForm form.text = some form := by
  obtain ⟨hnegative, hunsigned⟩ := unsigned_text h
  obtain ⟨negative, whole, fraction⟩ := form
  have hwhole : ∀ c ∈ whole, isDigit c = true := fun c hc => h.digits c (List.mem_append_left _ hc)
  unfold decimalForm
  rw [hnegative, hunsigned]
  cases fraction with
  | none =>
    have hnone : ∀ c ∈ ([] : List UInt8).head?, isDigit c = false := by
      intro c hc
      cases hc
    obtain ⟨htake, hdrop⟩ := takeWhile_whole hwhole hnone
    show (if (whole ++ []).takeWhile isDigit = [] then none else
      formOf negative ((whole ++ []).takeWhile isDigit) ((whole ++ []).dropWhile isDigit)) = _
    rw [htake, hdrop, if_neg h.whole]
    rfl
  | some fraction =>
    have hpoint : ∀ c ∈ (kPoint :: fraction).head?, isDigit c = false := by
      intro c hc
      cases hc
      rfl
    obtain ⟨htake, hdrop⟩ := takeWhile_whole hwhole hpoint
    show (if (whole ++ kPoint :: fraction).takeWhile isDigit = [] then none else
      formOf negative ((whole ++ kPoint :: fraction).takeWhile isDigit)
        ((whole ++ kPoint :: fraction).dropWhile isDigit)) = _
    rw [htake, hdrop, if_neg h.whole]
    exact if_pos ⟨rfl, List.all_eq_true.2 fun c hc => h.digits c (List.mem_append_right _ hc)⟩

theorem spelled_of_decimalForm {text : List UInt8} {form : DecimalForm}
    (h : decimalForm text = some form) : form.Spelled ∧ form.text = text := by
  obtain ⟨hnegative, hwhole, hne, hrest⟩ := decimalForm_eq_some h
  obtain ⟨hsplit, hrun, -⟩ := digitRun (unsigned text)
  rw [← hwhole] at hsplit hrun
  have hsign : (if form.negative then [kMinus] else []) ++ unsigned text = text := by
    unfold unsigned
    by_cases hminus : text.head? = some kMinus
    · obtain ⟨tail, rfl⟩ := List.head?_eq_some_iff.1 hminus
      rw [hnegative]
      rfl
    · rw [hnegative, beq_eq_false_iff_ne.2 hminus, if_neg hminus]
      rfl
  unfold DecimalForm.text
  cases hrest with
  | inl hnone =>
    rw [hnone.2, List.append_nil] at hsplit
    refine ⟨⟨hne, ?_⟩, ?_⟩
    · rw [DecimalForm.digits, hnone.1, Option.getD_none, List.append_nil]
      exact hrun
    · rw [hnone.1]
      show _ ++ (form.whole ++ []) = text
      rw [List.append_nil, ← hsplit]
      exact hsign
  | inr hsome =>
    obtain ⟨fraction, hfraction, hdrop, hall⟩ := hsome
    rw [hdrop] at hsplit
    refine ⟨⟨hne, ?_⟩, ?_⟩
    · rw [DecimalForm.digits, hfraction, Option.getD_some]
      exact List.forall_mem_append.2 ⟨hrun, List.all_eq_true.1 hall⟩
    · rw [hfraction]
      show _ ++ (form.whole ++ kPoint :: fraction) = text
      rw [← hsplit]
      exact hsign

/-! ## The loop -/

/-- The variables at each head of the loop. -/
def loopStates : List UInt8 → DecimalScan → List DecimalScan
  | [], scan => [scan]
  | c :: rest, scan =>
    scan ::
      if c = kPoint ∧ scan.seenDecimalPoint = false then
        loopStates rest { scan with seenDecimalPoint := true }
      else if isDigit c = false ∨ kMaxSignificantDigits ≤ scan.digitCount then []
      else
        loopStates rest
          { mantissa := (scan.mantissa * 10 + digitValue c) % 2 ^ 64
            digitCount := scan.digitCount + 1
            fracDigits := if scan.seenDecimalPoint then scan.fracDigits + 1 else scan.fracDigits
            sawDigit := true
            seenDecimalPoint := scan.seenDecimalPoint }

/-- The loop ends with the variables of its last head. -/
theorem scanDigits_mem_loopStates {text : List UInt8} : ∀ {scan scan' : DecimalScan} {rest : List UInt8},
    scanDigits text scan = some (scan', rest) → scan' ∈ loopStates text scan := by
  induction text with
  | nil =>
    intro scan scan' rest h
    cases h
    exact List.mem_singleton.2 rfl
  | cons c text ih =>
    intro scan scan' rest h
    unfold scanDigits at h
    unfold loopStates
    split at h
    · rename_i hpoint
      rw [if_pos hpoint]
      exact List.mem_cons_of_mem _ (ih h)
    · rename_i hpoint
      split at h
      · cases h
        exact List.mem_cons_self
      · rename_i hdigit
        split at h
        · cases h
        · rename_i hfull
          rw [if_neg hpoint, if_neg (not_or.2 ⟨hdigit, hfull⟩)]
          exact List.mem_cons_of_mem _ (ih h)

/-- The mantissa has no more digits than were counted, and so has the fraction. -/
structure DecimalScan.Bounded (scan : DecimalScan) : Prop where
  mantissa : scan.mantissa < 10 ^ scan.digitCount
  digitCount : scan.digitCount ≤ kMaxSignificantDigits
  fracDigits : scan.fracDigits ≤ scan.digitCount

theorem bounded_loopStates {text : List UInt8} : ∀ {scan : DecimalScan}, scan.Bounded →
    ∀ scan' ∈ loopStates text scan, scan'.Bounded := by
  induction text with
  | nil =>
    intro scan h scan' hscan'
    rwa [List.mem_singleton.1 hscan']
  | cons c text ih =>
    intro scan h scan' hscan'
    unfold loopStates at hscan'
    cases List.mem_cons.1 hscan' with
    | inl heq => rwa [heq]
    | inr hscan' =>
      split at hscan'
      · have hpoint : DecimalScan.Bounded { scan with seenDecimalPoint := true } :=
          ⟨h.mantissa, h.digitCount, h.fracDigits⟩
        exact ih hpoint scan' hscan'
      · split at hscan'
        · cases hscan'
        · rename_i hdigit
          obtain ⟨hc, hroom⟩ := not_or.1 hdigit
          have hvalue := digitValue_lt (Bool.not_eq_false _ ▸ hc)
          have hmantissa := h.mantissa
          have hfraction := h.fracDigits
          have hdigit : DecimalScan.Bounded
              { mantissa := (scan.mantissa * 10 + digitValue c) % 2 ^ 64
                digitCount := scan.digitCount + 1
                fracDigits := if scan.seenDecimalPoint then scan.fracDigits + 1 else scan.fracDigits
                sawDigit := true
                seenDecimalPoint := scan.seenDecimalPoint } := by
            refine ⟨(Nat.mod_le _ _).trans_lt ?_, Nat.not_le.1 hroom, ?_⟩
            · rw [Nat.pow_succ]
              omega
            · show (if scan.seenDecimalPoint then scan.fracDigits + 1 else scan.fracDigits) ≤
                scan.digitCount + 1
              split
              · omega
              · omega
          exact ih hdigit scan' hscan'

theorem DecimalScan.Bounded.word {scan : DecimalScan} (h : scan.Bounded) :
    scan.mantissa < 10 ^ 15 ∧ scan.fracDigits < 16 := by
  have hcount : scan.digitCount ≤ 15 := h.digitCount
  have hfraction := h.fracDigits
  refine ⟨h.mantissa.trans_le (Nat.pow_le_pow_right (by decide) hcount), by omega⟩

/-! ## The parser -/

/-- The parser keeps to the grammar on a text. -/
structure ParsesPlain (text : List UInt8) : Prop where
  /-- It accepts plain decimals of at most 15 digits, and returns the quotient. -/
  accepts : ∀ q, parsePlainDecimal text = some q ↔ ∃ form : DecimalForm, form.Plain ∧ form.text = text ∧
    form.digits.length ≤ kMaxSignificantDigits ∧ q = form.value
  /-- The mantissa never comes near its 64 bits, and the index stays in its table. -/
  bounded : ∀ scan ∈ loopStates (unsigned text) {}, scan.mantissa < 10 ^ 15 ∧ scan.fracDigits < 16

/-- At most 15 digits and a point. -/
def TrailingPoint (text : List UInt8) : Prop :=
  ∃ form : DecimalForm, form.Spelled ∧ form.fraction = some [] ∧
    form.digits.length ≤ kMaxSignificantDigits ∧ form.text = text

theorem parsePlainDecimal_some_iff {text : List UInt8} {q : Binary64} :
    parsePlainDecimal text = some q ↔ ∃ form : DecimalForm, form.Spelled ∧ form.text = text ∧
      form.digits.length ≤ kMaxSignificantDigits ∧ q = form.value := by
  rw [parsePlainDecimal_eq, Option.bind_eq_some_iff]
  constructor
  · intro ⟨form, hform, hshort⟩
    obtain ⟨hspelled, htext⟩ := spelled_of_decimalForm hform
    unfold DecimalForm.short? at hshort
    split at hshort
    · rename_i hlength
      cases hshort
      exact ⟨form, hspelled, htext, hlength, rfl⟩
    · cases hshort
  · intro ⟨form, hspelled, htext, hlength, hvalue⟩
    refine ⟨form, ?_, ?_⟩
    · rw [← htext, decimalForm_text hspelled]
    · rw [DecimalForm.short?, if_pos hlength, hvalue]

/-- **The parser keeps to its grammar on all texts but those that end in a point behind digits.** -/
theorem parses_plain_iff (text : List UInt8) : ParsesPlain text ↔ ¬ TrailingPoint text := by
  constructor
  · intro h ⟨form, hspelled, hpoint, hlength, htext⟩
    have hparsed := parsePlainDecimal_some_iff.2 ⟨form, hspelled, htext, hlength, rfl⟩
    obtain ⟨plain, hplain, htext', -, -⟩ := (h.accepts _).1 hparsed
    -- a text has one form
    have hform := decimalForm_text hplain.toSpelled
    rw [htext', ← htext, decimalForm_text hspelled, Option.some_inj] at hform
    rw [hform] at hpoint
    exact hplain.fraction hpoint
  · intro h
    constructor
    · intro q
      rw [parsePlainDecimal_some_iff]
      constructor
      · intro ⟨form, hspelled, htext, hlength, hvalue⟩
        have hfraction : form.fraction ≠ some [] :=
          fun hpoint => h ⟨form, hspelled, hpoint, hlength, htext⟩
        exact ⟨form, ⟨hspelled, hfraction⟩, htext, hlength, hvalue⟩
      · intro ⟨form, hplain, htext, hlength, hvalue⟩
        exact ⟨form, hplain.toSpelled, htext, hlength, hvalue⟩
    · intro scan hscan
      have hstart : DecimalScan.Bounded {} := ⟨by decide, by decide, Nat.le_refl _⟩
      exact (bounded_loopStates hstart scan hscan).word

/-- `5.` is accepted. -/
theorem not_forall_parsesPlain : ¬ ∀ text, ParsesPlain text := by
  intro h
  have hparsed : parsePlainDecimal (ascii "5.") = some (Binary64.ofRat 5) := by decide +kernel
  obtain ⟨form, hplain, htext, -, -⟩ := ((h (ascii "5.")).accepts _).1 hparsed
  have hform := decimalForm_text hplain.toSpelled
  have hread : decimalForm (ascii "5.") = some ⟨false, ascii "5", some []⟩ := by decide +kernel
  rw [htext, hread, Option.some_inj] at hform
  rw [← hform] at hplain
  exact hplain.fraction rfl

end RegEngine.Native.Fix
