import Mathlib.Data.List.Count
import RegEngine.FixGateway.FixScanner
import RegEngine.Lib.Except
import RegEngine.Native.Proof.FixScan

/-!
# The two scanners

The Python scanner reads an ASCII message as the native one reads its bytes, with four differences: a tag
is a number of any size, up to 4300 digits; a number without `=` is a field with an empty value; a decimal
needs digits behind its point; and it may have any number of digits.

* `addField_text`, `foldlM_addField`: the dictionary after the loop.
* `parsePlainDecimal_text`: the decimals that are accepted, and their doubles.
* `python_ok_iff`: the orders that are accepted.
* `agree_iff`: when the two scanners agree on a message.
-/

namespace RegEngine.FixGateway

open Lib Lib.Python
open Native.Fix (kSOH kEquals kMinus kPoint nameOf valueOf numbered numberOf fieldsOf lastOf readNumber
  unsigned formOf decimalForm DecimalForm digitRun CppOrder cppReading kMaxSignificantDigits ascii)

/-! ## Texts and bytes -/

theorem isDigit_byteChar (c : UInt8) : (Ascii.byteChar c).isDigit = Native.Fix.isDigit c := by
  rw [Bool.eq_iff_iff, Char.isDigit_iff_toNat, Ascii.toNat_byteChar, Native.Fix.isDigit, Bool.and_eq_true,
    decide_eq_true_eq, decide_eq_true_eq, UInt8.le_iff_toNat_le, UInt8.le_iff_toNat_le]
  rfl

theorem isDigit_comp : Char.isDigit ∘ Ascii.byteChar = Native.Fix.isDigit :=
  funext isDigit_byteChar

theorem ofDigitChars_byteChar (digits : List UInt8) (n : Nat) :
    Nat.ofDigitChars 10 (digits.map Ascii.byteChar) n = readNumber n digits := by
  induction digits generalizing n with
  | nil => rfl
  | cons c digits ih =>
    rw [List.map_cons, Nat.ofDigitChars_cons, ih, Ascii.toNat_byteChar, Nat.mul_comm]
    rfl

theorem byteChar_ne_comp (n : UInt8) :
    (fun c : Char => decide (c ≠ Ascii.byteChar n)) ∘ Ascii.byteChar = fun c => decide (c ≠ n) := by
  funext c
  show decide (Ascii.byteChar c ≠ Ascii.byteChar n) = _
  rw [decide_eq_decide, ne_eq, Ascii.byteChar_injective.eq_iff]

theorem text_eq_empty {bytes : List UInt8} : Ascii.text bytes = "" ↔ bytes = [] := by
  have hempty : Ascii.text [] = "" := rfl
  rw [← hempty, Ascii.text_injective.eq_iff]

theorem split_text (data : List UInt8) :
    split '\x01' (Ascii.text data) = (fieldsOf data).map Ascii.text := by
  have hsoh : '\x01' = Ascii.byteChar kSOH := by decide
  rw [split, Ascii.toList_text, hsoh, Ascii.splitOn_map Ascii.byteChar_injective, List.map_map]
  rfl

theorem partition_text (field : List UInt8) :
    Ascii.partition '=' (Ascii.text field) = (Ascii.text (nameOf field), Ascii.text (valueOf field)) := by
  have hequals : '=' = Ascii.byteChar kEquals := by decide
  rw [Ascii.partition, Ascii.toList_text, hequals, List.takeWhile_map, List.dropWhile_map,
    byteChar_ne_comp, ← List.map_drop]
  rfl

theorem isDigits_text (field : List UInt8) : Ascii.isDigits (Ascii.text (nameOf field)) = numbered field := by
  rw [Ascii.isDigits, Ascii.toList_text, List.all_map, isDigit_comp, List.isEmpty_map]
  rfl

/-! ## The dictionary -/

theorem addField_text (fields : Fields) (field : List UInt8) :
    addField fields (Ascii.text field) =
      if numbered field = true then
        if Ascii.maxStrDigits < (nameOf field).length then .error (.valueError (nameOf field).length)
        else .ok (Function.update fields (numberOf field) (some (Ascii.text (valueOf field))))
      else .ok fields := by
  unfold addField
  by_cases hempty : field = []
  · rw [hempty]
    rfl
  · rw [if_neg (fun h => hempty (text_eq_empty.1 h)), partition_text]
    dsimp only
    rw [isDigits_text]
    by_cases hnumbered : numbered field = true
    · rw [if_pos hnumbered, if_neg (by rw [hnumbered]; decide), Ascii.int?, Ascii.toList_text,
        List.length_map, ofDigitChars_byteChar]
      by_cases hlong : Ascii.maxStrDigits < (nameOf field).length
      · rw [if_pos hlong, if_pos hlong]
      · rw [if_neg hlong, if_neg hlong]
        rfl
    · rw [if_neg hnumbered, if_pos (Bool.not_eq_true _ ▸ hnumbered)]

/-- The field is taken for a tag. -/
def pythonTakes (tag : Nat) (field : List UInt8) : Bool := numbered field && numberOf field == tag

/-- What the Python scanner reads for a tag. -/
def pythonReading (data : List UInt8) (tag : Nat) : Option (List UInt8) :=
  lastOf (pythonTakes tag) (fieldsOf data)

/-- Every tag is short enough for `int`. -/
def ShortTags (fields : List (List UInt8)) : Prop :=
  ∀ field ∈ fields, numbered field = true → (nameOf field).length ≤ Ascii.maxStrDigits

/-- The dictionary in which `r` has been read. -/
def dictOf (r : Nat → Option (List UInt8)) : Fields := fun tag => (r tag).map Ascii.text

theorem dictOf_update (r : Nat → Option (List UInt8)) {field : List UInt8}
    (hnumbered : numbered field = true) :
    Function.update (dictOf r) (numberOf field) (some (Ascii.text (valueOf field))) =
      dictOf fun tag => if pythonTakes tag field then some (valueOf field) else r tag := by
  funext tag
  have htakes : pythonTakes tag field = true ↔ tag = numberOf field := by
    rw [pythonTakes, hnumbered, Bool.true_and, beq_iff_eq, eq_comm]
  rw [Function.update_apply, dictOf, dictOf, if_congr htakes rfl rfl]
  exact (apply_ite (Option.map Ascii.text) (tag = numberOf field) (some (valueOf field)) (r tag)).symm

/-- **The dictionary after the loop** is that of the last readings, unless a tag is too long. -/
theorem foldlM_addField (fields : List (List UInt8)) (r : Nat → Option (List UInt8)) (dict : Fields) :
    (fields.map Ascii.text).foldlM addField (dictOf r) = .ok dict ↔
      ShortTags fields ∧ dict = dictOf fun tag =>
        fields.foldl (fun last field => if pythonTakes tag field then some (valueOf field) else last)
          (r tag) := by
  induction fields generalizing r with
  | nil =>
    constructor
    · intro h
      cases h
      exact ⟨nofun, rfl⟩
    · intro ⟨_, h⟩
      rw [h]
      rfl
  | cons field fields ih =>
    rw [List.map_cons, List.foldlM_cons, Except.bind_ok_iff, addField_text]
    by_cases hnumbered : numbered field = true
    · rw [if_pos hnumbered]
      by_cases hlong : Ascii.maxStrDigits < (nameOf field).length
      · rw [if_pos hlong]
        constructor
        · intro ⟨_, h, _⟩
          cases h
        · intro ⟨hshort, _⟩
          have hle := hshort field List.mem_cons_self hnumbered
          omega
      · rw [if_neg hlong, dictOf_update r hnumbered]
        constructor
        · intro ⟨next, hnext, hrest⟩
          cases hnext
          obtain ⟨hshort, hdict⟩ := (ih _).1 hrest
          refine ⟨?_, hdict⟩
          intro f hf hn
          cases List.mem_cons.1 hf with
          | inl heq =>
            rw [heq]
            exact Nat.not_lt.1 hlong
          | inr hmem => exact hshort f hmem hn
        · intro ⟨hshort, hdict⟩
          have htail : ShortTags fields := fun f hf => hshort f (List.mem_cons_of_mem _ hf)
          exact ⟨_, rfl, (ih _).2 ⟨htail, hdict⟩⟩
    · have hnone : ∀ tag, pythonTakes tag field = false := by
        intro tag
        rw [← Bool.not_eq_true, pythonTakes, Bool.and_eq_true]
        exact fun h => hnumbered h.1
      rw [if_neg hnumbered]
      simp only [List.foldl_cons, hnone, Bool.false_eq_true, if_false]
      constructor
      · intro ⟨next, hnext, hrest⟩
        cases hnext
        obtain ⟨hshort, hdict⟩ := (ih r).1 hrest
        refine ⟨?_, hdict⟩
        intro f hf hn
        cases List.mem_cons.1 hf with
        | inl heq =>
          rw [heq] at hn
          exact absurd hn hnumbered
        | inr hmem => exact hshort f hmem hn
      · intro ⟨hshort, hdict⟩
        have htail : ShortTags fields := fun f hf => hshort f (List.mem_cons_of_mem _ hf)
        exact ⟨_, rfl, (ih r).2 ⟨htail, hdict⟩⟩

/-! ## Decimals -/

/-- There are digits behind the point, if there is one. -/
def FullForm (text : List UInt8) (form : DecimalForm) : Prop :=
  decimalForm text = some form ∧ form.fraction ≠ some []

theorem startsWith_minus (text : List UInt8) :
    startsWith (Ascii.text text) "-" = (text.head? == some kMinus) := by
  have hminus : '-' = Ascii.byteChar kMinus := by decide
  have hlist : ("-" : String).toList = [Ascii.byteChar kMinus] := by decide
  rw [startsWith, Ascii.toList_text, hlist]
  cases text with
  | nil => rfl
  | cons c text =>
    rw [Bool.eq_iff_iff, List.isPrefixOf_iff_prefix, List.map_cons, List.head?_cons, beq_iff_eq,
      Option.some.injEq, List.cons_prefix_cons, Ascii.byteChar_injective.eq_iff]
    simp [eq_comm]

theorem decimalBody_text (text : List UInt8) :
    decimalBody (Ascii.text text) = (unsigned text).map Ascii.byteChar := by
  unfold decimalBody unsigned
  rw [startsWith_minus, Ascii.toList_text]
  by_cases h : text.head? = some kMinus
  · rw [if_pos h, if_pos (by rw [h]; decide), List.drop_one, List.map_tail]
  · rw [if_neg h, if_neg (by rw [beq_iff_eq]; exact h)]

theorem float_text {text : List UInt8} {form : DecimalForm} (h : decimalForm text = some form) :
    float (Ascii.text text) = form.value := by
  obtain ⟨hnegative, hwhole, -, hrest⟩ := Native.Fix.decimalForm_eq_some h
  have hfraction : ((unsigned text).dropWhile Native.Fix.isDigit).drop 1 = form.fraction.getD [] := by
    cases hrest with
    | inl hnone =>
      rw [hnone.1, hnone.2]
      rfl
    | inr hsome =>
      obtain ⟨fraction, hform, hdrop, -⟩ := hsome
      rw [hform, hdrop]
      rfl
  unfold float
  rw [decimalBody_text, startsWith_minus, List.takeWhile_map, List.dropWhile_map, isDigit_comp,
    ← List.map_drop, hfraction, ← hwhole, ← hnegative]
  dsimp only
  rw [← List.map_append, List.length_map, ofDigitChars_byteChar]
  rfl

/-- The checks of a body, on its bytes. -/
structure PlainBody (body : List UInt8) : Prop where
  nonempty : body ≠ []
  plain : ∀ c ∈ body, Native.Fix.isDigit c = true ∨ c = kPoint
  onePoint : body.count kPoint ≤ 1
  first : body.head? ≠ some kPoint
  last : body.getLast? ≠ some kPoint
  digit : ∃ c ∈ body, Native.Fix.isDigit c = true

theorem not_isDigit_point : Native.Fix.isDigit kPoint = false := rfl

theorem point_notMem {digits : List UInt8} (h : ∀ c ∈ digits, Native.Fix.isDigit c = true) :
    kPoint ∉ digits := by
  intro hmem
  have hdigit := h kPoint hmem
  rw [not_isDigit_point] at hdigit
  cases hdigit

theorem fullForm_of_plainBody {text : List UInt8} (h : PlainBody (unsigned text)) :
    ∃ form, FullForm text form := by
  obtain ⟨hsplit, hrun, hstop⟩ := digitRun (unsigned text)
  have hpoint : ∀ c rest, (unsigned text).dropWhile Native.Fix.isDigit = c :: rest → c = kPoint := by
    intro c rest hrest
    have hmem : c ∈ unsigned text := by
      rw [hsplit, hrest]
      exact List.mem_append_right _ List.mem_cons_self
    cases h.plain c hmem with
    | inl hdigit =>
      rw [hstop c rest hrest] at hdigit
      cases hdigit
    | inr heq => exact heq
  unfold FullForm decimalForm
  dsimp only
  have hwhole : (unsigned text).takeWhile Native.Fix.isDigit ≠ [] := by
    intro hnil
    rw [hnil, List.nil_append] at hsplit
    cases hrest : (unsigned text).dropWhile Native.Fix.isDigit with
    | nil => exact h.nonempty (hsplit.trans hrest)
    | cons c rest =>
      have hfirst := h.first
      rw [hsplit, hrest, List.head?_cons, hpoint c rest hrest] at hfirst
      exact hfirst rfl
  rw [if_neg hwhole]
  cases hrest : (unsigned text).dropWhile Native.Fix.isDigit with
  | nil => exact ⟨_, rfl, nofun⟩
  | cons c fraction =>
    have hc := hpoint c fraction hrest
    have hall : fraction.all Native.Fix.isDigit = true := by
      rw [List.all_eq_true]
      intro d hd
      have hmem : d ∈ unsigned text := by
        rw [hsplit, hrest]
        exact List.mem_append_right _ (List.mem_cons_of_mem _ hd)
      cases h.plain d hmem with
      | inl hdigit => exact hdigit
      | inr heq =>
        have hcount := h.onePoint
        have hone : 0 < fraction.count kPoint := List.count_pos_iff.2 (heq ▸ hd)
        rw [hsplit, hrest, hc, List.count_append, List.count_cons_self] at hcount
        omega
    have hne : fraction ≠ [] := by
      intro hnil
      have hlast := h.last
      rw [hsplit, hrest, hnil, hc, List.getLast?_append, List.getLast?_singleton] at hlast
      exact hlast rfl
    rw [formOf, if_pos ⟨hc, hall⟩]
    exact ⟨_, rfl, fun hfull => hne (Option.some.inj hfull)⟩

theorem plainBody_digits {whole : List UInt8} (hne : whole ≠ [])
    (hdigits : ∀ c ∈ whole, Native.Fix.isDigit c = true) : PlainBody whole where
  nonempty := hne
  plain c hc := .inl (hdigits c hc)
  onePoint := by
    rw [List.count_eq_zero_of_not_mem (point_notMem hdigits)]
    exact Nat.zero_le 1
  first hfirst := point_notMem hdigits (List.mem_of_mem_head? hfirst)
  last hlast := point_notMem hdigits (List.mem_of_mem_getLast? hlast)
  digit := by
    obtain ⟨c, rest, rfl⟩ := List.exists_cons_of_ne_nil hne
    exact ⟨c, List.mem_cons_self, hdigits c List.mem_cons_self⟩

theorem plainBody_point {whole fraction : List UInt8} (hne : whole ≠ [])
    (hdigits : ∀ c ∈ whole, Native.Fix.isDigit c = true) (hfraction : fraction ≠ [])
    (hall : ∀ c ∈ fraction, Native.Fix.isDigit c = true) : PlainBody (whole ++ kPoint :: fraction) where
  nonempty h := hne (List.append_eq_nil_iff.1 h).1
  plain c hc := by
    cases List.mem_append.1 hc with
    | inl hwhole => exact .inl (hdigits c hwhole)
    | inr hrest =>
      cases List.mem_cons.1 hrest with
      | inl heq => exact .inr heq
      | inr hmem => exact .inl (hall c hmem)
  onePoint := by
    rw [List.count_append, List.count_cons_self, List.count_eq_zero_of_not_mem (point_notMem hdigits),
      List.count_eq_zero_of_not_mem (point_notMem hall)]
  first hfirst := by
    obtain ⟨c, rest, rfl⟩ := List.exists_cons_of_ne_nil hne
    exact point_notMem hdigits (Option.some.inj hfirst ▸ List.mem_cons_self)
  last hlast := by
    rw [List.getLast?_append_of_ne_nil _ (List.cons_ne_nil _ _),
      List.getLast?_cons_of_ne_nil hfraction] at hlast
    exact point_notMem hall (List.mem_of_mem_getLast? hlast)
  digit := by
    obtain ⟨c, rest, rfl⟩ := List.exists_cons_of_ne_nil hne
    exact ⟨c, List.mem_append_left _ List.mem_cons_self, hdigits c List.mem_cons_self⟩

theorem plainBody_of_fullForm {text : List UInt8} {form : DecimalForm} (h : FullForm text form) :
    PlainBody (unsigned text) := by
  obtain ⟨hsplit, hrun, -⟩ := digitRun (unsigned text)
  obtain ⟨-, hwhole, hne, hrest⟩ := Native.Fix.decimalForm_eq_some h.1
  rw [hwhole] at hne
  cases hrest with
  | inl hnone =>
    rw [hnone.2, List.append_nil] at hsplit
    rw [hsplit]
    exact plainBody_digits hne hrun
  | inr hsome =>
    obtain ⟨fraction, hform, hdrop, hall⟩ := hsome
    have hfraction : fraction ≠ [] := fun hnil => h.2 (hnil ▸ hform)
    rw [hsplit, hdrop]
    exact plainBody_point hne hrun hfraction (List.all_eq_true.1 hall)

/-- The checks of the parser are those of the body. -/
theorem plainBody_iff (body : List UInt8) :
    PlainBody body ↔
      ¬ (body.map Ascii.byteChar = [] ∨
        (body.map Ascii.byteChar).all (fun c => c.isDigit || c == '.') = false ∨
        1 < (body.map Ascii.byteChar).count '.') ∧
      ¬ ((body.map Ascii.byteChar).head? = some '.' ∨ (body.map Ascii.byteChar).getLast? = some '.' ∨
        (body.map Ascii.byteChar).any Char.isDigit = false) := by
  have hpoint : '.' = Ascii.byteChar kPoint := by decide
  have hplain : (body.map Ascii.byteChar).all (fun c => c.isDigit || c == '.') = true ↔
      ∀ c ∈ body, Native.Fix.isDigit c = true ∨ c = kPoint := by
    rw [hpoint, List.all_map, List.all_eq_true]
    apply forall₂_congr
    intro c _
    show ((Ascii.byteChar c).isDigit || Ascii.byteChar c == Ascii.byteChar kPoint) = true ↔ _
    rw [Bool.or_eq_true, beq_iff_eq, Ascii.byteChar_injective.eq_iff, isDigit_byteChar]
  have hcount : (body.map Ascii.byteChar).count '.' = body.count kPoint := by
    rw [hpoint, List.count_map_of_injective _ _ Ascii.byteChar_injective]
  have hfirst : (body.map Ascii.byteChar).head? = some '.' ↔ body.head? = some kPoint := by
    rw [hpoint, List.head?_map, ← Option.map_some, (Option.map_injective Ascii.byteChar_injective).eq_iff]
  have hlast : (body.map Ascii.byteChar).getLast? = some '.' ↔ body.getLast? = some kPoint := by
    rw [hpoint, List.getLast?_map, ← Option.map_some,
      (Option.map_injective Ascii.byteChar_injective).eq_iff]
  have hdigit : (body.map Ascii.byteChar).any Char.isDigit = true ↔
      ∃ c ∈ body, Native.Fix.isDigit c = true := by
    rw [List.any_map, isDigit_comp, List.any_eq_true]
  rw [hcount, hfirst, hlast, List.map_eq_nil_iff, ← Bool.not_eq_true, ← Bool.not_eq_true, hplain, hdigit]
  constructor
  · intro h
    refine ⟨?_, ?_⟩
    · intro hbad
      cases hbad with
      | inl hnil => exact h.nonempty hnil
      | inr hbad =>
        cases hbad with
        | inl hnot => exact hnot h.plain
        | inr hmany => exact absurd h.onePoint (Nat.not_le.2 hmany)
    · intro hbad
      cases hbad with
      | inl hhead => exact h.first hhead
      | inr hbad =>
        cases hbad with
        | inl hend => exact h.last hend
        | inr hnone => exact hnone h.digit
  · intro ⟨hshape, hends⟩
    rw [not_or, not_or, not_not] at hshape hends
    exact ⟨hshape.1, hshape.2.1, Nat.not_lt.1 hshape.2.2, hends.1, hends.2.1, hends.2.2⟩

/-- **The decimals that the Python scanner accepts**, and their doubles. -/
theorem parsePlainDecimal_text {text : List UInt8} {value : Binary64} :
    parsePlainDecimal (Ascii.text text) = .ok value ↔ ∃ form, FullForm text form ∧ value = form.value := by
  have hbody := plainBody_iff (unsigned text)
  have hreject : ¬ PlainBody (unsigned text) → ¬ ∃ form, FullForm text form ∧ value = form.value :=
    fun hnot ⟨_, hform, _⟩ => hnot (plainBody_of_fullForm hform)
  unfold parsePlainDecimal
  dsimp only
  rw [decimalBody_text]
  by_cases hshape : (unsigned text).map Ascii.byteChar = [] ∨
      ((unsigned text).map Ascii.byteChar).all (fun c => c.isDigit || c == '.') = false ∨
      1 < ((unsigned text).map Ascii.byteChar).count '.'
  · rw [if_pos hshape]
    have hnot := hreject fun h => (hbody.1 h).1 hshape
    exact ⟨nofun, fun h => absurd h hnot⟩
  · rw [if_neg hshape]
    by_cases hends : ((unsigned text).map Ascii.byteChar).head? = some '.' ∨
        ((unsigned text).map Ascii.byteChar).getLast? = some '.' ∨
        ((unsigned text).map Ascii.byteChar).any Char.isDigit = false
    · rw [if_pos hends]
      have hnot := hreject fun h => (hbody.1 h).2 hends
      exact ⟨nofun, fun h => absurd h hnot⟩
    · rw [if_neg hends]
      obtain ⟨form, hform⟩ := fullForm_of_plainBody (hbody.2 ⟨hshape, hends⟩)
      rw [float_text hform.1]
      constructor
      · intro h
        cases h
        exact ⟨form, hform, rfl⟩
      · intro ⟨other, hother, hvalue⟩
        have hsame : other = form := Option.some.inj (hother.1.symm.trans hform.1)
        rw [hvalue, hsame]

/-! ## Orders -/

theorem getD_dictOf (r : Nat → Option (List UInt8)) (tag : Nat) :
    (dictOf r tag).getD "" = Ascii.text ((r tag).getD []) := by
  rw [dictOf]
  cases r tag with
  | none => rfl
  | some value => rfl

theorem not_fullForm_nil {form : DecimalForm} : ¬ FullForm [] form := by
  intro h
  cases h.1

/-- The order of a reading, with its two numbers. -/
def orderView (r : Nat → Option (List UInt8)) (orderQty price : Binary64) : ParsedOrder where
  senderCompId := Ascii.text ((r 49).getD [])
  targetCompId := Ascii.text ((r 56).getD [])
  msgSeqNum := Ascii.text ((r 34).getD [])
  clOrdId := Ascii.text ((r 11).getD [])
  account := Ascii.text ((r 1).getD [])
  symbol := Ascii.text ((r 55).getD [])
  side := Ascii.text ((r 54).getD [])
  orderQty := orderQty
  price := price
  orderQtyRaw := Ascii.text ((r 38).getD [])
  priceRaw := Ascii.text ((r 44).getD [])

theorem missingTags_eq_nil (r : Nat → Option (List UInt8)) :
    missingTags (dictOf r) = [] ↔ (r 11).getD [] ≠ [] ∧ (r 38).getD [] ≠ [] ∧ (r 44).getD [] ≠ [] := by
  rw [missingTags, List.filter_eq_nil_iff]
  simp only [List.mem_cons, List.not_mem_nil, or_false, forall_eq_or_imp, forall_eq, decide_eq_true_eq,
    getD_dictOf, text_eq_empty]
  rfl

theorem orderOf_dictOf {r : Nat → Option (List UInt8)} {order : ParsedOrder} :
    orderOf (dictOf r) = .ok order ↔
      r 35 = some (ascii "D") ∧ (r 11).getD [] ≠ [] ∧
        ∃ qty price, FullForm ((r 38).getD []) qty ∧ FullForm ((r 44).getD []) price ∧
          order = orderView r qty.value price.value := by
  unfold orderOf
  have hget : dictOf r tagMsgType = (r 35).map Ascii.text := rfl
  rw [hget]
  cases hmsg : r 35 with
  | none => exact ⟨nofun, nofun⟩
  | some msgType =>
    dsimp only [Option.map_some]
    have hnew : Ascii.text msgType = newOrderSingle ↔ msgType = ascii "D" := by
      have htext : newOrderSingle = Ascii.text (ascii "D") := by decide
      rw [htext, Ascii.text_injective.eq_iff]
    rw [Option.some.injEq]
    by_cases horder : msgType = ascii "D"
    · rw [if_neg (not_not.2 (hnew.2 horder))]
      by_cases hmissing : missingTags (dictOf r) = []
      · rw [if_neg (not_not.2 hmissing), Except.bind_ok_iff]
        have hid := ((missingTags_eq_nil r).1 hmissing).1
        constructor
        · intro h
          obtain ⟨qty, hqty, h⟩ := h
          obtain ⟨price, hprice, h⟩ := Except.bind_ok_iff.1 h
          have hqty' : parsePlainDecimal ((dictOf r 38).getD "") = .ok qty := hqty
          have hprice' : parsePlainDecimal ((dictOf r 44).getD "") = .ok price := hprice
          rw [getD_dictOf] at hqty' hprice'
          obtain ⟨qtyForm, hqtyForm, hqtyValue⟩ := parsePlainDecimal_text.1 hqty'
          obtain ⟨priceForm, hpriceForm, hpriceValue⟩ := parsePlainDecimal_text.1 hprice'
          refine ⟨horder, hid, qtyForm, priceForm, hqtyForm, hpriceForm, ?_⟩
          cases h
          rw [orderView, ← hqtyValue, ← hpriceValue]
          simp only [getD_dictOf]
          rfl
        · intro h
          obtain ⟨_, _, qtyForm, priceForm, hqtyForm, hpriceForm, h⟩ := h
          have hqty : parsePlainDecimal ((dictOf r tagOrderQty).getD "") = .ok qtyForm.value := by
            rw [getD_dictOf]
            exact parsePlainDecimal_text.2 ⟨qtyForm, hqtyForm, rfl⟩
          have hprice : parsePlainDecimal ((dictOf r tagPrice).getD "") = .ok priceForm.value := by
            rw [getD_dictOf]
            exact parsePlainDecimal_text.2 ⟨priceForm, hpriceForm, rfl⟩
          refine ⟨qtyForm.value, hqty, Except.bind_ok_iff.2 ⟨priceForm.value, hprice, ?_⟩⟩
          rw [h, orderView]
          simp only [getD_dictOf]
          rfl
      · rw [if_pos hmissing]
        refine ⟨nofun, ?_⟩
        intro h
        obtain ⟨_, hid, qtyForm, priceForm, hqty, hprice, _⟩ := h
        refine absurd ((missingTags_eq_nil r).2 ⟨hid, ?_, ?_⟩) hmissing
        · intro hnil
          rw [hnil] at hqty
          exact not_fullForm_nil hqty
        · intro hnil
          rw [hnil] at hprice
          exact not_fullForm_nil hprice
    · rw [if_pos (fun h => horder (hnew.1 h))]
      exact ⟨nofun, fun h => absurd h.1 horder⟩

/-- `decode` and `int` succeed on the whole message. -/
structure Decodable (data : List UInt8) : Prop where
  ascii : ∀ b ∈ data, b < 128
  shortTags : ShortTags (fieldsOf data)

/-- **The orders that the Python scanner accepts**, and what is read of them. -/
theorem python_ok_iff {data : List UInt8} {order : ParsedOrder} :
    scanNewOrderSingle data = .ok order ↔
      Decodable data ∧ pythonReading data 35 = some (ascii "D") ∧ (pythonReading data 11).getD [] ≠ [] ∧
        ∃ qty price, FullForm ((pythonReading data 38).getD []) qty ∧
          FullForm ((pythonReading data 44).getD []) price ∧
          order = orderView (pythonReading data) qty.value price.value := by
  unfold scanNewOrderSingle Ascii.decode
  by_cases hascii : data.all (· < 128) = true
  · have hbytes : ∀ b ∈ data, b < 128 := by simpa using hascii
    have hstart : (fun _ => none : Fields) = dictOf fun _ => none := rfl
    rw [if_pos hascii]
    dsimp only
    rw [Except.bind_ok_iff, split_text, hstart]
    constructor
    · intro ⟨dict, hdict, horder⟩
      obtain ⟨hshort, hdict⟩ := (foldlM_addField _ _ dict).1 hdict
      rw [hdict] at horder
      exact ⟨⟨hbytes, hshort⟩, orderOf_dictOf.1 horder⟩
    · intro ⟨hdecodable, horder⟩
      exact ⟨_, (foldlM_addField _ _ _).2 ⟨hdecodable.shortTags, rfl⟩, orderOf_dictOf.2 horder⟩
  · rw [if_neg hascii]
    refine ⟨nofun, fun h => ?_⟩
    exact absurd (by simpa using h.1.ascii) hascii

/-! ## Agreement -/

/-- What is read is an order by the Python scanner. -/
structure PythonOrder (r : Nat → Option (List UInt8)) : Prop where
  msgType : r 35 = some (ascii "D")
  clOrdId : (r 11).getD [] ≠ []
  orderQty : ∃ form, FullForm ((r 38).getD []) form
  price : ∃ form, FullForm ((r 44).getD []) form

/-- The two results are one order. -/
structure SameOrder (order : ParsedOrder) (fields : Native.Fix.NewOrderSingleFields) : Prop where
  clOrdId : order.clOrdId = Ascii.text fields.clOrdId
  account : order.account = Ascii.text fields.account
  symbol : order.symbol = Ascii.text fields.symbol
  side : order.side = Ascii.text fields.side
  senderCompId : order.senderCompId = Ascii.text fields.senderCompId
  orderQtyRaw : order.orderQtyRaw = Ascii.text fields.orderQtyRaw
  priceRaw : order.priceRaw = Ascii.text fields.priceRaw
  orderQty : order.orderQty = fields.orderQty
  price : order.price = fields.price

/-- The scanners accept the same messages and read the same order. -/
structure Agree (data : List UInt8) : Prop where
  accepted : (∃ order, scanNewOrderSingle data = .ok order) ↔
    (Native.Fix.scanNewOrderSingle data).1 = .ok
  same : ∀ order, scanNewOrderSingle data = .ok order → (Native.Fix.scanNewOrderSingle data).1 = .ok →
    SameOrder order (Native.Fix.scanNewOrderSingle data).2

/-- MsgType and the compared fields. -/
def comparedTags : List Nat := [35, 11, 1, 55, 54, 49, 38, 44]

/-- The two readings of the message are the same. -/
def SameReadings (data : List UInt8) : Prop :=
  ∀ tag ∈ comparedTags, (pythonReading data tag).getD [] = (cppReading data tag).getD []

/-- The condition: an order of one reading is one of the other. -/
structure Agreeable (data : List UInt8) : Prop where
  ofNative : CppOrder (cppReading data) →
    Decodable data ∧ SameReadings data ∧ ∀ tag ∈ [38, 44], ∀ form,
      decimalForm ((cppReading data tag).getD []) = some form → form.fraction ≠ some []
  ofPython : Decodable data → PythonOrder (pythonReading data) →
    SameReadings data ∧ ∀ tag ∈ [38, 44], ∀ form,
      decimalForm ((pythonReading data tag).getD []) = some form →
        form.digits.length ≤ kMaxSignificantDigits

theorem python_accepts_iff {data : List UInt8} :
    (∃ order, scanNewOrderSingle data = .ok order) ↔
      Decodable data ∧ PythonOrder (pythonReading data) := by
  constructor
  · intro ⟨order, horder⟩
    obtain ⟨hdecodable, hmsg, hid, qty, price, hqty, hprice, -⟩ := python_ok_iff.1 horder
    exact ⟨hdecodable, hmsg, hid, ⟨qty, hqty⟩, ⟨price, hprice⟩⟩
  · intro ⟨hdecodable, horder⟩
    obtain ⟨qty, hqty⟩ := horder.orderQty
    obtain ⟨price, hprice⟩ := horder.price
    exact ⟨_, python_ok_iff.2 ⟨hdecodable, horder.msgType, horder.clOrdId, qty, price, hqty, hprice, rfl⟩⟩

theorem msgType_iff (o : Option (List UInt8)) : o = some (ascii "D") ↔ o.getD [] = ascii "D" := by
  cases o with
  | none =>
    have hne : ([] : List UInt8) ≠ ascii "D" := by decide
    exact ⟨nofun, fun h => absurd h hne⟩
  | some value => exact Option.some_inj

/-- The order of one reading is the order of the other. -/
theorem cppOrder_of_python {data : List UInt8} (hsame : SameReadings data)
    (horder : PythonOrder (pythonReading data))
    (hshort : ∀ tag ∈ [38, 44], ∀ form, decimalForm ((pythonReading data tag).getD []) = some form →
      form.digits.length ≤ kMaxSignificantDigits) : CppOrder (cppReading data) := by
  obtain ⟨qty, hqty, -⟩ := horder.orderQty
  obtain ⟨price, hprice, -⟩ := horder.price
  refine ⟨?_, ?_, ⟨qty, ?_, hshort 38 (by decide) qty hqty⟩, ⟨price, ?_, hshort 44 (by decide) price hprice⟩⟩
  · rw [msgType_iff, ← hsame 35 (by decide), ← msgType_iff]
    exact horder.msgType
  · rw [← hsame 11 (by decide)]
    exact horder.clOrdId
  · rw [← hsame 38 (by decide)]
    exact hqty
  · rw [← hsame 44 (by decide)]
    exact hprice

theorem pythonOrder_of_cpp {data : List UInt8} (hsame : SameReadings data)
    (horder : CppOrder (cppReading data))
    (hfull : ∀ tag ∈ [38, 44], ∀ form, decimalForm ((cppReading data tag).getD []) = some form →
      form.fraction ≠ some []) : PythonOrder (pythonReading data) := by
  obtain ⟨qty, hqty, -⟩ := horder.orderQty
  obtain ⟨price, hprice, -⟩ := horder.price
  refine ⟨?_, ?_, ⟨qty, ?_, hfull 38 (by decide) qty hqty⟩, ⟨price, ?_, hfull 44 (by decide) price hprice⟩⟩
  · rw [msgType_iff, hsame 35 (by decide), ← msgType_iff]
    exact horder.msgType
  · rw [hsame 11 (by decide)]
    exact horder.clOrdId
  · rw [hsame 38 (by decide)]
    exact hqty
  · rw [hsame 44 (by decide)]
    exact hprice

theorem kept_value {value : List UInt8} {form : DecimalForm} {number : Binary64}
    (hkept : Native.Fix.Kept value number) (hform : decimalForm value = some form)
    (hshort : form.digits.length ≤ kMaxSignificantDigits) : number = form.value := by
  apply hkept
  rw [Native.Fix.parsePlainDecimal_eq, hform]
  exact if_pos hshort

/-- The slices of the two results are those of the readings. -/
theorem sameOrder_iff {data : List UInt8} {order : ParsedOrder}
    (horder : scanNewOrderSingle data = .ok order) (hnative : (Native.Fix.scanNewOrderSingle data).1 = .ok) :
    SameOrder order (Native.Fix.scanNewOrderSingle data).2 ↔ SameReadings data := by
  obtain ⟨-, hmsg, -, qty, price, hqty, hprice, hview⟩ := python_ok_iff.1 horder
  obtain ⟨qtyNumber, priceNumber, hfields, hkeptQty, hkeptPrice⟩ := Native.Fix.scan_fields hnative
  have hcpp := (Native.Fix.scan_ok_iff data).1 hnative
  rw [hfields, hview]
  constructor
  · intro h
    have hmsgType : (pythonReading data 35).getD [] = (cppReading data 35).getD [] := by
      rw [hmsg, hcpp.msgType]
    have hslices : ∀ tag ∈ comparedTags.tail, Ascii.text ((pythonReading data tag).getD []) =
        Ascii.text ((cppReading data tag).getD []) :=
      List.forall_mem_cons.2 ⟨h.clOrdId, List.forall_mem_cons.2 ⟨h.account,
        List.forall_mem_cons.2 ⟨h.symbol, List.forall_mem_cons.2 ⟨h.side,
          List.forall_mem_cons.2 ⟨h.senderCompId, List.forall_mem_cons.2 ⟨h.orderQtyRaw,
            List.forall_mem_singleton.2 h.priceRaw⟩⟩⟩⟩⟩⟩
    exact List.forall_mem_cons.2 ⟨hmsgType, fun tag htag => Ascii.text_injective (hslices tag htag)⟩
  · intro h
    have htext : ∀ tag ∈ comparedTags, Ascii.text ((pythonReading data tag).getD []) =
        Ascii.text ((cppReading data tag).getD []) := fun tag htag => congrArg Ascii.text (h tag htag)
    refine ⟨htext 11 (by decide), htext 1 (by decide), htext 55 (by decide), htext 54 (by decide),
      htext 49 (by decide), htext 38 (by decide), htext 44 (by decide), ?_, ?_⟩
    · obtain ⟨form, hform, hshort⟩ := hcpp.orderQty
      have hsame : form = qty := by
        rw [← h 38 (by decide), hqty.1] at hform
        exact (Option.some.inj hform).symm
      exact (kept_value hkeptQty (hsame ▸ hform) (hsame ▸ hshort)).symm
    · obtain ⟨form, hform, hshort⟩ := hcpp.price
      have hsame : form = price := by
        rw [← h 44 (by decide), hprice.1] at hform
        exact (Option.some.inj hform).symm
      exact (kept_value hkeptPrice (hsame ▸ hform) (hsame ▸ hshort)).symm

/-- **The scanners agree on a message exactly when each order of one reading is one of the other.** -/
theorem agree_iff (data : List UInt8) : Agree data ↔ Agreeable data := by
  constructor
  · intro h
    constructor
    · intro hcpp
      have hnative := (Native.Fix.scan_ok_iff data).2 hcpp
      obtain ⟨order, horder⟩ := h.accepted.2 hnative
      have hsame := (sameOrder_iff horder hnative).1 (h.same order horder hnative)
      obtain ⟨hdecodable, -, -, qty, price, hqty, hprice, -⟩ := python_ok_iff.1 horder
      refine ⟨hdecodable, hsame, ?_⟩
      intro tag htag form hform
      rw [List.mem_pair] at htag
      cases htag with
      | inl heq =>
        subst heq
        rw [← hsame 38 (by decide), hqty.1] at hform
        exact Option.some.inj hform ▸ hqty.2
      | inr heq =>
        subst heq
        rw [← hsame 44 (by decide), hprice.1] at hform
        exact Option.some.inj hform ▸ hprice.2
    · intro hdecodable hpython
      obtain ⟨order, horder⟩ := python_accepts_iff.2 ⟨hdecodable, hpython⟩
      have hnative := h.accepted.1 ⟨order, horder⟩
      have hsame := (sameOrder_iff horder hnative).1 (h.same order horder hnative)
      have hcpp := (Native.Fix.scan_ok_iff data).1 hnative
      obtain ⟨qty, hqty, hqtyShort⟩ := hcpp.orderQty
      obtain ⟨price, hprice, hpriceShort⟩ := hcpp.price
      refine ⟨hsame, ?_⟩
      intro tag htag form hform
      rw [List.mem_pair] at htag
      cases htag with
      | inl heq =>
        subst heq
        rw [hsame 38 (by decide), hqty] at hform
        exact Option.some.inj hform ▸ hqtyShort
      | inr heq =>
        subst heq
        rw [hsame 44 (by decide), hprice] at hform
        exact Option.some.inj hform ▸ hpriceShort
  · intro h
    constructor
    · constructor
      · intro haccepts
        obtain ⟨hdecodable, hpython⟩ := python_accepts_iff.1 haccepts
        obtain ⟨hsame, hshort⟩ := h.ofPython hdecodable hpython
        exact (Native.Fix.scan_ok_iff data).2 (cppOrder_of_python hsame hpython hshort)
      · intro hnative
        have hcpp := (Native.Fix.scan_ok_iff data).1 hnative
        obtain ⟨hdecodable, hsame, hfull⟩ := h.ofNative hcpp
        exact python_accepts_iff.2 ⟨hdecodable, pythonOrder_of_cpp hsame hcpp hfull⟩
    · intro order horder hnative
      exact (sameOrder_iff horder hnative).2 (h.ofNative ((Native.Fix.scan_ok_iff data).1 hnative)).2.1

/-! ## A bare number -/

/-- An order with a field `1` behind its account: `35=D`, `11=A`, `1=U`, `1`, `38=1`, `44=2`. -/
def bareAccount : List UInt8 :=
  ascii "35=D" ++ [kSOH] ++ (ascii "11=A" ++ [kSOH]) ++ (ascii "1=U" ++ [kSOH]) ++
    (ascii "1" ++ [kSOH]) ++ (ascii "38=1" ++ [kSOH]) ++ (ascii "44=2" ++ [kSOH])

/-- An order whose price ends in a point. -/
def pointedPrice : List UInt8 :=
  ascii "35=D" ++ [kSOH] ++ (ascii "11=A" ++ [kSOH]) ++ (ascii "38=1" ++ [kSOH]) ++
    (ascii "44=2." ++ [kSOH])

/-- The Python scanner reads a bare number as an empty account; the native one takes a last point. -/
theorem not_forall_agree : ¬ Agree bareAccount ∧ ¬ Agree pointedPrice := by
  constructor
  · intro h
    have hnative : (Native.Fix.scanNewOrderSingle bareAccount).1 = .ok := by decide +kernel
    obtain ⟨order, horder⟩ := h.accepted.2 hnative
    have hsame := (sameOrder_iff horder hnative).1 (h.same order horder hnative) 1 (by decide)
    have hdiffer : (pythonReading bareAccount 1).getD [] ≠ (cppReading bareAccount 1).getD [] := by
      decide +kernel
    exact hdiffer hsame
  · intro h
    have hnative : (Native.Fix.scanNewOrderSingle pointedPrice).1 = .ok := by decide +kernel
    obtain ⟨order, horder⟩ := h.accepted.2 hnative
    obtain ⟨-, -, -, -, price, -, hprice, -⟩ := python_ok_iff.1 horder
    have hform : decimalForm ((pythonReading pointedPrice 44).getD []) =
        some ⟨false, ascii "2", some []⟩ := by decide +kernel
    have heq := Option.some.inj (hprice.1.symm.trans hform)
    exact hprice.2 (by rw [heq])

end RegEngine.FixGateway
