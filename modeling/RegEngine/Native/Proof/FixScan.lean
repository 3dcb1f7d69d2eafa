import RegEngine.Native.Proof.FixDecimal

/-!
# What the native scanner reads

The state of the scan is a function of the last field taken for each tag, where a tag number is taken
modulo `2 ^ 32`.

* `parseTagAndSplit_eq`: the fields that have a tag, and the tag in an `int`.
* `scanFields_eq`: the state after the loop.
* `scan_ok_iff`: the orders that are accepted, and `scan_fields`: what is read of them.
-/

namespace RegEngine.Native.Fix

open Lib

/-! ## Fields -/

/-- What stands before the first `=`. -/
def nameOf (field : List UInt8) : List UInt8 := field.takeWhile (· ≠ kEquals)

/-- What stands behind it; nothing when there is none. -/
def valueOf (field : List UInt8) : List UInt8 := (field.dropWhile (· ≠ kEquals)).drop 1

/-- The name of the field is a number. -/
def numbered (field : List UInt8) : Bool := !(nameOf field).isEmpty && (nameOf field).all isDigit

def numberOf (field : List UInt8) : Nat := readNumber 0 (nameOf field)

def fieldsOf (data : List UInt8) : List (List UInt8) := data.splitOn kSOH

/-- The value of the last field that is taken. -/
def lastOf (takes : List UInt8 → Bool) (fields : List (List UInt8)) : Option (List UInt8) :=
  fields.foldl (fun last field => if takes field then some (valueOf field) else last) none

/-- The field is taken for a tag, its number being an `int`. -/
def cppTakes (tag : Nat) (field : List UInt8) : Bool :=
  field.contains kEquals && numbered field && numberOf field % 2 ^ 32 == tag

/-- What the native scanner reads for a tag. -/
def cppReading (data : List UInt8) (tag : Nat) : Option (List UInt8) :=
  lastOf (cppTakes tag) (fieldsOf data)

/-! ## Tags -/

theorem idxOf_equals (field : List UInt8) :
    field.idxOf? kEquals = if field.contains kEquals then some (nameOf field).length else none := by
  induction field with
  | nil => rfl
  | cons c field ih =>
    rw [List.idxOf?_cons, ih]
    by_cases hc : c = kEquals
    · rw [hc]
      rfl
    · have hname : nameOf (c :: field) = c :: nameOf field :=
        List.takeWhile_cons_of_pos (by simpa using hc)
      have hcontains : (c :: field).contains kEquals = field.contains kEquals := by
        rw [List.contains_cons]
        have hne : (kEquals == c) = false := by simpa using fun h => hc h.symm
        rw [hne, Bool.false_or]
      rw [hcontains, hname, List.length_cons, if_neg (by simpa using hc)]
      by_cases h : field.contains kEquals = true
      · rw [if_pos h, if_pos h]
        rfl
      · rw [if_neg h, if_neg h]
        rfl

theorem tagStep_ofNat (n : Nat) (c : UInt8) :
    tagStep (Int32.ofNat n) c = Int32.ofNat (n * 10 + digitValue c) := by
  rw [tagStep, Int32.ofNat_add, Int32.ofNat_mul]
  rfl

theorem foldl_tagStep (digits : List UInt8) (n : Nat) :
    digits.foldl tagStep (Int32.ofNat n) = Int32.ofNat (readNumber n digits) := by
  induction digits generalizing n with
  | nil => rfl
  | cons c digits ih =>
    rw [List.foldl_cons, tagStep_ofNat]
    exact ih _

/-- **A field has a tag** when it has an `=` behind a number, which wraps around. -/
theorem parseTagAndSplit_eq (field : List UInt8) :
    parseTagAndSplit field =
      if field.contains kEquals = true ∧ numbered field = true then
        some (Int32.ofNat (numberOf field), valueOf field)
      else none := by
  have hsplit : nameOf field ++ field.dropWhile (· ≠ kEquals) = field :=
    List.takeWhile_append_dropWhile
  have htake : field.take (nameOf field).length = nameOf field := by
    have h := congrArg (List.take (nameOf field).length) hsplit
    rw [List.take_left] at h
    exact h.symm
  have hdrop : field.drop ((nameOf field).length + 1) = valueOf field := by
    have h := congrArg (List.drop (nameOf field).length) hsplit
    rw [List.drop_left] at h
    rw [← List.drop_drop, ← h]
    rfl
  unfold parseTagAndSplit
  rw [idxOf_equals]
  by_cases hcontains : field.contains kEquals = true
  · rw [if_pos hcontains]
    show (if (nameOf field).length = 0 then _ else _) = _
    rw [htake, hdrop]
    by_cases hempty : (nameOf field).length = 0
    · have hnil := List.length_eq_zero_iff.1 hempty
      rw [if_pos hempty, if_neg]
      rw [numbered, hnil]
      simp
    · have hne : (nameOf field).isEmpty = false := by
        rw [← Bool.not_eq_true, List.isEmpty_iff]
        exact fun h => hempty (List.length_eq_zero_iff.2 h)
      rw [if_neg hempty, numbered, hne]
      by_cases hall : (nameOf field).all isDigit = true
      · rw [if_pos hall, if_pos ⟨hcontains, hall⟩]
        have hzero := foldl_tagStep (nameOf field) 0
        rw [numberOf, ← hzero]
        rfl
      · rw [if_neg hall, if_neg (fun h => hall h.2)]
  · rw [if_neg hcontains, if_neg (fun h => hcontains h.1)]

theorem ofNat_eq_iff {n t : Nat} (ht : t < 2 ^ 31) : Int32.ofNat n = Int32.ofNat t ↔ n % 2 ^ 32 = t := by
  rw [← Int32.toBitVec_inj, Int32.toBitVec_ofNat', Int32.toBitVec_ofNat', ← BitVec.toNat_inj,
    BitVec.toNat_ofNat, BitVec.toNat_ofNat, Nat.mod_eq_of_lt (a := t) (by omega)]

theorem not_neg_of_eq {n t : Nat} (ht : t < 2 ^ 31) (h : Int32.ofNat n = Int32.ofNat t) :
    ¬ Int32.ofNat n < 0 := by
  rw [h, Int32.lt_iff_toInt_lt, Int32.toInt_ofNat_of_lt ht]
  show ¬ ((t : Int) < 0)
  omega

/-! ## The state of the scan -/

/-- The state in which `r` has been read; the numbers are kept from the last values that parsed. -/
def viewOf (r : Nat → Option (List UInt8)) (orderQty price : Binary64) : Scan where
  sawMsgType := (r 35).isSome
  isNewOrderSingle := r 35 = some (ascii "D")
  out :=
    { senderCompId := (r 49).getD []
      targetCompId := (r 56).getD []
      msgSeqNum := (r 34).getD []
      clOrdId := (r 11).getD []
      account := (r 1).getD []
      symbol := (r 55).getD []
      side := (r 54).getD []
      ordType := (r 40).getD []
      orderQtyRaw := (r 38).getD []
      priceRaw := (r 44).getD []
      orderQty := orderQty
      price := price
      hasClOrdId := (r 11).getD [] ≠ []
      hasOrderQty := (parsePlainDecimal ((r 38).getD [])).isSome
      hasPrice := (parsePlainDecimal ((r 44).getD [])).isSome }

theorem viewOf_congr {r r' : Nat → Option (List UInt8)} (h : ∀ t < 2 ^ 31, r t = r' t)
    (orderQty price : Binary64) : viewOf r orderQty price = viewOf r' orderQty price := by
  unfold viewOf
  rw [h 35 (by decide), h 49 (by decide), h 56 (by decide), h 34 (by decide), h 11 (by decide),
    h 1 (by decide), h 55 (by decide), h 54 (by decide), h 40 (by decide), h 38 (by decide),
    h 44 (by decide)]

/-- The switch, field by field. -/
theorem assign_eq (scan : Scan) (tag : Int32) (value : List UInt8) :
    scan.assign tag value =
      { sawMsgType := if tag = 35 then true else scan.sawMsgType
        isNewOrderSingle := if tag = 35 then value = ascii "D" else scan.isNewOrderSingle
        out :=
          { senderCompId := if tag = 49 then value else scan.out.senderCompId
            targetCompId := if tag = 56 then value else scan.out.targetCompId
            msgSeqNum := if tag = 34 then value else scan.out.msgSeqNum
            clOrdId := if tag = 11 then value else scan.out.clOrdId
            account := if tag = 1 then value else scan.out.account
            symbol := if tag = 55 then value else scan.out.symbol
            side := if tag = 54 then value else scan.out.side
            ordType := if tag = 40 then value else scan.out.ordType
            orderQtyRaw := if tag = 38 then value else scan.out.orderQtyRaw
            priceRaw := if tag = 44 then value else scan.out.priceRaw
            orderQty :=
              if tag = 38 then (parsePlainDecimal value).getD scan.out.orderQty else scan.out.orderQty
            price := if tag = 44 then (parsePlainDecimal value).getD scan.out.price else scan.out.price
            hasClOrdId := if tag = 11 then value ≠ [] else scan.out.hasClOrdId
            hasOrderQty := if tag = 38 then (parsePlainDecimal value).isSome else scan.out.hasOrderQty
            hasPrice := if tag = 44 then (parsePlainDecimal value).isSome else scan.out.hasPrice } } := by
  by_cases h35 : tag = 35
  · subst h35
    rfl
  by_cases h49 : tag = 49
  · subst h49
    rfl
  by_cases h56 : tag = 56
  · subst h56
    rfl
  by_cases h34 : tag = 34
  · subst h34
    rfl
  by_cases h11 : tag = 11
  · subst h11
    rfl
  by_cases h1 : tag = 1
  · subst h1
    rfl
  by_cases h55 : tag = 55
  · subst h55
    rfl
  by_cases h54 : tag = 54
  · subst h54
    rfl
  by_cases h40 : tag = 40
  · subst h40
    rfl
  by_cases h38 : tag = 38
  · subst h38
    rfl
  by_cases h44 : tag = 44
  · subst h44
    rfl
  simp only [Scan.assign, h35, h49, h56, h34, h11, h1, h55, h54, h40, h38, h44, if_false]

/-- The value of a tag replaces the one before. -/
theorem viewOf_assign (r : Nat → Option (List UInt8)) (orderQty price : Binary64) (tag : Int32)
    (value : List UInt8) :
    (viewOf r orderQty price).assign tag value =
      viewOf (fun t => if tag = Int32.ofNat t then some value else r t)
        (if tag = 38 then (parsePlainDecimal value).getD orderQty else orderQty)
        (if tag = 44 then (parsePlainDecimal value).getD price else price) := by
  have hslice : ∀ t, (if tag = Int32.ofNat t then value else (r t).getD []) =
      (if tag = Int32.ofNat t then some value else r t).getD [] :=
    fun t => (apply_ite (fun o => o.getD []) (tag = Int32.ofNat t) (some value) (r t)).symm
  have hparsed : ∀ t, (if tag = Int32.ofNat t then (parsePlainDecimal value).isSome
      else (parsePlainDecimal ((r t).getD [])).isSome) =
        (parsePlainDecimal ((if tag = Int32.ofNat t then some value else r t).getD [])).isSome :=
    fun t => (apply_ite (fun o => (parsePlainDecimal (o.getD [])).isSome) (tag = Int32.ofNat t)
      (some value) (r t)).symm
  rw [assign_eq, viewOf, viewOf, Scan.mk.injEq, NewOrderSingleFields.mk.injEq]
  refine ⟨?_, ?_, hslice 49, hslice 56, hslice 34, hslice 11, hslice 1,
    hslice 55, hslice 54, hslice 40, hslice 38, hslice 44, rfl, rfl, ?_, hparsed 38, hparsed 44⟩
  · exact (apply_ite Option.isSome (tag = Int32.ofNat 35) (some value) (r 35)).symm
  · show (if tag = Int32.ofNat 35 then _ else _) =
      decide ((if tag = Int32.ofNat 35 then some value else r 35) = some (ascii "D"))
    by_cases h : tag = Int32.ofNat 35
    · rw [if_pos h, if_pos h]
      simp
    · rw [if_neg h, if_neg h]
  · exact (apply_ite (fun o => decide (o.getD [] ≠ [])) (tag = Int32.ofNat 11) (some value) (r 11)).symm

/-- One field: it is taken for the tag that its number is, in an `int` that is not negative. -/
theorem viewOf_visit (r : Nat → Option (List UInt8)) (orderQty price : Binary64) (field : List UInt8) :
    ∃ orderQty' price',
      (viewOf r orderQty price).visit field =
        viewOf (fun t => if cppTakes t field then some (valueOf field) else r t) orderQty' price' ∧
      (orderQty' = if cppTakes 38 field then (parsePlainDecimal (valueOf field)).getD orderQty
        else orderQty) ∧
      (price' = if cppTakes 44 field then (parsePlainDecimal (valueOf field)).getD price else price) := by
  refine ⟨_, _, ?_, rfl, rfl⟩
  unfold Scan.visit
  rw [parseTagAndSplit_eq]
  by_cases htag : field.contains kEquals = true ∧ numbered field = true
  · rw [if_pos htag]
    have htakes : ∀ t < 2 ^ 31, (cppTakes t field = true ↔ Int32.ofNat (numberOf field) = Int32.ofNat t) := by
      intro t ht
      rw [cppTakes, htag.1, htag.2, Bool.true_and, Bool.true_and, beq_iff_eq, ofNat_eq_iff ht]
    by_cases hneg : Int32.ofNat (numberOf field) < 0
    · have hnone : ∀ t < 2 ^ 31, cppTakes t field = false := by
        intro t ht
        rw [← Bool.not_eq_true, htakes t ht]
        exact fun h => not_neg_of_eq ht h hneg
      show (if Int32.ofNat (numberOf field) < 0 then _ else _) = _
      rw [if_pos hneg, hnone 38 (by decide), hnone 44 (by decide)]
      apply viewOf_congr
      intro t ht
      rw [hnone t ht]
      rfl
    · show (if Int32.ofNat (numberOf field) < 0 then _ else _) = _
      rw [if_neg hneg, viewOf_assign]
      have h38 : (if Int32.ofNat (numberOf field) = 38 then
          (parsePlainDecimal (valueOf field)).getD orderQty else orderQty) =
          if cppTakes 38 field = true then (parsePlainDecimal (valueOf field)).getD orderQty
          else orderQty := if_congr (htakes 38 (by decide)).symm rfl rfl
      have h44 : (if Int32.ofNat (numberOf field) = 44 then
          (parsePlainDecimal (valueOf field)).getD price else price) =
          if cppTakes 44 field = true then (parsePlainDecimal (valueOf field)).getD price
          else price := if_congr (htakes 44 (by decide)).symm rfl rfl
      rw [h38, h44]
      apply viewOf_congr
      intro t ht
      exact if_congr (htakes t ht).symm rfl rfl
  · have hnone : ∀ t, cppTakes t field = false := by
      intro t
      rw [← Bool.not_eq_true, cppTakes, Bool.and_eq_true, Bool.and_eq_true]
      exact fun h => htag h.1
    rw [if_neg htag, hnone 38, hnone 44]
    simp only [hnone, Bool.false_eq_true, if_false]

/-- A number that is kept is that of the last value, if that parses. -/
def Kept (value : List UInt8) (number : Binary64) : Prop :=
  ∀ q, parsePlainDecimal value = some q → number = q

theorem kept_step {takes : Bool} {last : Option (List UInt8)} {value : List UInt8} {number : Binary64}
    (h : Kept (last.getD []) number) :
    Kept ((if takes then some value else last).getD [])
      (if takes then (parsePlainDecimal value).getD number else number) := by
  cases takes with
  | false => exact h
  | true =>
    intro q hq
    have hvalue : parsePlainDecimal value = some q := hq
    show (parsePlainDecimal value).getD number = q
    rw [hvalue]
    rfl

/-- The loop, from any state. -/
theorem foldl_visit (fields : List (List UInt8)) {r : Nat → Option (List UInt8)} {orderQty price : Binary64}
    (hqty : Kept ((r 38).getD []) orderQty) (hprice : Kept ((r 44).getD []) price) :
    ∃ orderQty' price',
      fields.foldl Scan.visit (viewOf r orderQty price) =
        viewOf (fun t => fields.foldl
          (fun last field => if cppTakes t field then some (valueOf field) else last) (r t))
          orderQty' price' ∧
      Kept ((fields.foldl
        (fun last field => if cppTakes 38 field then some (valueOf field) else last) (r 38)).getD [])
        orderQty' ∧
      Kept ((fields.foldl
        (fun last field => if cppTakes 44 field then some (valueOf field) else last) (r 44)).getD [])
        price' := by
  induction fields generalizing r orderQty price with
  | nil => exact ⟨orderQty, price, rfl, hqty, hprice⟩
  | cons field fields ih =>
    obtain ⟨orderQty', price', hvisit, hqty', hprice'⟩ := viewOf_visit r orderQty price field
    rw [List.foldl_cons, hvisit]
    refine ih ?_ ?_
    · rw [hqty']
      exact kept_step hqty
    · rw [hprice']
      exact kept_step hprice

/-- **The state after the loop** is that of the last readings. -/
theorem scanFields_eq (data : List UInt8) :
    ∃ orderQty price, scanFields data = viewOf (cppReading data) orderQty price ∧
      Kept ((cppReading data 38).getD []) orderQty ∧ Kept ((cppReading data 44).getD []) price := by
  have hnone : Kept [] (Binary64.ofRat 0) := by
    intro q hq
    cases hq
  exact foldl_visit (fieldsOf data) (r := fun _ => none) hnone hnone

/-! ## Orders -/

/-- What is read is an order by the native scanner. -/
structure CppOrder (r : Nat → Option (List UInt8)) : Prop where
  msgType : r 35 = some (ascii "D")
  clOrdId : (r 11).getD [] ≠ []
  orderQty : ∃ form, decimalForm ((r 38).getD []) = some form ∧ form.digits.length ≤ kMaxSignificantDigits
  price : ∃ form, decimalForm ((r 44).getD []) = some form ∧ form.digits.length ≤ kMaxSignificantDigits

theorem parsePlainDecimal_isSome_iff (text : List UInt8) :
    (parsePlainDecimal text).isSome = true ↔
      ∃ form, decimalForm text = some form ∧ form.digits.length ≤ kMaxSignificantDigits := by
  rw [parsePlainDecimal_eq]
  cases decimalForm text with
  | none => simp
  | some form => simp [DecimalForm.short?]

theorem result_ok_iff (scan : Scan) :
    scan.result = .ok ↔ scan.sawMsgType = true ∧ scan.isNewOrderSingle = true ∧
      scan.out.hasClOrdId = true ∧ scan.out.hasOrderQty = true ∧ scan.out.hasPrice = true := by
  unfold Scan.result
  cases scan.sawMsgType with
  | false => simp
  | true =>
    cases scan.isNewOrderSingle with
    | false => simp
    | true =>
      cases scan.out.hasClOrdId with
      | false => simp
      | true =>
        have hfailed : (if scan.out.orderQtyRaw = [] ∨ scan.out.priceRaw = [] then
            ScanResult.missingRequiredTag else .malformedNumber) ≠ .ok := by
          split
          · exact nofun
          · exact nofun
        cases scan.out.hasOrderQty with
        | false => simpa using hfailed
        | true =>
          cases scan.out.hasPrice with
          | false => simpa using hfailed
          | true => simp

theorem result_viewOf (r : Nat → Option (List UInt8)) (orderQty price : Binary64) :
    (viewOf r orderQty price).result = .ok ↔ CppOrder r := by
  rw [result_ok_iff]
  show (r 35).isSome = true ∧ decide (r 35 = some (ascii "D")) = true ∧
    decide ((r 11).getD [] ≠ []) = true ∧ (parsePlainDecimal ((r 38).getD [])).isSome = true ∧
    (parsePlainDecimal ((r 44).getD [])).isSome = true ↔ _
  rw [decide_eq_true_eq, decide_eq_true_eq, parsePlainDecimal_isSome_iff, parsePlainDecimal_isSome_iff]
  constructor
  · intro ⟨_, hmsg, hid, hqty, hprice⟩
    exact ⟨hmsg, hid, hqty, hprice⟩
  · intro h
    refine ⟨?_, h.msgType, h.clOrdId, h.orderQty, h.price⟩
    rw [h.msgType]
    rfl

theorem cppReading_nil (tag : Nat) : cppReading [] tag = none := by
  have hempty : cppTakes tag [] = false := by simp [cppTakes]
  show (if cppTakes tag [] then some (valueOf []) else none) = none
  rw [hempty]
  rfl

/-- **The orders that the native scanner accepts.** -/
theorem scan_ok_iff (data : List UInt8) :
    (scanNewOrderSingle data).1 = .ok ↔ CppOrder (cppReading data) := by
  unfold scanNewOrderSingle
  by_cases hdata : data = []
  · rw [if_pos hdata, hdata]
    constructor
    · intro h
      cases h
    · intro h
      have hmsg := h.msgType
      rw [cppReading_nil] at hmsg
      cases hmsg
  · rw [if_neg hdata]
    obtain ⟨orderQty, price, hscan, -, -⟩ := scanFields_eq data
    rw [hscan]
    exact result_viewOf _ _ _

/-- **What is read of an accepted order**: the slices are those of the last fields. -/
theorem scan_fields {data : List UInt8} (h : (scanNewOrderSingle data).1 = .ok) :
    ∃ orderQty price, (scanNewOrderSingle data).2 = (viewOf (cppReading data) orderQty price).out ∧
      Kept ((cppReading data 38).getD []) orderQty ∧ Kept ((cppReading data 44).getD []) price := by
  unfold scanNewOrderSingle at h ⊢
  by_cases hdata : data = []
  · rw [if_pos hdata] at h
    cases h
  · rw [if_neg hdata]
    obtain ⟨orderQty, price, hscan, hqty, hprice⟩ := scanFields_eq data
    rw [hscan]
    exact ⟨orderQty, price, rfl, hqty, hprice⟩

end RegEngine.Native.Fix
