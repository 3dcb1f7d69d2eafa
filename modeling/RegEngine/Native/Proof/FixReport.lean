import RegEngine.Lib.Except
import RegEngine.Native.FixGateway

/-!
# The report and its buffers

The body of a report goes into 512 bytes, and most of it is text of the order. The frame is written only
when the caller's buffer has 32 bytes more than the body, of which it needs at most 23.

* `appends_body`, `appends_frame`: what the writers put.
* `length_bodyText`: how long a body is.
* `validateNewOrder_safe_iff`: no write leaves its array just when the body of the report fits.
-/

namespace RegEngine.Native.Fix

open Lib Buffer

/-! ## The texts -/

/-- `tag=value` and SOH. -/
def fieldText (tag : Nat) (value : List UInt8) : List UInt8 :=
  decimal tag ++ ([kEquals] ++ (value ++ [kSOH]))

/-- The body of a report. -/
def bodyText (input : ExecutionReportInput) : List UInt8 :=
  fieldText 35 [0x38] ++ (fieldText 49 input.senderCompId ++ (fieldText 56 input.targetCompId ++
    (fieldText 52 input.sendingTime ++ (fieldText 37 input.orderId ++ (fieldText 11 input.clOrdId ++
    (fieldText 17 input.execId ++ (fieldText 150 [statusChar input.accepted] ++
    (fieldText 39 [statusChar input.accepted] ++ (fieldText 55 input.symbol ++
    (fieldText 54 input.side ++ (fieldText 38 input.orderQtyRaw ++ (fieldText 44 input.priceRaw ++
    (fieldText 14 (decimal (asUint 0)) ++
    (fieldText 151 (if input.accepted then input.orderQtyRaw else ascii "0") ++
    (if input.accepted then []
      else fieldText 103 (decimal (asUint input.ordRejReason)) ++
        (fieldText 58 input.rejectionText ++ fieldText 9001 input.sebiClauseRef))))))))))))))))

/-- What stands before the checksum. -/
def headText (body : List UInt8) : List UInt8 :=
  fieldText 8 (ascii "FIX.4.4") ++ (fieldText 9 (decimal (asUint (Int32.ofNat body.length))) ++ body)

/-- The field of the checksum. -/
def checksumText (sum : Nat) : List UInt8 :=
  [0x31] ++ ([0x30] ++ ([kEquals] ++ ([kZero + UInt8.ofNat (sum / 100)] ++
    ([kZero + UInt8.ofNat (sum / 10 % 10)] ++ ([kZero + UInt8.ofNat (sum % 10)] ++ [kSOH])))))

/-! ## The writers -/

section
variable {capacity : Nat}

theorem appends_fieldStr (tag : Nat) (value : List UInt8) :
    Appends (appendFieldStr tag value : Writer capacity) fun _ => fieldText tag value :=
  (appends_puts _).bind ((appends_put _).bind ((appends_puts _).bind (appends_put _)))

theorem appends_fieldInt (tag : Nat) (value : Int32) :
    Appends (appendFieldInt tag value : Writer capacity)
      fun _ => fieldText tag (decimal (asUint value)) :=
  (appends_puts _).bind ((appends_put _).bind ((appends_puts _).bind (appends_put _)))

theorem appends_fieldChar (tag : Nat) (value : UInt8) :
    Appends (appendFieldChar tag value : Writer capacity) fun _ => fieldText tag [value] :=
  (appends_puts _).bind ((appends_put _).bind ((appends_put _).bind (appends_put _)))

end

/-- The fields that only a rejection has. -/
theorem appends_reason (input : ExecutionReportInput) :
    Appends (fun body : Buffer kBodySize =>
        if input.accepted then some body
        else do
          let body ← appendFieldInt 103 input.ordRejReason body
          let body ← appendFieldStr 58 input.rejectionText body
          appendFieldStr 9001 input.sebiClauseRef body)
      fun _ =>
        if input.accepted then []
        else fieldText 103 (decimal (asUint input.ordRejReason)) ++
          (fieldText 58 input.rejectionText ++ fieldText 9001 input.sebiClauseRef) := by
  cases input.accepted with
  | true => exact appends_nil
  | false =>
    exact (appends_fieldInt 103 _).bind ((appends_fieldStr 58 _).bind (appends_fieldStr 9001 _))

theorem appends_body (input : ExecutionReportInput) :
    Appends (appendBody input) fun _ => bodyText input :=
  (appends_fieldChar 35 _).bind ((appends_fieldStr 49 _).bind ((appends_fieldStr 56 _).bind
    ((appends_fieldStr 52 _).bind ((appends_fieldStr 37 _).bind ((appends_fieldStr 11 _).bind
    ((appends_fieldStr 17 _).bind ((appends_fieldChar 150 _).bind ((appends_fieldChar 39 _).bind
    ((appends_fieldStr 55 _).bind ((appends_fieldStr 54 _).bind ((appends_fieldStr 38 _).bind
    ((appends_fieldStr 44 _).bind ((appends_fieldInt 14 _).bind ((appends_fieldStr 151 _).bind
    (appends_reason input)))))))))))))))

theorem appends_checkSum {capacity : Nat} (sum : Nat) :
    Appends (appendCheckSum sum : Writer capacity) fun _ => checksumText sum :=
  (appends_put _).bind ((appends_put _).bind ((appends_put _).bind ((appends_put _).bind
    ((appends_put _).bind ((appends_put _).bind (appends_put _))))))

theorem appends_frame {capacity : Nat} (body : List UInt8) :
    Appends (appendFrame body : Writer capacity) fun bytes =>
      fieldText 8 (ascii "FIX.4.4") ++ (fieldText 9 (decimal (asUint (Int32.ofNat body.length))) ++
        (body ++ checksumText (checksum (bytes ++ fieldText 8 (ascii "FIX.4.4") ++
          fieldText 9 (decimal (asUint (Int32.ofNat body.length))) ++ body)))) :=
  (appends_fieldStr 8 _).bind ((appends_fieldInt 9 _).bind ((appends_puts body).bind
    (Appends.look fun bytes => appends_checkSum (checksum bytes))))

/-! ## Lengths -/

theorem length_fieldText (tag : Nat) (value : List UInt8) :
    (fieldText tag value).length = (decimal tag).length + 1 + value.length + 1 := by
  simp [fieldText]
  omega

/-- The length of the body of a report. -/
def bodyLength (input : ExecutionReportInput) : Nat :=
  66 + input.senderCompId.length + input.targetCompId.length + input.sendingTime.length +
    input.orderId.length + input.clOrdId.length + input.execId.length + input.symbol.length +
    input.side.length + input.orderQtyRaw.length + input.priceRaw.length +
    if input.accepted then input.orderQtyRaw.length
    else 16 + (decimal (asUint input.ordRejReason)).length + input.rejectionText.length +
      input.sebiClauseRef.length

/-- A number between two powers of ten. -/
theorem length_decimal {n k : Nat} (h : 10 ^ k ≤ n) (hlt : n < 10 ^ (k + 1)) :
    (decimal n).length = k + 1 := by
  have hle := (Nat.length_toDigits_le_iff (by decide) (Nat.succ_pos k)).2 hlt
  have hpos := Nat.length_toDigits_pos (b := 10) (n := n)
  rw [decimal, List.length_map]
  by_contra hne
  cases k with
  | zero => omega
  | succ k =>
    have hshort := (Nat.length_toDigits_le_iff (by decide) (Nat.succ_pos k)).1
      (show (Nat.toDigits 10 n).length ≤ k + 1 by omega)
    omega

theorem length_bodyText (input : ExecutionReportInput) :
    (bodyText input).length = bodyLength input := by
  have htwo : ∀ {n}, 10 ≤ n → n < 100 → (decimal n).length = 2 := fun h h' => length_decimal (k := 1) h h'
  have hthree : ∀ {n}, 100 ≤ n → n < 1000 → (decimal n).length = 3 :=
    fun h h' => length_decimal (k := 2) h h'
  have hfour : (decimal 9001).length = 4 := by decide
  have hzero : (decimal (asUint 0)).length = 1 := by decide
  have hnone : (ascii "0").length = 1 := by decide
  unfold bodyText bodyLength
  cases input.accepted with
  | true =>
    simp (disch := omega) only [List.length_append, length_fieldText, htwo, hthree, hzero,
      List.length_singleton, if_true, List.length_nil]
    clear hfour hzero hnone
    omega
  | false =>
    simp (disch := omega) only [List.length_append, length_fieldText, htwo, hthree, hfour, hzero, hnone,
      List.length_singleton, Bool.false_eq_true, if_false]
    clear hfour hzero hnone
    generalize (decimal (asUint input.ordRejReason)).length = digits
    omega

/-- A length that an `int` holds. -/
theorem asUint_ofNat {n : Nat} (h : n < 2 ^ 31) : asUint (Int32.ofNat n) = n := by
  have hint : (Int32.ofNat n).toInt = n := Int32.toInt_ofNat_of_lt h
  rw [asUint, hint]
  omega

/-- A length below 1000 has at most three digits. -/
theorem length_decimal_le {n : Nat} (h : n < 1000) :
    (decimal (asUint (Int32.ofNat n))).length ≤ 3 := by
  rw [asUint_ofNat (by omega), decimal, List.length_map]
  exact (Nat.length_toDigits_le_iff (by decide) (by decide)).2 h

/-! ## Safety -/

/-- The frame of a body that fits its array takes no more than the room that was asked for. -/
theorem appendFrame_isSome {capacity : Nat} {body : List UInt8} (hbody : body.length ≤ kBodySize)
    (hroom : body.length + 32 ≤ capacity) :
    (appendFrame body ({} : Buffer capacity)).isSome = true := by
  rw [(appends_frame body).isSome_iff]
  have hdigits := length_decimal_le (n := body.length) (by unfold kBodySize at hbody; omega)
  have hbegin : (fieldText 8 (ascii "FIX.4.4")).length = 10 := by decide
  have hnine : (decimal 9).length = 1 := by decide
  simp only [List.length_append, hbegin, length_fieldText, hnine, checksumText, List.length_singleton]
  clear hbegin hnine
  generalize (decimal (asUint (Int32.ofNat body.length))).length = digits at hdigits ⊢
  omega

theorem buildExecutionReport_safe_iff (input : ExecutionReportInput) (capacity : Nat) :
    (∃ report, buildExecutionReport input capacity = .ok report) ↔ bodyLength input ≤ kBodySize := by
  have hbody := (appends_body input).bytes_eq
  rw [length_bodyText] at hbody
  unfold buildExecutionReport
  by_cases hfits : bodyLength input ≤ kBodySize
  · rw [if_pos hfits] at hbody
    obtain ⟨body, hsome, hbytes⟩ := Option.map_eq_some_iff.1 hbody
    rw [hsome]
    by_cases hroom : capacity < body.bytes.length + 32
    · exact ⟨fun _ => hfits, fun _ => ⟨{}, if_pos hroom⟩⟩
    · have hframe := appendFrame_isSome body.fits (Nat.not_lt.1 hroom)
      obtain ⟨out, hout⟩ := Option.isSome_iff_exists.1 hframe
      refine ⟨fun _ => hfits, fun _ => ⟨out, ?_⟩⟩
      dsimp only
      rw [if_neg hroom, hout]
  · rw [if_neg hfits, Option.map_eq_none_iff] at hbody
    rw [hbody]
    constructor
    · intro ⟨report, hreport⟩
      cases hreport
    · exact fun h => absurd h hfits

/-- **No write leaves its array just when the body fits**: the message is not an order, or its report's
body has at most 512 bytes. -/
theorem validateNewOrder_safe_iff (policySet : PolicySet)
    (rawMessage senderCompId sendingTime execId : List UInt8) (reportCapacity : Nat) :
    (∃ result, validateNewOrder policySet rawMessage senderCompId sendingTime execId reportCapacity =
        .ok result) ↔
      ∀ fields, scanNewOrderSingle rawMessage = (.ok, fields) →
        bodyLength (reportInput fields (violatedMeta policySet fields) senderCompId sendingTime execId) ≤
          kBodySize := by
  unfold validateNewOrder
  cases hscan : scanNewOrderSingle rawMessage with
  | mk scan fields =>
    cases scan with
    | ok =>
      have hreport := buildExecutionReport_safe_iff
        (reportInput fields (violatedMeta policySet fields) senderCompId sendingTime execId)
        reportCapacity
      constructor
      · intro ⟨result, hresult⟩ found hfound
        cases hfound
        obtain ⟨report, hok, -⟩ := Except.bind_ok_iff.1 hresult
        exact hreport.1 ⟨report, hok⟩
      · intro hfits
        obtain ⟨report, hok⟩ := hreport.2 (hfits fields rfl)
        exact ⟨_, Except.bind_ok_iff.2 ⟨report, hok, rfl⟩⟩
    | _ =>
      refine ⟨fun _ found hfound => ?_, fun _ => ⟨_, rfl⟩⟩
      cases hfound

/-! ## A long identifier -/

/-- An order whose ClOrdID has 600 letters. -/
def longOrder : List UInt8 :=
  ascii "35=D" ++ [kSOH] ++ (ascii "11=" ++ List.replicate 600 0x41 ++ [kSOH]) ++
    (ascii "38=100" ++ [kSOH]) ++ (ascii "44=10" ++ [kSOH])

/-- The report of an accepted order that no policy denies overruns the body, whatever the caller's
buffer. -/
theorem not_forall_safe :
    ¬ ∀ (policySet : PolicySet) (rawMessage senderCompId sendingTime execId : List UInt8)
        (reportCapacity : Nat), (scanNewOrderSingle rawMessage).1 = .ok →
      ∃ result, validateNewOrder policySet rawMessage senderCompId sendingTime execId reportCapacity =
        .ok result := by
  intro hall
  have hok : (scanNewOrderSingle longOrder).1 = .ok := by decide +kernel
  have hlong : ¬ bodyLength (reportInput (scanNewOrderSingle longOrder).2 none [] [] []) ≤ kBodySize := by
    decide +kernel
  have hsafe := hall ⟨[], 0⟩ longOrder [] [] [] 4096 hok
  rw [validateNewOrder_safe_iff] at hsafe
  have hscan : scanNewOrderSingle longOrder = (.ok, (scanNewOrderSingle longOrder).2) := by
    rw [← hok]
  exact hlong (hsafe _ hscan)

end RegEngine.Native.Fix
