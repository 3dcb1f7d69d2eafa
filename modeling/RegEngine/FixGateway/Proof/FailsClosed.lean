import RegEngine.FixGateway.Proof.Scanner

/-!
# What escapes from the Python scanner

The docstring promises a `FixScanError` for anything short of a complete order, and the gateway catches
nothing else. The checks of an order raise just that, but the bytes are decoded and the tags converted
before them.

* `foldlM_addField_error`, `orderOf_error`: what each part raises.
* `fails_closed_iff`: when nothing else escapes.
-/

namespace RegEngine.FixGateway

open Lib Lib.Python
open Native.Fix (kSOH fieldsOf numbered nameOf ascii)

/-- A complete order is returned, or the scanner's own error is raised. -/
def FailsClosed (data : List UInt8) : Prop :=
  (∃ order, scanNewOrderSingle data = .ok order ∧ order.clOrdId ≠ "" ∧ order.orderQtyRaw ≠ "" ∧
      order.priceRaw ≠ "") ∨
    ∃ message, scanNewOrderSingle data = .error (.fixScanError message)

/-- The loop raises nothing but the `ValueError` of a long tag. -/
theorem foldlM_addField_error {fields : List (List UInt8)} {dict : Fields} {e : ScanFailure}
    (h : (fields.map Ascii.text).foldlM addField dict = .error e) : ∃ n, e = .valueError n := by
  induction fields generalizing dict with
  | nil => cases h
  | cons field fields ih =>
    rw [List.map_cons, List.foldlM_cons] at h
    cases hfield : addField dict (Ascii.text field) with
    | ok next =>
      rw [hfield] at h
      exact ih h
    | error e' =>
      rw [hfield] at h
      cases h
      rw [addField_text] at hfield
      split at hfield
      · split at hfield
        · cases hfield
          exact ⟨_, rfl⟩
        · cases hfield
      · cases hfield

theorem parsePlainDecimal_error {text : String} {e : ScanFailure}
    (h : parsePlainDecimal text = .error e) : e = notPlain text := by
  unfold parsePlainDecimal at h
  dsimp only at h
  split at h
  · cases h
    rfl
  · split at h
    · cases h
      rfl
    · cases h

/-- The checks of an order raise the scanner's own error. -/
theorem orderOf_error {fields : Fields} {e : ScanFailure} (h : orderOf fields = .error e) :
    ∃ message, e = .fixScanError message := by
  unfold orderOf at h
  split at h
  · cases h
    exact ⟨_, rfl⟩
  · split at h
    · cases h
      exact ⟨_, rfl⟩
    · split at h
      · cases h
        exact ⟨_, rfl⟩
      · cases hqty : parsePlainDecimal ((fields tagOrderQty).getD "") with
        | error e' =>
          rw [hqty] at h
          cases h
          exact ⟨_, parsePlainDecimal_error hqty⟩
        | ok qty =>
          rw [hqty] at h
          cases hprice : parsePlainDecimal ((fields tagPrice).getD "") with
          | error e' =>
            rw [hprice] at h
            cases h
            exact ⟨_, parsePlainDecimal_error hprice⟩
          | ok price =>
            rw [hprice] at h
            cases h

/-- A returned order has the three required texts. -/
theorem order_complete {data : List UInt8} {order : ParsedOrder} (h : scanNewOrderSingle data = .ok order) :
    order.clOrdId ≠ "" ∧ order.orderQtyRaw ≠ "" ∧ order.priceRaw ≠ "" := by
  obtain ⟨-, -, hid, qty, price, hqty, hprice, horder⟩ := python_ok_iff.1 h
  rw [horder]
  refine ⟨fun hempty => hid (text_eq_empty.1 hempty), fun hempty => ?_, fun hempty => ?_⟩
  · rw [text_eq_empty.1 hempty] at hqty
    exact not_fullForm_nil hqty
  · rw [text_eq_empty.1 hempty] at hprice
    exact not_fullForm_nil hprice

/-- **The scanner fails closed on ASCII whose tags `int` can convert, and on nothing else.** -/
theorem fails_closed_iff (data : List UInt8) : FailsClosed data ↔ Decodable data := by
  have hstart : (fun _ => none : Fields) = dictOf fun _ => none := rfl
  constructor
  · intro h
    unfold FailsClosed at h
    cases h with
    | inl horder =>
      obtain ⟨order, hscan, -⟩ := horder
      exact (python_ok_iff.1 hscan).1
    | inr herror =>
      obtain ⟨message, hscan⟩ := herror
      unfold scanNewOrderSingle Ascii.decode at hscan
      by_cases hascii : data.all (· < 128) = true
      · rw [if_pos hascii] at hscan
        dsimp only at hscan
        rw [split_text, hstart] at hscan
        cases hdict : ((fieldsOf data).map Ascii.text).foldlM addField (dictOf fun _ => none) with
        | error e =>
          rw [hdict] at hscan
          obtain ⟨n, rfl⟩ := foldlM_addField_error hdict
          cases hscan
        | ok dict =>
          refine ⟨?_, ((foldlM_addField _ _ dict).1 hdict).1⟩
          simpa using hascii
      · rw [if_neg hascii] at hscan
        cases hscan
  · intro h
    cases hscan : scanNewOrderSingle data with
    | ok order => exact .inl ⟨order, hscan, order_complete hscan⟩
    | error e =>
      right
      have hascii : data.all (· < 128) = true := by simpa using h.ascii
      have hdict := (foldlM_addField (fieldsOf data) (fun _ => none) _).2 ⟨h.shortTags, rfl⟩
      have hrun := hscan
      unfold scanNewOrderSingle Ascii.decode at hrun
      rw [if_pos hascii] at hrun
      dsimp only at hrun
      rw [split_text, hstart, hdict] at hrun
      obtain ⟨message, rfl⟩ := orderOf_error hrun
      exact ⟨message, hscan⟩

/-- One byte above 127. -/
theorem not_forall_failsClosed : ¬ ∀ data, FailsClosed data := by
  intro h
  have hscan : scanNewOrderSingle [0xE9] = .error .unicodeDecodeError := by decide
  cases h [0xE9] with
  | inl horder =>
    obtain ⟨order, hok, -⟩ := horder
    rw [hscan] at hok
    cases hok
  | inr herror =>
    obtain ⟨message, herr⟩ := herror
    rw [hscan] at herr
    cases herr

end RegEngine.FixGateway
