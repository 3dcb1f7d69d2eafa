import RegEngine.Lib.Buffer
import RegEngine.Native.FixTagScanner
import RegEngine.Native.PolicyEngine

/-!
# Execution reports

`native/include/regengine/fix_execution_report.h`: the body of a report is written into an array of 512
bytes without a look at its end, then framed in the caller's buffer, if that is long enough. A write past
the end of either array is an `Overrun`.
-/

namespace RegEngine.Native.Fix

open Lib

/-- The array that a write went past the end of. -/
inductive Overrun where
  | body
  | reportOut
  deriving DecidableEq

/-- The digits of a number. -/
def decimal (n : Nat) : List UInt8 := (Nat.toDigits 10 n).map fun c => UInt8.ofNat c.toNat

/-- `static_cast<std::uint64_t>`. -/
def asUint (value : Int32) : Nat := (value.toInt % 2 ^ 64).toNat

section
variable {capacity : Nat}

def appendUint (buf : Buffer capacity) (n : Nat) : Option (Buffer capacity) := buf.puts (decimal n)

def appendStr (buf : Buffer capacity) (s : List UInt8) : Option (Buffer capacity) := buf.puts s

def appendFieldInt (tag : Nat) (value : Int32) (buf : Buffer capacity) : Option (Buffer capacity) := do
  let buf ← appendUint buf tag
  let buf ← buf.put kEquals
  let buf ← appendUint buf (asUint value)
  buf.put kSOH

def appendFieldStr (tag : Nat) (value : List UInt8) (buf : Buffer capacity) :
    Option (Buffer capacity) := do
  let buf ← appendUint buf tag
  let buf ← buf.put kEquals
  let buf ← appendStr buf value
  buf.put kSOH

def appendFieldChar (tag : Nat) (value : UInt8) (buf : Buffer capacity) : Option (Buffer capacity) := do
  let buf ← appendUint buf tag
  let buf ← buf.put kEquals
  let buf ← buf.put value
  buf.put kSOH

end

structure ExecutionReportInput where
  senderCompId : List UInt8
  targetCompId : List UInt8
  sendingTime : List UInt8
  clOrdId : List UInt8
  orderId : List UInt8
  execId : List UInt8
  symbol : List UInt8
  side : List UInt8
  orderQtyRaw : List UInt8
  priceRaw : List UInt8
  accepted : Bool := false
  ordRejReason : Int32 := 99
  rejectionText : List UInt8 := []
  sebiClauseRef : List UInt8 := []

/-- `sizeof(body)`. -/
def kBodySize : Nat := 512

/-- The characters of `ExecType` and `OrdStatus`. -/
def statusChar (accepted : Bool) : UInt8 := if accepted then 0x30 else 0x38

/-- The body, field by field. -/
def appendBody (input : ExecutionReportInput) (body : Buffer kBodySize) : Option (Buffer kBodySize) := do
  let body ← appendFieldChar 35 0x38 body
  let body ← appendFieldStr 49 input.senderCompId body
  let body ← appendFieldStr 56 input.targetCompId body
  let body ← appendFieldStr 52 input.sendingTime body
  let body ← appendFieldStr 37 input.orderId body
  let body ← appendFieldStr 11 input.clOrdId body
  let body ← appendFieldStr 17 input.execId body
  let body ← appendFieldChar 150 (statusChar input.accepted) body
  let body ← appendFieldChar 39 (statusChar input.accepted) body
  let body ← appendFieldStr 55 input.symbol body
  let body ← appendFieldStr 54 input.side body
  let body ← appendFieldStr 38 input.orderQtyRaw body
  let body ← appendFieldStr 44 input.priceRaw body
  let body ← appendFieldInt 14 0 body
  let body ← appendFieldStr 151 (if input.accepted then input.orderQtyRaw else ascii "0") body
  if input.accepted then some body
  else do
    let body ← appendFieldInt 103 input.ordRejReason body
    let body ← appendFieldStr 58 input.rejectionText body
    appendFieldStr 9001 input.sebiClauseRef body

/-- The sum of the bytes, in 32 bits, modulo 256. -/
def checksum (bytes : List UInt8) : Nat :=
  bytes.foldl (fun sum byte => (sum + byte.toNat) % 2 ^ 32) 0 % 256

/-- The checksum as three digits. -/
def appendCheckSum {capacity : Nat} (sum : Nat) (out : Buffer capacity) : Option (Buffer capacity) := do
  let out ← out.put 0x31
  let out ← out.put 0x30
  let out ← out.put kEquals
  let out ← out.put (kZero + UInt8.ofNat (sum / 100))
  let out ← out.put (kZero + UInt8.ofNat (sum / 10 % 10))
  let out ← out.put (kZero + UInt8.ofNat (sum % 10))
  out.put kSOH

/-- The frame around the body. -/
def appendFrame {capacity : Nat} (body : List UInt8) (out : Buffer capacity) :
    Option (Buffer capacity) := do
  let out ← appendFieldStr 8 (ascii "FIX.4.4") out
  let out ← appendFieldInt 9 (Int32.ofNat body.length) out
  let out ← appendStr out body
  appendCheckSum (checksum out.bytes) out

/-- The report in the caller's buffer; nothing in it when the buffer is too short. -/
def buildExecutionReport (input : ExecutionReportInput) (outCapacity : Nat) :
    Except Overrun (Buffer outCapacity) :=
  match appendBody input {} with
  | none => .error .body
  | some body =>
    if outCapacity < body.bytes.length + 32 then .ok {}
    else
      match appendFrame body.bytes {} with
      | none => .error .reportOut
      | some out => .ok out

/-!
## The native gateway

`native/include/regengine/fix_gateway.h`: a raw order in, a raw execution report out. The first policy that
denies the order gives the report its reason.
-/

/-- The texts are what stands before the terminators of arrays of 224 and 64 bytes. -/
structure RejectionMeta where
  ordRejReason : Int32 := 99
  text : List UInt8 := []
  sebiClauseRef : List UInt8 := []
  length_text : text.length < 224 := by simp
  length_sebiClauseRef : sebiClauseRef.length < 64 := by simp

inductive FactSource where
  | orderQty
  | price
  | notionalValue
  | external
  deriving DecidableEq

/-- `fact_sources` holds the first `num_slots` entries. -/
structure PolicyBundle where
  policy : CompiledPolicy
  rejection : RejectionMeta
  factSources : List FactSource := []
  length_factSources : factSources.length ≤ kMaxFactSlots := by simp

structure PolicySet where
  bundles : List PolicyBundle
  entityTypeHash : UInt32 := 0

/-- None for a fact that the message does not carry. -/
def resolveFact (source : FactSource) (f : NewOrderSingleFields) : Option Binary64 :=
  match source with
  | .orderQty => some f.orderQty
  | .price => some f.price
  | .notionalValue => some (f.orderQty.mul f.price)
  | .external => none

def evaluateBundle (bundle : PolicyBundle) (fields : NewOrderSingleFields) (entityTypeHash : UInt32) :
    Bool :=
  match bundle.factSources.mapM (resolveFact · fields) with
  | none => false
  | some values => evaluateRaw bundle.policy values entityTypeHash

inductive ValidationOutcome where
  | accepted
  | rejected
  | malformedMessage
  deriving DecidableEq

structure ValidationResult (reportCapacity : Nat) where
  outcome : ValidationOutcome
  scanResult : ScanResult
  violatedMeta : Option RejectionMeta
  /-- `report_out`, as far as `report_len`. -/
  report : Buffer reportCapacity

/-- The reason of the first policy that denies. -/
def violatedMeta (policySet : PolicySet) (fields : NewOrderSingleFields) : Option RejectionMeta :=
  (policySet.bundles.find? fun bundle =>
    !evaluateBundle bundle fields policySet.entityTypeHash).map PolicyBundle.rejection

/-- What the report says. -/
def reportInput (fields : NewOrderSingleFields) (violated : Option RejectionMeta)
    (senderCompId sendingTime execId : List UInt8) : ExecutionReportInput :=
  let input : ExecutionReportInput :=
    { senderCompId := senderCompId
      targetCompId := fields.senderCompId
      sendingTime := sendingTime
      clOrdId := fields.clOrdId
      orderId := ascii "NONE"
      execId := execId
      symbol := fields.symbol
      side := fields.side
      orderQtyRaw := fields.orderQtyRaw
      priceRaw := fields.priceRaw
      accepted := violated.isNone }
  match violated with
  | none => input
  | some violated =>
    { input with
      ordRejReason := violated.ordRejReason
      rejectionText := violated.text
      sebiClauseRef := violated.sebiClauseRef }

def validateNewOrder (policySet : PolicySet) (rawMessage senderCompId sendingTime execId : List UInt8)
    (reportCapacity : Nat) : Except Overrun (ValidationResult reportCapacity) :=
  match scanNewOrderSingle rawMessage with
  | (.ok, fields) => do
    let violated := violatedMeta policySet fields
    let report ← buildExecutionReport (reportInput fields violated senderCompId sendingTime execId)
      reportCapacity
    pure
      { outcome := if violated.isNone then .accepted else .rejected
        scanResult := .ok
        violatedMeta := violated
        report := report }
  | (scan, _) =>
    .ok { outcome := .malformedMessage, scanResult := scan, violatedMeta := none, report := {} }

end RegEngine.Native.Fix
