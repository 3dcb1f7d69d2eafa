import RegEngine.Lib.Binary64

/-!
# The FIX tag scanner

`native/include/regengine/fix_tag_scanner.h`: one pass over the fields of a raw message, which end at the
byte SOH. A field that is not `digits=value` is passed over, and a later field with the same tag replaces
an earlier one. The slices of the message are lists of bytes.
-/

namespace RegEngine.Native.Fix

open Lib

/-- A literal of one byte a character. -/
def ascii (text : String) : List UInt8 := text.toList.map fun c => UInt8.ofNat c.toNat

def kSOH : UInt8 := 0x01

/-- `'='`, `'-'`, `'.'` and `'0'`. -/
def kEquals : UInt8 := 0x3D

def kMinus : UInt8 := 0x2D

def kPoint : UInt8 := 0x2E

def kZero : UInt8 := 0x30

/-- `'0' <= c && c <= '9'`. -/
def isDigit (c : UInt8) : Bool := 0x30 ≤ c && c ≤ 0x39

/-- `c - '0'`. -/
def digitValue (c : UInt8) : Nat := c.toNat - kZero.toNat

inductive ScanResult where
  | ok
  | emptyMessage
  | missingMsgType
  | notNewOrderSingle
  | missingRequiredTag
  | malformedNumber
  deriving DecidableEq, Repr

/-! ## Decimals -/

def kMaxSignificantDigits : Nat := 15

/-- The variables of the loop over the digits; the mantissa has 64 bits. -/
structure DecimalScan where
  mantissa : Nat := 0
  digitCount : Nat := 0
  fracDigits : Nat := 0
  sawDigit : Bool := false
  seenDecimalPoint : Bool := false
  deriving DecidableEq

/-- The loop: none where it returns false, else its variables and the rest of the text where it stops. -/
def scanDigits : List UInt8 → DecimalScan → Option (DecimalScan × List UInt8)
  | [], scan => some (scan, [])
  | c :: rest, scan =>
    if c = kPoint ∧ scan.seenDecimalPoint = false then
      scanDigits rest { scan with seenDecimalPoint := true }
    else if isDigit c = false then some (scan, c :: rest)
    else if kMaxSignificantDigits ≤ scan.digitCount then none
    else
      scanDigits rest
        { mantissa := (scan.mantissa * 10 + digitValue c) % 2 ^ 64
          digitCount := scan.digitCount + 1
          fracDigits := if scan.seenDecimalPoint then scan.fracDigits + 1 else scan.fracDigits
          sawDigit := true
          seenDecimalPoint := scan.seenDecimalPoint }

/-- `kPow10`, as far as its 16 entries go. -/
def kPow10 (n : Nat) : Binary64 := Binary64.ofRat (10 ^ n : Nat)

def parsePlainDecimal (text : List UInt8) : Option Binary64 :=
  let negative := text.head? == some kMinus
  let body := if negative then text.tail else text
  match body.head? with
  | none => none
  | some c =>
    if isDigit c = false then none
    else
      match scanDigits body {} with
      | none => none
      | some (scan, rest) =>
        if scan.sawDigit = false ∨ rest ≠ [] then none
        else
          let value := (Binary64.ofRat scan.mantissa).div (kPow10 scan.fracDigits)
          some (if negative then value.neg else value)

/-! ## Fields -/

/-- A digit more of the tag, in an `int`, which wraps around. -/
def tagStep (tag : Int32) (c : UInt8) : Int32 := tag * 10 + Int32.ofNat (digitValue c)

/-- The tag and the value; none for the tag `-1`. -/
def parseTagAndSplit (field : List UInt8) : Option (Int32 × List UInt8) :=
  match field.idxOf? kEquals with
  | none => none
  | some eq =>
    if eq = 0 then none
    else if (field.take eq).all isDigit then
      some ((field.take eq).foldl tagStep 0, field.drop (eq + 1))
    else none

structure NewOrderSingleFields where
  senderCompId : List UInt8 := []
  targetCompId : List UInt8 := []
  msgSeqNum : List UInt8 := []
  clOrdId : List UInt8 := []
  account : List UInt8 := []
  symbol : List UInt8 := []
  side : List UInt8 := []
  ordType : List UInt8 := []
  orderQtyRaw : List UInt8 := []
  priceRaw : List UInt8 := []
  orderQty : Binary64 := .ofRat 0
  price : Binary64 := .ofRat 0
  hasClOrdId : Bool := false
  hasOrderQty : Bool := false
  hasPrice : Bool := false
  deriving DecidableEq

/-- What the loop over the message changes. -/
structure Scan where
  sawMsgType : Bool := false
  isNewOrderSingle : Bool := false
  out : NewOrderSingleFields := {}
  deriving DecidableEq

/-- The switch on the tag. -/
def Scan.assign (scan : Scan) (tag : Int32) (value : List UInt8) : Scan :=
  let out := scan.out
  if tag = 35 then { scan with sawMsgType := true, isNewOrderSingle := value = ascii "D" }
  else if tag = 49 then { scan with out := { out with senderCompId := value } }
  else if tag = 56 then { scan with out := { out with targetCompId := value } }
  else if tag = 34 then { scan with out := { out with msgSeqNum := value } }
  else if tag = 11 then { scan with out := { out with clOrdId := value, hasClOrdId := value ≠ [] } }
  else if tag = 1 then { scan with out := { out with account := value } }
  else if tag = 55 then { scan with out := { out with symbol := value } }
  else if tag = 54 then { scan with out := { out with side := value } }
  else if tag = 40 then { scan with out := { out with ordType := value } }
  else if tag = 38 then
    { scan with
      out :=
        { out with
          orderQtyRaw := value
          hasOrderQty := (parsePlainDecimal value).isSome
          -- a text that does not parse leaves the number as it was
          orderQty := (parsePlainDecimal value).getD out.orderQty } }
  else if tag = 44 then
    { scan with
      out :=
        { out with
          priceRaw := value
          hasPrice := (parsePlainDecimal value).isSome
          price := (parsePlainDecimal value).getD out.price } }
  else scan

/-- The body of the loop: an empty or malformed field is skipped, and so is one whose tag wrapped around
to below zero. -/
def Scan.visit (scan : Scan) (field : List UInt8) : Scan :=
  match parseTagAndSplit field with
  | none => scan
  | some (tag, value) => if tag < 0 then scan else scan.assign tag value

/-- The verdict after the loop. -/
def Scan.result (scan : Scan) : ScanResult :=
  if scan.sawMsgType = false then .missingMsgType
  else if scan.isNewOrderSingle = false then .notNewOrderSingle
  else if scan.out.hasClOrdId = false then .missingRequiredTag
  else if scan.out.hasOrderQty = false ∨ scan.out.hasPrice = false then
    if scan.out.orderQtyRaw = [] ∨ scan.out.priceRaw = [] then .missingRequiredTag else .malformedNumber
  else .ok

/-- The loop over the fields; what stands behind a last SOH is an empty one. -/
def scanFields (data : List UInt8) : Scan := (data.splitOn kSOH).foldl Scan.visit {}

/-- The result and the fields it leaves in `out`. -/
def scanNewOrderSingle (data : List UInt8) : ScanResult × NewOrderSingleFields :=
  if data = [] then (.emptyMessage, {})
  else ((scanFields data).result, (scanFields data).out)

end RegEngine.Native.Fix
