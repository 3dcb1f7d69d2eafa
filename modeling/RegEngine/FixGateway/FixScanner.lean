import RegEngine.Lib.Binary64
import RegEngine.Lib.Text
import RegEngine.Lib.Python

/-!
# Orders and reasons

`app/fix_gateway/models.py`: the fields extracted from one New Order Single, and why a policy rejects it.
-/

namespace RegEngine.FixGateway

open Lib

structure ParsedOrder where
  senderCompId : String
  targetCompId : String
  msgSeqNum : String
  clOrdId : String
  account : String
  symbol : String
  side : String
  orderQty : Binary64
  price : Binary64
  orderQtyRaw : String
  priceRaw : String
  deriving DecidableEq

inductive OrdRejReason where
  | brokerExchangeOption
  | unknownSymbol
  | exchangeClosed
  | orderExceedsLimit
  | tooLateToEnter
  | duplicateOrder
  | incorrectQuantity
  | other
  deriving DecidableEq

structure SebiRejectionReason where
  ordRejReason : OrdRejReason
  sebiCircularNumber : String
  sebiClauseNumber : Option String
  text : String
  deriving DecidableEq

end RegEngine.FixGateway

/-!
## The Python scanner

`app/fix_gateway/fix_scanner.py`: the fields of a raw message go into a dictionary by their tag, and an
order is made of it. Everything that is raised on the way is a `ScanFailure`.
-/

namespace RegEngine.FixGateway

open Lib Lib.Python

inductive ScanFailure where
  | unicodeDecodeError
  | valueError (digits : Nat)
  | fixScanError (message : String)
  deriving DecidableEq

/-- The tags that are read. -/
def tagSenderCompId : Nat := 49

def tagTargetCompId : Nat := 56

def tagMsgSeqNum : Nat := 34

def tagMsgType : Nat := 35

def tagClOrdId : Nat := 11

def tagAccount : Nat := 1

def tagSymbol : Nat := 55

def tagSide : Nat := 54

def tagOrderQty : Nat := 38

def tagPrice : Nat := 44

/-- `MsgType.NEW_ORDER_SINGLE`. -/
def newOrderSingle : String := "D"

/-- `text` without a leading minus. -/
def decimalBody (text : String) : List Char :=
  if startsWith text "-" then text.toList.drop 1 else text.toList

/-- `float` of a plain decimal: the nearest double. -/
def float (text : String) : Binary64 :=
  let whole := (decimalBody text).takeWhile Char.isDigit
  let fraction := ((decimalBody text).dropWhile Char.isDigit).drop 1
  let value := Binary64.ofRat (Nat.ofDigitChars 10 (whole ++ fraction) 0 / (10 ^ fraction.length : Nat))
  if startsWith text "-" then value.neg else value

def notPlain (text : String) : ScanFailure :=
  .fixScanError (reprText text ++ " is not a plain FIX decimal.")

def parsePlainDecimal (text : String) : Except ScanFailure Binary64 :=
  let body := decimalBody text
  if body = [] ∨ body.all (fun c => c.isDigit || c == '.') = false ∨ 1 < body.count '.' then
    .error (notPlain text)
  else if body.head? = some '.' ∨ body.getLast? = some '.' ∨ body.any Char.isDigit = false then
    .error (notPlain text)
  else .ok (float text)

/-- `fields`. -/
abbrev Fields : Type := Nat → Option String

/-- The body of the loop. -/
def addField (fields : Fields) (field : String) : Except ScanFailure Fields :=
  if field = "" then .ok fields
  else
    let (tagStr, value) := Ascii.partition '=' field
    if Ascii.isDigits tagStr = false then .ok fields
    else
      match Ascii.int? tagStr with
      | none => .error (.valueError tagStr.toList.length)
      | some tag => .ok (Function.update fields tag (some value))

/-- The required tags that are absent or empty. -/
def missingTags (fields : Fields) : List Nat :=
  [tagClOrdId, tagOrderQty, tagPrice].filter fun tag => (fields tag).getD "" = ""

/-- The text of a list of numbers. -/
def reprTags (tags : List Nat) : String := "[" ++ ", ".intercalate (tags.map toString) ++ "]"

/-- The checks and the order, from the dictionary. -/
def orderOf (fields : Fields) : Except ScanFailure ParsedOrder :=
  match fields tagMsgType with
  | none => .error (.fixScanError "No MsgType (35) tag present.")
  | some msgType =>
    if msgType ≠ newOrderSingle then
      .error (.fixScanError ("MsgType is " ++ reprText msgType ++ ", not " ++ reprText newOrderSingle ++
        " (New Order Single)."))
    else if missingTags fields ≠ [] then
      .error (.fixScanError ("Missing required tag(s): " ++ reprTags (missingTags fields) ++ "."))
    else do
      let orderQty ← parsePlainDecimal ((fields tagOrderQty).getD "")
      let price ← parsePlainDecimal ((fields tagPrice).getD "")
      pure
        { senderCompId := (fields tagSenderCompId).getD ""
          targetCompId := (fields tagTargetCompId).getD ""
          msgSeqNum := (fields tagMsgSeqNum).getD ""
          clOrdId := (fields tagClOrdId).getD ""
          account := (fields tagAccount).getD ""
          symbol := (fields tagSymbol).getD ""
          side := (fields tagSide).getD ""
          orderQty := orderQty
          price := price
          orderQtyRaw := (fields tagOrderQty).getD ""
          priceRaw := (fields tagPrice).getD "" }

def scanNewOrderSingle (raw : List UInt8) : Except ScanFailure ParsedOrder :=
  match Ascii.decode raw with
  | none => .error .unicodeDecodeError
  | some text => do
    let fields ← (split '\x01' text).foldlM addField fun _ => none
    orderOf fields

end RegEngine.FixGateway
