import RegEngine.Lib.IntText
import RegEngine.Lib.Primality
import RegEngine.Lib.Sha256
import RegEngine.Lib.Except
import RegEngine.Lib.Circom

/-!
# Field elements and witnesses

`app/zkp/witness.py`: how a text or a number becomes an element of BN254's scalar field, the Poseidon
hash the module computes with constants of its own, and the inputs it builds for
`compliance_collateral.circom` from a batch of transactions.
-/

namespace RegEngine.Zkp

open Lib Lib.Python Lib.Sha256

/-- `FIELD_MODULUS`: the order of the curve's group. -/
def fieldModulus : Nat :=
  21888242871839275222246405745257275088548364400416034343698204186575808495617

/-- `x % FIELD_MODULUS`. -/
def reduce (x : Int) : Nat := (x % fieldModulus).toNat

/-- Errors of the module. A `ValueError` of `int` on a text of digits is not caught. -/
inductive WitnessError where
  | valueError
  | batchSize (message : String)
  | compliancePredicateViolation (message : String)
  deriving DecidableEq, Repr

/-- `int(digest, 16) % FIELD_MODULUS` of a text's SHA-256. -/
def digestField (s : String) : Nat :=
  (sha256 (utf8 s)).words.foldl (fun n w => n * 2 ^ 32 + w) 0 % fieldModulus

/-- `int(clean_hex, 16)` where the text has the form of a hash; a `ValueError` gives `none`. -/
def hexInt? (s : String) : Option Int :=
  if startsWith s "0x" then int? 16 (String.ofList (s.toList.drop 2))
  else if s.toList.length = 64 then int? 16 s
  else none

/-- `string_to_field_element` of a text. -/
def stringToFieldElement (val : String) : Except WitnessError Nat :=
  let valStr := strip val
  if isdigit valStr then
    match int? 10 valStr with
    | some n => .ok (reduce n)
    | none => .error .valueError
  else
    match hexInt? valStr with
    | some n => .ok (reduce n)
    | none => .ok (digestField valStr)

/-- A `str | int` argument. -/
inductive TextOrInt where
  | text (s : String)
  | int (n : Int)
  deriving DecidableEq

/-- `string_to_field_element`. -/
def TextOrInt.toFieldElement : TextOrInt → Except WitnessError Nat
  | text s => stringToFieldElement s
  | int n => .ok (reduce n)

/-! ## The Poseidon hash -/

/-- `pow(a, -1, p)` for the prime modulus. -/
def invMod (a : Nat) : Nat := powMod fieldModulus 254 a (fieldModulus - 2)

/-- `_make_mds_matrix`. -/
def makeMdsMatrix (t : Nat) : List (List Nat) :=
  (List.range t).map fun i => (List.range t).map fun j => invMod (i + (t + j))

/-- `_generate_round_constants`. -/
def generateRoundConstants (t numRounds : Nat) : List (List Nat) :=
  (List.range numRounds).map fun r => (List.range t).map fun i =>
    digestField s!"Poseidon_BN254_C_t{t}_r{r}_i{i}"

/-- The S-box. -/
def sbox (x : Nat) : Nat := x ^ 5 % fieldModulus

/-- One round: constants, the S-box on the whole state or its first element, the matrix. -/
def poseidonRound (mds : List (List Nat)) (state : List Nat) (rc : List Nat) (isFull : Bool) :
    List Nat :=
  let added := (state.zip rc).map fun x => (x.1 + x.2) % fieldModulus
  let boxed := if isFull then added.map sbox else added.modifyHead sbox
  mds.map fun row => (row.zip boxed).foldl (fun acc x => (acc + x.1 * x.2) % fieldModulus) 0

/-- `poseidon_hash`. -/
def poseidonHash (inputs : List Nat) : Nat :=
  if inputs = [] then 0
  else
    let t := inputs.length + 1
    let rF := 8
    let rP := if t ≤ 4 then 56 else 60
    let halfF := rF / 2
    let mds := makeMdsMatrix t
    let rounds := (generateRoundConstants t (rF + rP)).zipIdx
    let final := rounds.foldl
      (fun state rc => poseidonRound mds state rc.1 (rc.2 < halfF || rc.2 ≥ halfF + rP))
      (0 :: inputs.map (· % fieldModulus))
    final.headD 0

/-! ## The witness -/

/-- `PrivateTransactionRecord`. -/
structure PrivateTransactionRecord where
  transactionId : String
  collectedMargin : Int
  requiredMargin : Int
  salt : Option Int

def PrivateTransactionRecord.transactionIdField (t : PrivateTransactionRecord) :
    Except WitnessError Nat :=
  stringToFieldElement t.transactionId

def PrivateTransactionRecord.resolvedSalt (t : PrivateTransactionRecord) : Nat :=
  match t.salt with
  | some s => reduce s
  | none => digestField ("regengine_salt_" ++ t.transactionId)

def computeLeafCommitment (transactionIdField : Nat) (collectedMargin requiredMargin : Int)
    (salt : Nat) : Nat :=
  poseidonHash [transactionIdField % fieldModulus, reduce collectedMargin, reduce requiredMargin,
    salt % fieldModulus]

def computeDatasetCommitment (leafCommitments : List Nat) : Nat :=
  poseidonHash (leafCommitments.map (· % fieldModulus))

/-- What the loop appends for one transaction. -/
structure WitnessRow where
  leaf : Nat
  collectedMargin : String
  requiredMargin : String
  transactionId : String
  salt : String

/-- `circuit_inputs` together with the values returned beside them. -/
structure ComplianceCollateralWitness where
  policyHashField : Nat
  reportingPeriodField : Nat
  datasetCommitment : Nat
  marginThresholdField : Nat
  rows : List WitnessRow

/-- `public_signals` of the result. -/
def ComplianceCollateralWitness.publicSignals (w : ComplianceCollateralWitness) : List String :=
  [toString w.policyHashField, toString w.reportingPeriodField, toString w.datasetCommitment,
    toString w.marginThresholdField]

/-- `str` of an integer: a `ValueError` past the limit of digits. -/
def strInt (n : Int) : Except WitnessError String :=
  if Ascii.maxStrDigits < (Nat.toDigits 10 n.natAbs).length then .error .valueError
  else .ok (toString n)

/-- The body of the loop over the transactions. -/
def witnessRow (idx : Nat) (txn : PrivateTransactionRecord) : Except WitnessError WitnessRow := do
  if txn.collectedMargin < txn.requiredMargin then
    let collected ← strInt txn.collectedMargin
    let required ← strInt txn.requiredMargin
    throw (.compliancePredicateViolation
      (s!"Transaction {txn.transactionId} at index {idx} failed compliance predicate: " ++
        s!"collected_margin ({collected} paise) < required_margin ({required} paise)."))
  let txnIdField ← txn.transactionIdField
  let salt := txn.resolvedSalt
  let collectedMargin ← strInt txn.collectedMargin
  let requiredMargin ← strInt txn.requiredMargin
  return {
    collectedMargin, requiredMargin
    leaf := computeLeafCommitment txnIdField txn.collectedMargin txn.requiredMargin salt
    transactionId := toString txnIdField
    salt := toString salt }

/-- `generate_compliance_collateral_witness`. -/
def generateComplianceCollateralWitness (policyHash reportingPeriodId marginThreshold : TextOrInt)
    (transactions : List PrivateTransactionRecord) (expectedBatchSize : Int) :
    Except WitnessError ComplianceCollateralWitness := do
  if (transactions.length : Int) ≠ expectedBatchSize then
    throw (.batchSize (s!"Expected exactly {expectedBatchSize} transactions in compliance batch, " ++
      s!"got {transactions.length}."))
  let policyHashField ← policyHash.toFieldElement
  let reportingPeriodField ← reportingPeriodId.toFieldElement
  let marginThresholdField ← marginThreshold.toFieldElement
  let rows ← transactions.zipIdx.mapM fun t => witnessRow t.2 t.1
  return {
    policyHashField, reportingPeriodField, marginThresholdField, rows
    datasetCommitment := computeDatasetCommitment (rows.map WitnessRow.leaf) }

end RegEngine.Zkp

/-!
## The circuits

`zk/circuits/compliance_collateral.circom` and `zk/circuits/margin_compliance.circom` as constraints on
their signals in BN254's scalar field. `Poseidon` is circomlib's and a parameter. A signal of the input
file is the text of an integer, which is read modulo the order of the field.
-/

namespace RegEngine.Zkp

open Lib Lib.Python Lib.Circom

instance : Fact (Nat.Prime fieldModulus) := ⟨Primality.bn254_prime⟩

/-- The scalar field. -/
abbrev Scalar : Type := ZMod fieldModulus

/-- The signals of `ComplianceCollateral`, for a batch of any size. -/
structure CollateralSignals (batchSize : Nat) where
  policyHash : Scalar
  reportingPeriodId : Scalar
  datasetCommitment : Scalar
  marginThreshold : Scalar
  collectedMargin : Fin batchSize → Scalar
  requiredMargin : Fin batchSize → Scalar
  transactionIds : Fin batchSize → Scalar
  salts : Fin batchSize → Scalar
  leafCommitments : Fin batchSize → Scalar
  binderDummy : Scalar

/-- The comparison constraints: `gte[i].out === 1` for every transaction. -/
def CollateralSignals.Comparisons {batchSize : Nat} (s : CollateralSignals batchSize) : Prop :=
  ∀ i, GreaterEqThan 64 (s.collectedMargin i) (s.requiredMargin i) 1

/-- All constraints of `ComplianceCollateral`. -/
structure ComplianceCollateral (Poseidon : List Scalar → Scalar) {batchSize : Nat}
    (s : CollateralSignals batchSize) : Prop where
  gte : s.Comparisons
  leafHashers : ∀ i, s.leafCommitments i =
    Poseidon [s.transactionIds i, s.collectedMargin i, s.requiredMargin i, s.salts i]
  batchHasher : Poseidon (List.ofFn s.leafCommitments) = s.datasetCommitment
  claimBinder : s.binderDummy =
    Poseidon [s.policyHash, s.reportingPeriodId, s.datasetCommitment, s.marginThreshold] ^ 2

/-- The constraints of `MarginCompliance`. -/
structure MarginCompliance (Poseidon : List Scalar → Scalar)
    (collectedMargin clientAccountId salt requiredMargin transactionIdField commitment : Scalar) :
    Prop where
  gte : GreaterEqThan 64 collectedMargin requiredMargin 1
  hasher : Poseidon [clientAccountId, transactionIdField, salt] = commitment

/-- The field element that the text of an input denotes. -/
def signalOf (text : String) : Option Scalar := (int? 10 text).map fun n : Int => (n : Scalar)

/-- The comparison constraints hold of the margins that the input file gives. -/
def InputsCompare (w : ComplianceCollateralWitness) : Prop :=
  ∀ row ∈ w.rows, ∃ collected required, signalOf row.collectedMargin = some collected ∧
    signalOf row.requiredMargin = some required ∧ GreaterEqThan 64 collected required 1

end RegEngine.Zkp
