import Mathlib.Logic.Relation
import RegEngine.Ledger.Chain
import RegEngine.Zkp.Groth16Verifier

/-!
# Verify and log

`app/zkp/verification_service.py`: a submitted proof is verified and, on success only, a PASS row with
its hash is appended to the ledger. `collateralReason` is the part of the collateral path before the
await of the append, and `collateralAppended` the part after it.
-/

namespace RegEngine.Zkp

open Lib Lib.Python Lib.Calendar Ledger

/-- What one append meets: the time of the event, and the stamp the database gives the row; without
one the insert raises. -/
structure AppendCall where
  evaluatedAt : DateTime
  stamp : Option Stamp

/-- The event of a verified proof. -/
def passEvent (brokerId transactionId circularId clauseHash sectionReference ruleId : String)
    (details : Json) (evaluatedAt : DateTime) : ComplianceEvaluationEvent where
  brokerId := brokerId
  transactionId := transactionId
  evaluatedAt := evaluatedAt
  circularId := circularId
  clauseHash := clauseHash
  sectionReference := sectionReference
  ruleId := ruleId
  evaluationResult := .pass
  hitlReviewId := none
  details := details
  hitlReviewIdConsistency := pass_iff_no_review

/-- `ledger.append_entry(event)`: the number of the new row and the rows after it. -/
def appendEvent (rows : List LedgerRow) (call : AppendCall) (event : ComplianceEvaluationEvent) :
    Except ZkpError (Int × List LedgerRow) :=
  match call.stamp with
  | none => .error .ledger
  | some stamp => .ok ((nextRow (lastEntry rows) event stamp).sequenceNum, appendEntry rows event stamp)

section
variable {GT : Type} [DecidableEq GT] (E : Bn128 GT) (R : KeyRegistry)

/-- The key lookup and the verification that both paths make: the reason of a refusal, `none` when the
proof verifies, or an error that nothing catches. -/
def proofReason (circuitId : String) (proof : Groth16Proof) (publicSignals : List String) :
    Except ZkpError (Option String) :=
  match getVerificationKey R circuitId with
  | .error (.unknownCircuit _) =>
    .ok (some s!"Unknown or unconfigured circuit_id '{circuitId}'.")
  | .error e => .error e
  | .ok vk =>
    match verifyGroth16Proof E vk proof publicSignals with
    | .error (.proofVerification message) => .ok (some message)
    | .error e => .error e
    | .ok false =>
      .ok (some "Proof failed the Groth16 pairing equation for this verification key.")
    | .ok true => .ok none

/-! ## `verify_and_log_proof` -/

def marginDetails (submission : MarginComplianceProofSubmission) (proofHash : String) : Json :=
  .obj [("zk_proof", .obj [("circuit_id", .str submission.circuitId),
    ("proof_hash", .str proofHash),
    ("public_signals", texts submission.publicSignals)])]

def marginEvent (submission : MarginComplianceProofSubmission) (proofHash : String)
    (evaluatedAt : DateTime) : ComplianceEvaluationEvent :=
  passEvent submission.brokerId submission.transactionId submission.circularId submission.clauseHash
    submission.sectionReference submission.ruleId (marginDetails submission proofHash) evaluatedAt

/-- `verify_and_log_proof`: the answer and the rows of the ledger. -/
def verifyAndLogProof (rows : List LedgerRow) (call : AppendCall)
    (submission : MarginComplianceProofSubmission) :
    Except ZkpError (ZKProofVerificationResult × List LedgerRow) := do
  let proofHash := computeProofHash submission.circuitId submission.proof submission.publicSignals
  let reason ← proofReason E R submission.circuitId submission.proof submission.publicSignals
  if reason.isSome then
    return ({
      verified := false
      circuitId := submission.circuitId
      proofHash := proofHash
      ledgerSequenceNum := none
      reason := reason }, rows)
  let entry ← appendEvent rows call (marginEvent submission proofHash call.evaluatedAt)
  return ({
    verified := true
    circuitId := submission.circuitId
    proofHash := proofHash
    ledgerSequenceNum := some entry.1
    reason := none }, entry.2)

/-! ## `verify_and_log_collateral_proof` -/

/-- `str(string_to_field_element(val))`. -/
def fieldText (val : String) : Except ZkpError String :=
  match stringToFieldElement val with
  | .ok n => .ok (toString n)
  | .error _ => .error .valueError

def ComplianceCollateralProofSubmission.proofHash (s : ComplianceCollateralProofSubmission) : String :=
  computeProofHash s.circuitId s.proof s.publicSignals

/-- The texts that the public signals are compared with, in their order. -/
def expectedSignals (s : ComplianceCollateralProofSubmission) : Except ZkpError (List String) := do
  let policy ← fieldText s.policyHash
  let period ← fieldText s.reportingPeriodId
  let commitment ← fieldText s.datasetCommitment
  let threshold ← fieldText s.marginThreshold
  return [policy, period, commitment, threshold]

/-- The names of the public signals. -/
def signalNames : List String :=
  ["policy_hash", "reporting_period_id", "dataset_commitment", "margin_threshold"]

/-- The reason for the first public signal that differs from what is expected. -/
def mismatch (publicSignals expected : List String) : Option String :=
  (((publicSignals.zip expected).zip signalNames).find? fun x => x.1.1 ≠ x.1.2).map fun x =>
    s!"Public signal {x.2} does not match submitted {x.2}."

/-- The number and the texts of the public signals: the reason of a refusal, if there is one. -/
def consistencyReason (s : ComplianceCollateralProofSubmission) : Except ZkpError (Option String) :=
  if s.publicSignals.length ≠ 4 then
    .ok (some ("Expected 4 public signals [policy_hash, reporting_period_id, dataset_commitment, " ++
      s!"margin_threshold], got {s.publicSignals.length}."))
  else (expectedSignals s).map (mismatch s.publicSignals)

/-- Everything before the append; `seen` is `_SEEN_PROOF_HASHES`. -/
def collateralReason (seen : List String) (s : ComplianceCollateralProofSubmission) :
    Except ZkpError (Option String) :=
  if s.proofHash ∈ seen then
    .ok (some "Proof replay detected: this exact proof has already been verified and logged.")
  else do
    match ← consistencyReason s with
    | some reason => return some reason
    | none => proofReason E R s.circuitId s.proof s.publicSignals

/-- The answer, whose public part is copied from the submission. -/
def collateralResult (s : ComplianceCollateralProofSubmission) (ledgerSequenceNum : Option Int)
    (reason : Option String) : ComplianceCollateralVerificationResult where
  verified := reason.isNone
  circuitId := s.circuitId
  proofHash := s.proofHash
  policyId := s.policyId
  policyHash := s.policyHash
  reportingPeriodId := s.reportingPeriodId
  datasetCommitment := s.datasetCommitment
  marginThreshold := s.marginThreshold
  ledgerSequenceNum := ledgerSequenceNum
  advisoryNotice := advisoryComplianceNotice
  reason := reason

def collateralDetails (s : ComplianceCollateralProofSubmission) : Json :=
  .obj [("compliance_collateral", .obj [("circuit_id", .str s.circuitId),
    ("proof_hash", .str s.proofHash),
    ("policy_id", .str s.policyId),
    ("policy_hash", .str s.policyHash),
    ("reporting_period_id", .str s.reportingPeriodId),
    ("dataset_commitment", .str s.datasetCommitment),
    ("margin_threshold", .str s.marginThreshold),
    ("num_transactions", .int s.numTransactions),
    ("public_signals", texts s.publicSignals)])]

def collateralEvent (s : ComplianceCollateralProofSubmission) (evaluatedAt : DateTime) :
    ComplianceEvaluationEvent :=
  passEvent s.brokerId
    ("collateral_" ++ s.reportingPeriodId ++ "_" ++ String.ofList (s.datasetCommitment.toList.take 16))
    s.circularId (orText s.clauseHash (String.ofList (List.replicate 64 '0'))) s.sectionReference
    s.ruleId (collateralDetails s) evaluatedAt

/-- From the append on: the answer, the rows and the proof hashes seen. -/
def collateralAppended (rows : List LedgerRow) (seen : List String) (call : AppendCall)
    (s : ComplianceCollateralProofSubmission) :
    Except ZkpError (ComplianceCollateralVerificationResult × List LedgerRow × List String) := do
  let entry ← appendEvent rows call (collateralEvent s call.evaluatedAt)
  return (collateralResult s (some entry.1) none, entry.2, s.proofHash :: seen)

/-- `verify_and_log_collateral_proof` without an interruption. -/
def verifyAndLogCollateralProof (rows : List LedgerRow) (seen : List String) (call : AppendCall)
    (s : ComplianceCollateralProofSubmission) :
    Except ZkpError (ComplianceCollateralVerificationResult × List LedgerRow × List String) := do
  match ← collateralReason E R seen s with
  | some reason => return (collateralResult s none (some reason), rows, seen)
  | none => collateralAppended rows seen call s

end

end RegEngine.Zkp

/-!
## Collateral calls in one process

Any number of `verify_and_log_collateral_proof` calls of one event loop. A call runs without an
interruption up to the await of `append_entry` and again from there on; the insert of its row, and the
calls of others, come in between. It may raise at the await, by the insert or by a cancellation.
-/

namespace RegEngine.Zkp

open Ledger

variable {GT ι : Type} [DecidableEq GT] [DecidableEq ι]

/-- Where a call is. -/
inductive CollateralPhase where
  | idle
  | refused (reason : String)
  | appending
  | inserted (sequenceNum : Int)
  | verified (sequenceNum : Int)
  | raised
  deriving DecidableEq

/-- The call has got past the checks and has not raised. -/
def CollateralPhase.passed : CollateralPhase → Prop
  | appending | inserted _ | verified _ => True
  | _ => False

/-- `_SEEN_PROOF_HASHES`, the ledger, and each call's phase. -/
structure CollateralState (ι : Type) where
  seen : List String
  rows : List LedgerRow
  phase : ι → CollateralPhase

def CollateralState.enter (s : CollateralState ι) (i : ι) (p : CollateralPhase) : CollateralState ι :=
  { s with phase := Function.update s.phase i p }

/-- No call has begun and no proof has been seen. -/
def CollateralState.initial (rows : List LedgerRow) : CollateralState ι := ⟨[], rows, fun _ => .idle⟩

/-- What the checks of a call leave it in. -/
def checkedPhase : Except ZkpError (Option String) → CollateralPhase
  | .ok none => .appending
  | .ok (some reason) => .refused reason
  | .error _ => .raised

/-- One step of one call; `Ok` is what is asked of the state in which a call begins. -/
inductive CollateralStep (E : Bn128 GT) (R : KeyRegistry)
    (submission : ι → ComplianceCollateralProofSubmission) (Ok : CollateralState ι → ι → Prop) :
    CollateralState ι → CollateralState ι → Prop where
  | check {s : CollateralState ι} (i : ι) : s.phase i = .idle → Ok s i →
      CollateralStep E R submission Ok s
        (s.enter i (checkedPhase (collateralReason E R s.seen (submission i))))
  | insert {s : CollateralState ι} (i : ι) (call : AppendCall) {sequenceNum : Int}
      {rows : List LedgerRow} : s.phase i = .appending →
      appendEvent s.rows call (collateralEvent (submission i) call.evaluatedAt) =
        .ok (sequenceNum, rows) →
      CollateralStep E R submission Ok s ({ s with rows := rows }.enter i (.inserted sequenceNum))
  | answer {s : CollateralState ι} (i : ι) {sequenceNum : Int} : s.phase i = .inserted sequenceNum →
      CollateralStep E R submission Ok s
        ({ s with seen := (submission i).proofHash :: s.seen }.enter i (.verified sequenceNum))
  | raise {s : CollateralState ι} (i : ι) :
      s.phase i = .appending ∨ (∃ n, s.phase i = .inserted n) →
      CollateralStep E R submission Ok s (s.enter i .raised)

end RegEngine.Zkp
