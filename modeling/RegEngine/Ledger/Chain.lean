import RegEngine.Lib.Calendar
import RegEngine.Lib.Json
import RegEngine.Lib.Python
import RegEngine.Lib.Sha256

/-!
# The audit ledger: events, rows, hashes, append

`app/ledger/models.py`, `app/ledger/hash_chain.py` and `app/ledger/service.py`. A
`ComplianceEvaluationEvent` is what `append_entry` accepts; a `LedgerRow` is one row of
`compliance_audit_ledger`. The ten hashed columns are `Payload`.

The reference columns of a row (`circular_ref_id` and the like) are not written by `append_entry`
and not read by the chain; they are left out.
-/

namespace RegEngine.Ledger

open Lib Lib.Calendar Lib.Python Lib.Sha256

/-- `EvaluationOutcome`. -/
inductive EvaluationOutcome where
  | pass
  | fail
  | hitlReview
  deriving DecidableEq, Repr

def EvaluationOutcome.value : EvaluationOutcome → String
  | pass => "PASS"
  | fail => "FAIL"
  | hitlReview => "HITL_REVIEW"

/-- The columns named by `_PAYLOAD_FIELDS`. -/
structure Payload where
  brokerId : String
  transactionId : String
  evaluatedAt : DateTime
  circularId : String
  clauseHash : String
  sectionReference : String
  ruleId : String
  evaluationResult : EvaluationOutcome
  hitlReviewId : Option String
  details : Json

/-- `ComplianceEvaluationEvent`: a payload that passed `_hitl_review_id_consistency`. -/
structure ComplianceEvaluationEvent extends Payload where
  hitlReviewIdConsistency : evaluationResult = .hitlReview ↔ truthy hitlReviewId = true

/-- A `pass` without a review is consistent. -/
theorem pass_iff_no_review : EvaluationOutcome.pass = .hitlReview ↔ truthy none = true := by
  simp [truthy]

/-- The messages of `_hitl_review_id_consistency`. -/
inductive ValidationError where
  | hitlReviewIdRequired
  | hitlReviewIdMustBeOmitted
  deriving DecidableEq, Repr

def ValidationError.message : ValidationError → String
  | hitlReviewIdRequired => "hitl_review_id is required when evaluation_result is HITL_REVIEW."
  | hitlReviewIdMustBeOmitted =>
    "hitl_review_id must be omitted unless evaluation_result is HITL_REVIEW."

/-- Building the event: the model validator accepts the payload or raises. -/
def ComplianceEvaluationEvent.validate (p : Payload) :
    Except ValidationError ComplianceEvaluationEvent :=
  if h : p.evaluationResult = .hitlReview then
    if ht : truthy p.hitlReviewId = true then .ok { p with hitlReviewIdConsistency := by simp [h, ht] }
    else .error .hitlReviewIdRequired
  else
    if ht : truthy p.hitlReviewId = true then .error .hitlReviewIdMustBeOmitted
    else .ok { p with hitlReviewIdConsistency := by simp [h, ht] }

/-- A row of `compliance_audit_ledger`. -/
structure LedgerRow extends Payload where
  id : Nat
  sequenceNum : Int
  payloadDigest : String
  previousHash : String
  currentHash : String
  createdAt : DateTime

/-! ## `hash_chain.py` -/

/-- `GENESIS_HASH`. -/
def genesisHash : String := String.ofList (List.replicate 64 '0')

/-- An optional text as JSON. -/
def optStr (s : Option String) : Json :=
  match s with
  | some t => .str t
  | none => .null

/-- The dictionary `canonical_payload` serialises; `_iso` turns `evaluated_at` into text and leaves
the other values. -/
def payloadJson (p : Payload) : Json :=
  .obj [("broker_id", .str p.brokerId),
    ("transaction_id", .str p.transactionId),
    ("evaluated_at", .str p.evaluatedAt.isoformat),
    ("circular_id", .str p.circularId),
    ("clause_hash", .str p.clauseHash),
    ("section_reference", .str p.sectionReference),
    ("rule_id", .str p.ruleId),
    ("evaluation_result", .str p.evaluationResult.value),
    ("hitl_review_id", optStr p.hitlReviewId),
    ("details", p.details)]

def canonicalPayload (p : Payload) : String := (payloadJson p).dumps

def computePayloadDigest (p : Payload) : String := hexdigest (canonicalPayload p)

/-- The text `compute_block_hash` hashes. -/
def blockMaterial (previousHash payloadDigest : String) (sequenceNum : Int) (evaluatedAt : DateTime) :
    String :=
  previousHash ++ "|" ++ payloadDigest ++ "|" ++ toString sequenceNum ++ "|" ++ evaluatedAt.isoformat

def computeBlockHash (previousHash payloadDigest : String) (sequenceNum : Int)
    (evaluatedAt : DateTime) : String :=
  hexdigest (blockMaterial previousHash payloadDigest sequenceNum evaluatedAt)

/-! ## `service.py` -/

/-- What the database adds to a row: its serial `id` and the insertion time. -/
structure Stamp where
  id : Nat
  createdAt : DateTime

/-- `_last_entry`: number and hash of the row with the highest `sequence_num`. -/
def lastEntry (rows : List LedgerRow) : Option (Int × String) :=
  ((rows.insertionSort fun r s => s.sequenceNum ≤ r.sequenceNum).head?).map
    fun r => (r.sequenceNum, r.currentHash)

/-- The row `_append_entry` inserts after reading `last`. -/
def nextRow (last : Option (Int × String)) (event : ComplianceEvaluationEvent) (stamp : Stamp) :
    LedgerRow :=
  let sequenceNum := match last with
    | some l => l.1 + 1
    | none => 0
  let previousHash := match last with
    | some l => l.2
    | none => genesisHash
  let payloadDigest := computePayloadDigest event.toPayload
  { event.toPayload with
    id := stamp.id
    sequenceNum := sequenceNum
    payloadDigest := payloadDigest
    previousHash := previousHash
    currentHash := computeBlockHash previousHash payloadDigest sequenceNum event.evaluatedAt
    createdAt := stamp.createdAt }

/-- `append_entry` run alone: the stored rows after it. -/
def appendEntry (rows : List LedgerRow) (event : ComplianceEvaluationEvent) (stamp : Stamp) :
    List LedgerRow :=
  rows ++ [nextRow (lastEntry rows) event stamp]

/-- The ledger left by a sequence of `append_entry` calls on an empty table. -/
def ledgerOf (calls : List (ComplianceEvaluationEvent × Stamp)) : List LedgerRow :=
  calls.foldl (fun rows c => appendEntry rows c.1 c.2) []

end RegEngine.Ledger

/-!
## `verify_chain`

`app/ledger/verifier.py`: the rows of a time window, in order of `sequence_num`, anchored at the row
before the first of them and checked one by one. The time of the check (`verified_at`) is left out.
-/

namespace RegEngine.Ledger

open Lib Lib.Calendar

structure ChainBreak where
  sequenceNum : Int
  reason : String
  expected : String
  actual : String
  deriving DecidableEq

structure ChainVerificationResult where
  valid : Bool
  entriesChecked : Nat
  rangeStartSequence : Option Int := none
  rangeEndSequence : Option Int := none
  breaks : List ChainBreak := []
  deriving DecidableEq

/-- `evaluated_at` lies in `[start_time, end_time]`; an absent bound does not restrict. -/
def inWindow (startTime endTime : Option DateTime) (t : DateTime) : Bool :=
  (match startTime with
    | some s => s.instant ≤ t.instant
    | none => true) &&
  match endTime with
  | some e => t.instant ≤ e.instant
  | none => true

/-- The rows the query returns. -/
def selectRows (rows : List LedgerRow) (startTime endTime : Option DateTime) : List LedgerRow :=
  (rows.filter fun r => inWindow startTime endTime r.evaluatedAt).insertionSort
    fun r s => r.sequenceNum ≤ s.sequenceNum

/-- The breaks found at one row, given the hash and number of the row before it. -/
def rowBreaks (previousHash : String) (previousSequence : Int) (row : LedgerRow) : List ChainBreak :=
  let recomputedDigest := computePayloadDigest row.toPayload
  let recomputedBlockHash :=
    computeBlockHash row.previousHash row.payloadDigest row.sequenceNum row.evaluatedAt
  (if row.sequenceNum ≠ previousSequence + 1 then
    [⟨row.sequenceNum, "gap in sequence_num — a row is missing between this and the prior one",
      toString (previousSequence + 1), toString row.sequenceNum⟩] else []) ++
  (if row.previousHash ≠ previousHash then
    [⟨row.sequenceNum, "previous_hash does not match the prior row's current_hash",
      previousHash, row.previousHash⟩] else []) ++
  (if recomputedDigest ≠ row.payloadDigest then
    [⟨row.sequenceNum,
      "payload_digest does not match recomputed hash of stored business fields — row content was altered",
      recomputedDigest, row.payloadDigest⟩] else []) ++
  (if recomputedBlockHash ≠ row.currentHash then
    [⟨row.sequenceNum, "current_hash does not match recomputed block hash",
      recomputedBlockHash, row.currentHash⟩] else [])

/-- The loop over the selected rows. -/
def checkRows : String → Int → List LedgerRow → List ChainBreak
  | _, _, [] => []
  | previousHash, previousSequence, row :: rows =>
    rowBreaks previousHash previousSequence row ++ checkRows row.currentHash row.sequenceNum rows

/-- The hash the first selected row must point back to; `none` when the row before it is missing. -/
def anchorHash (rows : List LedgerRow) (firstSequence : Int) : Option String :=
  if 0 < firstSequence then
    (rows.find? fun r => r.sequenceNum = firstSequence - 1).map (·.currentHash)
  else some genesisHash

def verifyChain (rows : List LedgerRow) (startTime endTime : Option DateTime) :
    ChainVerificationResult :=
  match selectRows rows startTime endTime with
  | [] => { valid := true, entriesChecked := 0 }
  | first :: rest =>
    let selected := first :: rest
    let last := (first :: rest).getLast (List.cons_ne_nil _ _)
    match anchorHash rows first.sequenceNum with
    | none =>
      { valid := false
        entriesChecked := selected.length
        rangeStartSequence := some first.sequenceNum
        rangeEndSequence := some last.sequenceNum
        breaks := [⟨first.sequenceNum,
          "predecessor row (sequence_num - 1) is missing; chain cannot be anchored into history",
          "a row with the previous sequence_num", "no row found"⟩] }
    | some anchor =>
      let breaks := checkRows anchor (first.sequenceNum - 1) selected
      { valid := breaks.isEmpty
        entriesChecked := selected.length
        rangeStartSequence := some first.sequenceNum
        rangeEndSequence := some last.sequenceNum
        breaks := breaks }

end RegEngine.Ledger
