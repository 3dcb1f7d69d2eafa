import RegEngine.Hitl.Models
import RegEngine.Ledger.Integration

/-!
# `verify_decision_provenance`

`app/services/provenance.py`: the links of a recorded decision, recomputed from the rows of the
database. The tables are the lists of their rows, with the columns that are read here. `NFKC` of
`unicodedata` is a parameter. Texts taken from the `details` of a row stand in a break as the JSON
value found there; the custody chain that is attached to the result is left out.

The row's `hitl_review_ref_id` is never written by `append_entry`, so the review is looked up by
`hitl_review_id`.
-/

namespace RegEngine.Ledger

open Lib Lib.Calendar Lib.Python Lib.Sha256
open Hitl (ReviewStatus)

namespace Provenance

structure CircularRow where
  id : Nat
  circularNumber : String
  sourceDocumentSha256 : Option String
  rawTextDigest : String

structure ClauseRow where
  id : Nat
  circularId : Nat
  clauseNumber : Option String
  text : String
  sha256 : String

structure RuleRow where
  id : Nat
  clauseId : Nat
  ruleId : String
  ruleVersion : Int
  regoPolicy : Option String
  provenanceMetadata : Option Json

structure ReviewRow where
  reviewId : String
  clauseId : Nat
  compiledRuleId : Option Nat
  status : ReviewStatus
  complianceOfficerId : Option String
  resolvedAt : Option DateTime
  approvedRuleVersion : Option Int

structure Session where
  ledger : List LedgerRow
  circulars : List CircularRow
  clauses : List ClauseRow
  rules : List RuleRow
  reviews : List ReviewRow

/-- What the caller has at hand to check against. -/
structure Evidence where
  rawPdfBytes : Option (List UInt8) := none
  rawExtractedText : Option String := none
  clauseText : Option String := none

structure ProvenanceBreak where
  stageIndex : Nat
  stageName : String
  reason : String
  expected : Json
  actual : Json

structure ProvenanceVerificationResult where
  valid : Bool
  transactionId : String
  ruleId : String
  ruleVersion : Json
  breaks : List ProvenanceBreak

/-! ## `app/parsing/hashing.py` -/

def sha256OfBytes (data : List UInt8) : String :=
  String.ofList ((sha256 (data.map UInt8.toNat)).words.flatMap hexWord)

/-- `s.split()`. -/
def splitSpaces (s : List Char) : List String :=
  ((s.splitBy fun a b => isSpace a == isSpace b).filter fun w => !w.all isSpace).map String.ofList

/-- `_canonicalize`. -/
def canonicalize (nfkc : String → String) (text : String) : String :=
  " ".intercalate (splitSpaces (nfkc text).toList)

def sha256OfExtractedText (nfkc : String → String) (text : String) : String :=
  hexdigest (canonicalize nfkc text)

def sha256OfClause (nfkc : String → String) (circularNumber : String) (clauseNumber : Option String)
    (text : String) : String :=
  hexdigest ("\x1f".intercalate [circularNumber, orText clauseNumber "", canonicalize nfkc text])

/-! ## The texts of values -/

mutual

/-- `repr` of a JSON value. -/
def pyRepr : Json → String
  | .null => "None"
  | .bool true => "True"
  | .bool false => "False"
  | .int n => toString n
  | .float x => x.repr
  | .str s => reprText s
  | .arr l => "[" ++ ", ".intercalate (pyReprItems l) ++ "]"
  | .obj fields => "\x7b" ++ ", ".intercalate (pyReprFields fields) ++ "\x7d"

def pyReprItems : List Json → List String
  | [] => []
  | j :: l => pyRepr j :: pyReprItems l

def pyReprFields : List (String × Json) → List String
  | [] => []
  | (k, j) :: l => (reprText k ++ ": " ++ pyRepr j) :: pyReprFields l

end

/-- `str` of a JSON value. -/
def pyStr : Json → String
  | .str s => s
  | j => pyRepr j

/-! ## What is read -/

/-- The row of the transaction with the highest number, or the one with the given number. -/
def Session.ledgerRow (S : Session) (transactionId : String) (sequenceNum : Option Int) :
    Option LedgerRow :=
  let rows := S.ledger.filter fun r =>
    r.transactionId = transactionId ∧ ∀ n ∈ sequenceNum, r.sequenceNum = n
  (rows.insertionSort fun r s => s.sequenceNum ≤ r.sequenceNum).head?

/-- `historical_rule_version`. -/
def historicalRuleVersion (row : LedgerRow) : Json := (row.details.get? "rule_version").getD (.int 1)

def Session.rule (S : Session) (row : LedgerRow) : Option RuleRow :=
  S.rules.find? fun r => r.ruleId = row.ruleId && (Json.int r.ruleVersion).pyEq (historicalRuleVersion row)

/-- `resolved_at DESC NULLS LAST`. -/
def resolvedLater (a b : ReviewRow) : Prop :=
  match a.resolvedAt, b.resolvedAt with
  | some x, some y => y.instant ≤ x.instant
  | none, some _ => False
  | _, none => True

instance : DecidableRel resolvedLater := fun a b => by
  unfold resolvedLater
  split <;> infer_instance

def Session.review (S : Session) (row : LedgerRow) (rule : RuleRow) (clause : ClauseRow) :
    Option ReviewRow :=
  let byId := if truthy row.hitlReviewId then
    S.reviews.find? fun r => some r.reviewId = row.hitlReviewId else none
  let linked := S.reviews.filter fun r => r.compiledRuleId = some rule.id ||
    (r.clauseId = clause.id &&
      r.approvedRuleVersion.all fun v => (Json.int v).pyEq (historicalRuleVersion row))
  byId.or (linked.insertionSort resolvedLater).head?

/-! ## The stages -/

/-- `details.get(key)`. -/
def detail (row : LedgerRow) (key : String) : Json := (row.details.get? key).getD .null

/-- A break, if the check failed. -/
def breakIf (failed : Bool) (stageIndex : Nat) (stageName reason : String) (expected actual : Json) :
    List ProvenanceBreak :=
  if failed then [⟨stageIndex, stageName, reason, expected, actual⟩] else []

def verifyOriginalPdf (evidence : Evidence) (circular : CircularRow) : List ProvenanceBreak :=
  match evidence.rawPdfBytes with
  | none => []
  | some bytes => breakIf (some (sha256OfBytes bytes) ≠ circular.sourceDocumentSha256) 1 "Original PDF"
      "Recomputed PDF bytes SHA-256 does not match stored circular digest"
      (.str (orText circular.sourceDocumentSha256 "")) (.str (sha256OfBytes bytes))

def verifyExtractedText (nfkc : String → String) (evidence : Evidence) (circular : CircularRow) :
    List ProvenanceBreak :=
  match evidence.rawExtractedText with
  | none => []
  | some text => breakIf (sha256OfExtractedText nfkc text ≠ circular.rawTextDigest) 2 "Extracted Text"
      "Recomputed extracted text SHA-256 does not match stored raw_text_digest"
      (.str circular.rawTextDigest) (.str (sha256OfExtractedText nfkc text))

def verifyClause (nfkc : String → String) (evidence : Evidence) (row : LedgerRow)
    (circular : CircularRow) (clause : ClauseRow) : List ProvenanceBreak :=
  let computed := sha256OfClause nfkc circular.circularNumber clause.clauseNumber
    (evidence.clauseText.getD clause.text)
  breakIf (computed ≠ clause.sha256) 3 "Clause"
    "Recomputed clause SHA-256 does not match stored clause digest"
    (.str clause.sha256) (.str computed) ++
  breakIf (row.clauseHash ≠ clause.sha256) 3 "Clause"
    "Ledger clause_hash does not match stored clause SHA-256"
    (.str clause.sha256) (.str row.clauseHash)

def verifyCanonicalFacts (row : LedgerRow) (rule : RuleRow) : List ProvenanceBreak :=
  let stored := detail row "canonical_facts_digest"
  let ofRule := ((rule.provenanceMetadata.getD .null).get? "canonical_facts_digest").getD .null
  breakIf (stored.truthy && ofRule.truthy && !stored.pyEq ofRule) 4 "Canonical Facts"
    "Ledger canonical_facts_digest does not match compiled rule canonical facts digest" ofRule stored

def verifyPolicy (row : LedgerRow) (rule : RuleRow) : List ProvenanceBreak :=
  let stored := detail row "policy_sha256"
  let computed := Json.str (hexdigest (rule.regoPolicy.getD ""))
  breakIf (truthy rule.regoPolicy && stored.truthy && !computed.pyEq stored) 5
    "Compiled Rule Version + Policy Hash"
    "Recomputed policy SHA-256 does not match policy_sha256 in ledger details" stored computed

def verifyReview (row : LedgerRow) : Option ReviewRow → List ProvenanceBreak
  | none => []
  | some review =>
    let version := historicalRuleVersion row
    breakIf (review.status ≠ .resolved) 6 "HITL Approval"
      ("HITL review " ++ review.reviewId ++ " status is " ++ review.status.value ++ ", not RESOLVED")
      (.str "RESOLVED") (.str review.status.value) ++
    breakIf (review.approvedRuleVersion.any fun v => !(Json.int v).pyEq version) 6 "HITL Approval"
      "HITL review approved a different rule version than evaluated"
      (.str (pyStr version)) (.str (pyStr ((review.approvedRuleVersion.map .int).getD .null))) ++
    breakIf (!truthy review.complianceOfficerId) 7 "Approving Principal"
      "HITL review has no approving compliance officer recorded"
      (.str "A non-null compliance_officer_id") (.str "None")

/-- The transaction as it is rebuilt from the row. -/
def txCanonical (row : LedgerRow) : Json :=
  .obj [("broker_id", .str row.brokerId),
    ("entity_type", (row.details.get? "entity_type").getD (.str "")),
    ("facts", (row.details.get? "facts").getD (.obj [])),
    ("transaction_id", .str row.transactionId)]

def computedTxDigest (row : LedgerRow) : String := hexdigest (txCanonical row).dumps

def verifyTransactionInput (row : LedgerRow) : List ProvenanceBreak :=
  let stored := detail row "transaction_input_digest"
  breakIf (stored.truthy && (row.details.get? "facts").isSome &&
      !(Json.str (computedTxDigest row)).pyEq stored) 8 "Transaction Input Digest"
    "Recomputed transaction input digest does not match stored transaction_input_digest"
    stored (.str (computedTxDigest row))

/-- The evidence manifest as it is rebuilt from the row. -/
def rebuiltEvidence (row : LedgerRow) : Json :=
  .obj [("transaction_id", .str row.transactionId),
    ("transaction_input_digest", detail row "transaction_input_digest"),
    ("rule_id", .str row.ruleId),
    ("rule_version", historicalRuleVersion row),
    ("policy_sha256", detail row "policy_sha256"),
    ("package", (row.details.get? "package").getD (.str "")),
    ("circular_id", .str row.circularId),
    ("section_reference", .str row.sectionReference),
    ("clause_sha256", .str row.clauseHash),
    ("source_document_sha256", detail row "source_document_sha256"),
    ("extracted_text_sha256", detail row "extracted_text_sha256"),
    ("canonical_facts_digest", detail row "canonical_facts_digest"),
    ("evaluation_result", .str row.evaluationResult.value),
    ("violations", (row.details.get? "violations").getD (.arr [])),
    ("decision", (row.details.get? "transaction_decision").getD (.str "")),
    ("hitl_case_id", optStr row.hitlReviewId)]

def computedEvidenceDigest (row : LedgerRow) : String := computeEvidenceDigest (rebuiltEvidence row)

def verifyEvidence (row : LedgerRow) : List ProvenanceBreak :=
  let stored := detail row "evidence_digest"
  breakIf (stored.truthy && !(Json.str (computedEvidenceDigest row)).pyEq stored) 10 "Evidence Digest"
    "Recomputed evidence digest does not match evidence_digest in ledger details"
    stored (.str (computedEvidenceDigest row))

def verifyBlock (row : LedgerRow) : List ProvenanceBreak :=
  let digest := computePayloadDigest row.toPayload
  let hash := computeBlockHash row.previousHash row.payloadDigest row.sequenceNum row.evaluatedAt
  breakIf (digest ≠ row.payloadDigest) 11 "Ledger Hash Chain"
    "Recomputed ledger payload_digest does not match stored payload_digest"
    (.str row.payloadDigest) (.str digest) ++
  breakIf (hash ≠ row.currentHash) 11 "Ledger Hash Chain"
    "Recomputed block current_hash does not match stored current_hash"
    (.str row.currentHash) (.str hash)

/-- The breaks of a row whose rule, clause and circular were found. -/
def stageBreaks (nfkc : String → String) (evidence : Evidence) (row : LedgerRow) (rule : RuleRow)
    (clause : ClauseRow) (circular : CircularRow) (review : Option ReviewRow) :
    List ProvenanceBreak :=
  verifyOriginalPdf evidence circular ++ verifyExtractedText nfkc evidence circular ++
    verifyClause nfkc evidence row circular clause ++ verifyCanonicalFacts row rule ++
    verifyPolicy row rule ++ verifyReview row review ++ verifyTransactionInput row ++
    verifyEvidence row ++ verifyBlock row

/-- The breaks of a row: a missing parent ends the verification. -/
def rowBreaks (nfkc : String → String) (S : Session) (evidence : Evidence) (row : LedgerRow) :
    List ProvenanceBreak :=
  let version := pyStr (historicalRuleVersion row)
  match S.rule row with
  | none => breakIf true 5 "Compiled Rule Version + Policy Hash"
      ("CompiledRule " ++ row.ruleId ++ " version " ++ version ++ " not found in database")
      (.str ("CompiledRule with rule_version=" ++ version)) (.str "None")
  | some rule =>
    match S.clauses.find? (·.id = rule.clauseId) with
    | none => breakIf true 3 "Clause" ("Parent Clause id=" ++ toString rule.clauseId ++ " not found")
        (.str "Clause row") (.str "None")
    | some clause =>
      match S.circulars.find? (·.id = clause.circularId) with
      | none => breakIf true 1 "Original PDF"
          ("Parent Circular id=" ++ toString clause.circularId ++ " not found")
          (.str "Circular row") (.str "None")
      | some circular =>
        stageBreaks nfkc evidence row rule clause circular (S.review row rule clause)

def verifyDecisionProvenance (nfkc : String → String) (S : Session) (transactionId : String)
    (evidence : Evidence) (sequenceNum : Option Int) : ProvenanceVerificationResult :=
  match S.ledgerRow transactionId sequenceNum with
  | none =>
    { valid := false
      transactionId := transactionId
      ruleId := "unknown"
      ruleVersion := .int 0
      breaks := breakIf true 11 "Ledger Hash Chain" "No ledger entry found for transaction"
        (.str "A persisted ledger row") (.str "None") }
  | some row =>
    let breaks := rowBreaks nfkc S evidence row
    { valid := breaks.isEmpty
      transactionId := transactionId
      ruleId := row.ruleId
      ruleVersion := historicalRuleVersion row
      breaks := breaks }

end Provenance

end RegEngine.Ledger
