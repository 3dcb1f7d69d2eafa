import RegEngine.Execution.Evaluator
import RegEngine.Ledger.Chain

/-!
# From an evaluation to ledger events

`app/ledger/integration.py`: one event for each matched policy, or one for the transaction when no
policy matched. The headlines of `explain_policy_outcome_deterministic` are a parameter (`explain`):
they are texts for the reader of a row and nothing here depends on them.
-/

namespace RegEngine.Ledger

open Lib Lib.Calendar Lib.Python Lib.Sha256 Execution

/-- `_clause_hash`: the part of a rule id before the first colon. -/
def clauseHashOf (ruleId : String) : String :=
  String.ofList (ruleId.toList.takeWhile (· ≠ ':'))

/-- `_outcome_result`. -/
def outcomeResult (outcome : PolicyOutcome) : EvaluationOutcome :=
  match outcome.allow with
  | none => .hitlReview
  | some true => .pass
  | some false => .fail

/-- `_decision_result`. -/
def decisionResult : Decision → EvaluationOutcome
  | .allow => .pass
  | .deny => .fail
  | .flagged => .hitlReview

/-- `_explanation_texts`. -/
def explanationTexts (explain : PolicyOutcome → List String) (outcome : PolicyOutcome) :
    List String :=
  if outcome.violations.isEmpty then [] else explain outcome

def texts (l : List String) : Json := .arr (l.map .str)

def computeTransactionDigest (tx : TransactionPayload) : String :=
  hexdigest (Json.dumps (.obj [("broker_id", .str (orText tx.brokerId "")),
    ("entity_type", .str tx.entityType),
    ("facts", .obj tx.facts),
    ("transaction_id", .str tx.transactionId)]))

def computeEvidenceDigest (evidencePayload : Json) : String := hexdigest evidencePayload.dumps

/-- `result.hitl_case_id` if the row goes to review. -/
def reviewId (result : EvaluationResult) (r : EvaluationOutcome) : Option String :=
  if r = .hitlReview then result.hitlCaseId.map (·.1) else none

/-- The fields of the event for one matched policy. -/
def outcomePayload (explain : PolicyOutcome → List String) (tx : TransactionPayload)
    (result : EvaluationResult) (outcome : PolicyOutcome) : Payload :=
  let txDigest := computeTransactionDigest tx
  let evaluationResult := outcomeResult outcome
  let clauseHash := orText outcome.clauseSha256 (clauseHashOf outcome.ruleId)
  let ruleVersion := orVersion outcome.ruleVersion 1
  let evidencePayload := Json.obj [("transaction_id", .str tx.transactionId),
    ("transaction_input_digest", .str txDigest),
    ("rule_id", .str outcome.ruleId),
    ("rule_version", .int ruleVersion),
    ("policy_sha256", optStr outcome.policySha256),
    ("package", .str outcome.package),
    ("circular_id", .str (orText outcome.circularNumber "unknown")),
    ("section_reference", .str (orText outcome.clauseNumber "unscoped")),
    ("clause_sha256", .str clauseHash),
    ("source_document_sha256", optStr outcome.sourceDocumentSha256),
    ("extracted_text_sha256", optStr outcome.extractedTextSha256),
    ("canonical_facts_digest", optStr outcome.canonicalFactsDigest),
    ("evaluation_result", .str evaluationResult.value),
    ("violations", texts outcome.violations),
    ("decision", .str result.decision.value),
    ("hitl_case_id", optStr (reviewId result evaluationResult))]
  let details := Json.obj [("violations", texts outcome.violations),
    ("package", .str outcome.package),
    ("transaction_decision", .str result.decision.value),
    ("explanation", texts (explanationTexts explain outcome)),
    ("entity_type", .str tx.entityType),
    ("facts", .obj tx.facts),
    ("transaction_input_digest", .str txDigest),
    ("rule_version", .int ruleVersion),
    ("policy_sha256", optStr outcome.policySha256),
    ("canonical_facts_digest", optStr outcome.canonicalFactsDigest),
    ("source_document_sha256", optStr outcome.sourceDocumentSha256),
    ("extracted_text_sha256", optStr outcome.extractedTextSha256),
    ("clause_sha256", .str clauseHash),
    ("evidence_digest", .str (computeEvidenceDigest evidencePayload))]
  { brokerId := orText tx.brokerId "unknown"
    transactionId := tx.transactionId
    evaluatedAt := result.evaluatedAt
    circularId := orText outcome.circularNumber "unknown"
    clauseHash := clauseHash
    sectionReference := orText outcome.clauseNumber "unscoped"
    ruleId := outcome.ruleId
    evaluationResult := evaluationResult
    hitlReviewId := reviewId result evaluationResult
    details := details }

/-- The rule id of a row that stands for a whole transaction. -/
def syntheticRuleId : Decision → String
  | .flagged => "GLOBAL/KILL-SWITCH"
  | .deny => "GLOBAL/DENY"
  | .allow => "GLOBAL/NO-MATCHING-POLICY"

/-- The fields of the event for a transaction without a matched policy. -/
def transactionPayload (tx : TransactionPayload) (result : EvaluationResult) : Payload :=
  let txDigest := computeTransactionDigest tx
  let ruleId := syntheticRuleId result.decision
  let evidencePayload := Json.obj [("transaction_id", .str tx.transactionId),
    ("transaction_input_digest", .str txDigest),
    ("rule_id", .str ruleId),
    ("evaluation_result", .str (decisionResult result.decision).value),
    ("violations", texts result.reasons),
    ("decision", .str result.decision.value),
    ("hitl_case_id", optStr (result.hitlCaseId.map (·.1)))]
  { brokerId := orText tx.brokerId "unknown"
    transactionId := tx.transactionId
    evaluatedAt := result.evaluatedAt
    circularId := "unknown"
    clauseHash := clauseHashOf ruleId
    sectionReference := "unscoped"
    ruleId := ruleId
    evaluationResult := decisionResult result.decision
    hitlReviewId := if result.decision = .flagged then result.hitlCaseId.map (·.1) else none
    details := .obj [("decision", .str result.decision.value),
      ("reasons", texts result.reasons),
      ("transaction_input_digest", .str txDigest),
      ("evidence_digest", .str (computeEvidenceDigest evidencePayload))] }

/-- The payloads of the events, in order. -/
def ledgerPayloads (explain : PolicyOutcome → List String) (tx : TransactionPayload)
    (result : EvaluationResult) : List Payload :=
  if result.matchedPolicies.isEmpty then [transactionPayload tx result]
  else result.matchedPolicies.map (outcomePayload explain tx result)

/-- `build_ledger_events`: the first payload its model validator refuses raises. -/
def buildLedgerEvents (explain : PolicyOutcome → List String) (tx : TransactionPayload)
    (result : EvaluationResult) : Except ValidationError (List ComplianceEvaluationEvent) :=
  (ledgerPayloads explain tx result).mapM ComplianceEvaluationEvent.validate

end RegEngine.Ledger
