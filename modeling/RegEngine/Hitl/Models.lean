import RegEngine.Lib.Calendar
import RegEngine.Lib.Json
import RegEngine.Lib.Table

/-!
# The review store

The tables of `app/db/models.py` that human review works on: circulars, clauses, compiled rules,
reviews and the state transitions of circulars. The check constraints of the columns are the
enumerations below; columns that no modelled operation reads or writes are left out. A rule or a
review is named by its row number in the table.
-/

namespace RegEngine.Hitl

open Lib Lib.Calendar

/-- `_HITL_REVIEW_STATUSES`. -/
inductive ReviewStatus where
  | pending
  | inReview
  | resolved
  | rejected
  | revisionRequired
  deriving DecidableEq, Repr

def ReviewStatus.value : ReviewStatus → String
  | pending => "PENDING"
  | inReview => "IN_REVIEW"
  | resolved => "RESOLVED"
  | rejected => "REJECTED"
  | revisionRequired => "REVISION_REQUIRED"

/-- `_HITL_SEVERITIES`. -/
inductive Severity where
  | blocking
  | advisory
  deriving DecidableEq, Repr

/-- `HITLReasonCode`. -/
inductive ReasonCode where
  | qualitativeDirective
  | ambiguousSpan
  | lowExtractionConfidence
  | auditNotApproved
  | noDeterministicLogic
  | conflictingThresholds
  | unresolvedEntity
  | selfHealedRequiresReview
  | unknownFactMetric
  | invalidMetricUnit
  | invalidThresholdValue
  deriving DecidableEq, Repr

/-- `_COMPILED_RULE_HITL_STATUSES`. -/
inductive HitlStatus where
  | none
  | advisory
  | blocking
  | resolved
  deriving DecidableEq, Repr

/-- `_CIRCULAR_PROCESSING_STATES`. -/
inductive ProcessingState where
  | ingested
  | extracting
  | extracted
  | compiling
  | awaitingHitl
  | approved
  | deployed
  | failed
  deriving DecidableEq, Repr

/-- `_CLAUSE_PROCESSING_STATUSES`. -/
inductive ClauseStatus where
  | pending
  | extracting
  | extracted
  | compiling
  | compiled
  | failed
  deriving DecidableEq, Repr

structure Circular where
  circularNumber : String
  sourceDocumentSha256 : Option String := none
  rawTextDigest : String
  processingState : ProcessingState := .ingested
  errorMessage : Option String := none

structure Clause where
  circularId : Nat
  clauseNumber : Option String
  text : String
  sha256 : String
  processingStatus : ClauseStatus := .pending
  errorMessage : Option String := none

structure CompiledRule where
  clauseId : Nat
  tenantId : String
  ruleId : String
  ruleVersion : Int := 1
  regoPolicy : Option String
  opaPackageName : Option String
  jsonlogicAst : Option Json
  isCompiled : Bool
  isActive : Bool
  hitlStatus : HitlStatus
  compilerVersion : Option String := some "1.0.0"
  policySha256 : Option String := none

structure HITLReview where
  reviewId : String
  clauseId : Nat
  compiledRuleId : Option Nat
  tenantId : String
  reasonCode : ReasonCode
  severity : Severity
  description : String
  sourceExcerpt : Option String
  fieldPath : Option String
  status : ReviewStatus := .pending
  complianceOfficerId : Option String := none
  resolutionNotes : Option String := none
  resolvedAt : Option DateTime := none
  approvedRuleVersion : Option Int := none
  approvedPolicySha256 : Option String := none

structure CircularStateTransition where
  circularId : Nat
  fromState : ProcessingState
  toState : ProcessingState
  triggeredBy : String
  errorMessage : Option String := none
  details : Json

/-- The review tables of the database. -/
structure Store where
  circulars : Table Circular
  clauses : Table Clause
  rules : Table CompiledRule
  reviews : Table HITLReview
  transitions : List CircularStateTransition

/-- What an operation raises; the transaction is then rolled back. -/
inductive Error where
  | httpException (statusCode : Nat) (detail : String)
  | multipleResultsFound
  | integrityError (constraint : String)
  | nameError (name : String)
  deriving DecidableEq

/-- The reviews linked to a rule. -/
def Store.reviewsOf (s : Store) (rule : Nat) : List (Nat × HITLReview) :=
  s.reviews.select fun r => r.compiledRuleId = some rule

/-- The clause of a review and its circular, where both rows exist. -/
def Store.circularOf (s : Store) (review : HITLReview) : Option (Nat × Circular) :=
  (s.clauses.get? review.clauseId).bind fun clause =>
    (s.circulars.get? clause.circularId).map fun circular => (clause.circularId, circular)

end RegEngine.Hitl
