import RegEngine.Compiler.Facts
import RegEngine.Lib.Binary64

/-!
# What the two agents exchange

The parts of `app/agents/schemas.py` and of `ClauseChunk` (`app/models.py`) that the extraction and audit
pipelines read and write, and a provider's exceptions. Trigger conditions, a rule's digests and the moment
of an audit are left out.
-/

namespace RegEngine.Agents

open Lib RegEngine.Compiler

structure ClauseChunk where
  chunkId : String
  sha256 : String
  text : String
  clauseNumber : Option String := none
  sectionPath : List String := []
  circularNumber : Option String := none
  sourceDocumentSha256 : Option String := none
  regulator : Regulator := .sebi

structure TargetEntity where
  rawText : String
  normalizedEntity : Option String := none
  verbatimEvidence : String
  deriving DecidableEq

structure NumericalThreshold where
  metric : String
  canonicalFact : Option String := none
  operator : ComparisonOperator
  value : Decimal
  valueUpper : Option Decimal := none
  unit : String
  appliesTo : Option String := none
  verbatimEvidence : String
  deriving DecidableEq

structure QualitativeDirective where
  directiveText : String
  verbatimEvidence : String
  deriving DecidableEq

structure ExtractedComplianceRule where
  ruleId : String
  sourceChunkId : String
  sourceSha256 : String
  sourceDocumentSha256 : Option String := none
  circularNumber : Option String := none
  clauseNumber : Option String := none
  sectionPath : List String := []
  regulator : Regulator := .sebi
  regulatoryDomain : Option String := none
  targetEntities : List TargetEntity := []
  deterministicLogic : List NumericalThreshold := []
  qualitativeDirectives : List QualitativeDirective := []
  obligationType : ObligationType
  extractionConfidence : Binary64
  ambiguousSpans : List String := []
  extractionNotes : Option String := none
  deriving DecidableEq

inductive FindingType where
  | hallucinatedThreshold
  | hallucinatedEntity
  | incorrectEntityAssignment
  | missingContext
  | unsupportedClaim
  | misclassifiedObligation
  | scopeOverreach
  | unitOrValueMismatch
  | ok
  deriving DecidableEq, Repr

inductive Severity where
  | blocker
  | major
  | minor
  | info
  deriving DecidableEq, Repr

structure AuditFinding where
  findingType : FindingType
  severity : Severity
  fieldPath : String
  description : String
  sourceExcerpt : Option String := none
  suggestedCorrection : Option String := none
  deriving DecidableEq

inductive AuditVerdict where
  | approved
  | needsRevision
  | rejected
  deriving DecidableEq, Repr

structure ComplianceRuleAudit where
  ruleId : String
  verdict : AuditVerdict
  fidelityScore : Binary64
  findings : List AuditFinding := []
  verifiedQuoteCount : Int
  unverifiedQuoteCount : Int
  deriving DecidableEq

structure AuditedComplianceRule where
  rule : ExtractedComplianceRule
  audit : ComplianceRuleAudit
  revisionRound : Nat := 0
  deriving DecidableEq

/-- An exception: the name of its type and its text. -/
structure Failure where
  typeName : String
  text : String
  deriving DecidableEq, Repr

/-- What an agent's task ends with: an instance of its schema, another object (given by the text of its
type), or an exception. -/
inductive Answer (α : Type) where
  | conforming (a : α)
  | other (typeText : String)
  | raised (failure : Failure)

/-- What a run meets outside: the agents' answers in the order in which they are taken, and what building
the output guard raises, in each round of the crew and in the offline extractor. -/
structure Calls where
  extractions : Nat → Answer ExtractedComplianceRule
  audits : Nat → Answer ComplianceRuleAudit
  crewGuards : Nat → Option Failure
  offlineGuard : Option Failure

structure Settings where
  llmProvider : String := "offline"
  openaiApiKey : Option String := none
  anthropicApiKey : Option String := none
  hfApiToken : Option String := none
  agentGraphOrchestrationEnabled : Bool := false
  agentConfidenceThreshold : Binary64
  agentMaxFallbackAttempts : Int := 2
  agentFallbackModel : String := "huggingface/Qwen/Qwen2.5-7B-Instruct"

/-- What both pipelines stamp on an extraction: the chunk's regulator, and the domain of its entities. -/
def ExtractedComplianceRule.stamped (extracted : ExtractedComplianceRule) (chunk : ClauseChunk) :
    ExtractedComplianceRule :=
  let primaryEntity := extracted.targetEntities.head?.bind (·.normalizedEntity)
  { extracted with
    regulator := chunk.regulator
    regulatoryDomain := some (resolveDomain chunk.regulator primaryEntity) }

end RegEngine.Agents
