import RegEngine.Compiler.JsonLogic
import RegEngine.Hitl.Orchestrator

/-!
# `compile_audited_rule`

`app/compiler/hitl.py` and `app/compiler/pipeline.py`: the flags of an audited rule, and the gate they
are for its compilation. The random flag ids are an input.
-/

namespace RegEngine.Hitl

open Lib Lib.Python Lib.Calendar Compiler

/-! ## Audited rules -/

structure QualitativeDirective where
  directiveText : String
  verbatimEvidence : String

inductive FindingType where
  | hallucinatedThreshold
  | hallucinatedEntity
  | incorrectEntityAssignment
  | missingContext
  | unsupportedClaim
  | misclassifiedObligation
  | scopeOverreach
  | unitOrValueMismatch
  | ok
  deriving DecidableEq, Repr

def FindingType.value : FindingType → String
  | hallucinatedThreshold => "hallucinated_threshold"
  | hallucinatedEntity => "hallucinated_entity"
  | incorrectEntityAssignment => "incorrect_entity_assignment"
  | missingContext => "missing_context"
  | unsupportedClaim => "unsupported_claim"
  | misclassifiedObligation => "misclassified_obligation"
  | scopeOverreach => "scope_overreach"
  | unitOrValueMismatch => "unit_or_value_mismatch"
  | ok => "ok"

/-- `Severity` of `app/agents/schemas.py`. -/
inductive FindingSeverity where
  | blocker
  | major
  | minor
  | info
  deriving DecidableEq, Repr

def FindingSeverity.value : FindingSeverity → String
  | blocker => "blocker"
  | major => "major"
  | minor => "minor"
  | info => "info"

structure AuditFinding where
  findingType : FindingType
  severity : FindingSeverity
  description : String

inductive AuditVerdict where
  | approved
  | needsRevision
  | rejected
  deriving DecidableEq, Repr

def AuditVerdict.value : AuditVerdict → String
  | approved => "approved"
  | needsRevision => "needs_revision"
  | rejected => "rejected"

/-- A score between 0 and 1. -/
structure Score where
  value : Decimal
  nonneg : 0 ≤ value.toRat := by decide
  le_one : value.toRat ≤ 1 := by decide

/-- A rule with what only the flags read of it (the evidence of its entities and thresholds stands
in their order), and its audit. -/
structure AuditedComplianceRule where
  rule : ExtractedComplianceRule
  entityEvidence : List String
  thresholdEvidence : List String
  qualitativeDirectives : List QualitativeDirective := []
  extractionConfidence : Score
  ambiguousSpans : List String := []
  verdict : AuditVerdict
  fidelityScore : Score
  findings : List AuditFinding := []
  entityEvidence_length : entityEvidence.length = rule.targetEntities.length := by rfl
  thresholdEvidence_length : thresholdEvidence.length = rule.deterministicLogic.length := by rfl

/-! ## Flags -/

/-- `LOW_CONFIDENCE_THRESHOLD`. -/
def lowConfidenceThreshold : Decimal := ⟨75, -2, by decide⟩

/-- A score with two digits behind the point (`.2f`): the double it is, rounded to hundredths, to
even from half way. The last bit of `n` stands for what is cut off. -/
def Score.fixed2 (x : Score) : String :=
  let q := x.value.toRat
  let scaled := q.num.toNat * 2 ^ 120
  let n := 2 * (scaled / q.den) + if scaled % q.den = 0 then 0 else 1
  let hundredths := 100 * Decimal.roundDouble n
  let floor := hundredths / 2 ^ 121
  let rest := 2 * (hundredths % 2 ^ 121)
  let r := if 2 ^ 121 < rest ∨ (2 ^ 121 = rest ∧ floor % 2 = 1) then floor + 1 else floor
  toString (r / 100) ++ "." ++ String.ofList (Text.pad2 (r % 100))

/-- A flag; its id is given last. -/
def flag (reasonCode : ReasonCode) (severity : Severity) (description : String)
    (sourceExcerpt fieldPath : Option String) : HITLFlag where
  flagId := ""
  reasonCode := reasonCode
  severity := severity
  description := description
  sourceExcerpt := sourceExcerpt
  fieldPath := fieldPath

/-- `<name>[<i>]`. -/
def indexed (name : String) (i : Nat) : String := name ++ "[" ++ toString i ++ "]"

def flagQualitativeDirectives (a : AuditedComplianceRule) : List HITLFlag :=
  a.qualitativeDirectives.zipIdx.map fun d =>
    flag .qualitativeDirective .advisory
      ("Qualitative directive cannot be programmatically enforced: \"" ++ d.1.directiveText ++
        "\". Requires a human-authored control (policy attestation, manual checklist, or " ++
        "narrative audit procedure).")
      (some d.1.verbatimEvidence) (some (indexed "qualitative_directives" d.2))

def flagAmbiguousSpans (a : AuditedComplianceRule) : List HITLFlag :=
  a.ambiguousSpans.zipIdx.map fun s =>
    flag .ambiguousSpan .advisory
      ("Extraction agent flagged this span as too ambiguous to structure automatically. Review " ++
        "the source clause to determine whether it encodes an additional obligation, exception, " ++
        "or is non-normative.")
      (some s.1) (some (indexed "ambiguous_spans" s.2))

def flagLowConfidence (a : AuditedComplianceRule) : List HITLFlag :=
  if lowConfidenceThreshold.toRat ≤ a.extractionConfidence.value.toRat then []
  else
    [flag .lowExtractionConfidence .blocking
      ("Extraction confidence (" ++ a.extractionConfidence.fixed2 ++ ") is below the 0.75 " ++
        "threshold required for automated compilation. A human must confirm the extraction " ++
        "before any Rego/JSON-Logic output is trusted.")
      none (some "extraction_confidence")]

def flagUnresolvedEntities (a : AuditedComplianceRule) : List HITLFlag :=
  ((a.rule.targetEntities.zip a.entityEvidence).zipIdx.filter fun e =>
      e.1.1.normalizedEntity = none).map fun e =>
    flag .unresolvedEntity .advisory
      ("Entity phrase \"" ++ e.1.1.rawText ++ "\" could not be normalized against the SEBI entity " ++
        "taxonomy. The compiled policy will match on this raw entity string, which may not align " ++
        "with how entity_type is populated in production input payloads.")
      (some e.1.2) (some (indexed "target_entities" e.2))

def flagNoDeterministicLogic (a : AuditedComplianceRule) : List HITLFlag :=
  if a.rule.deterministicLogic ≠ [] then []
  else if a.rule.obligationType = .recommended then []
  else
    [flag .noDeterministicLogic .blocking
      ("Obligation is classified '" ++ a.rule.obligationType.value ++ "' but no numerical " ++
        "thresholds were extracted. Manual authoring of the enforcement rule is required.")
      none (some "deterministic_logic")]

/-- `repr` of a list of floats. -/
def reprFloats (l : List Decimal) : String := "[" ++ ", ".intercalate (l.map (·.repr)) ++ "]"

/-- The key a threshold is grouped under. -/
def thresholdKey (t : NumericalThreshold) : String := t.metric ++ "|" ++ t.unit

/-- The keys in the order in which they first occur. -/
def firstKeys : List NumericalThreshold → List String
  | [] => []
  | t :: ts => thresholdKey t :: (firstKeys ts).filter fun k => k ≠ thresholdKey t

def flagConflictingThresholds (a : AuditedComplianceRule) : List HITLFlag :=
  (firstKeys a.rule.deterministicLogic).flatMap fun key =>
    let group := a.rule.deterministicLogic.filter fun t => thresholdKey t = key
    let lower := (group.filter fun t => t.operator = .gte ∨ t.operator = .gt).map (·.value)
    let upper := (group.filter fun t => t.operator = .lte ∨ t.operator = .lt).map (·.value)
    -- `min(lower) > max(upper)`, with both lists there
    if 2 ≤ group.length ∧ lower ≠ [] ∧ upper ≠ [] ∧
        lower.all (fun l => upper.all fun u => u.toRat < l.toRat) then
      [flag .conflictingThresholds .blocking
        ("Conflicting thresholds extracted for '" ++ key ++ "': lower bound(s) " ++
          reprFloats lower ++ " exceed upper bound(s) " ++ reprFloats upper ++ ". This combination " ++
          "can never be satisfied and likely indicates an extraction error.")
        none (some "deterministic_logic")]
    else []

def flagAuditNotApproved (a : AuditedComplianceRule) : List HITLFlag :=
  if a.verdict = .approved then []
  else
    let summary := "; ".intercalate (a.findings.map fun f =>
      "[" ++ f.severity.value ++ "] " ++ f.findingType.value ++ ": " ++ f.description)
    [flag .auditNotApproved .blocking
      ("Logic Auditor Agent verdict was '" ++ a.verdict.value ++ "' (fidelity_score=" ++
        a.fidelityScore.fixed2 ++ "). Findings: " ++ orText (some summary) "no findings listed")
      none none]

/-- The flag of one threshold whose metric, unit or value is not that of a canonical fact. -/
def invalidFact (t : NumericalThreshold) (evidence : String) (i : Nat) : Option HITLFlag :=
  let res := resolveCanonicalFact t.metric (some t.unit) (some t.value) t.valueUpper
  let path := indexed "deterministic_logic" i
  match res.status with
  | .missingMapping =>
    some (flag .unknownFactMetric .blocking
      ("Metric '" ++ t.metric ++ "' cannot be mapped to any canonical regulatory fact in the " ++
        "taxonomy. Silent field name invention is prohibited. Human review is required to " ++
        "establish a canonical mapping.")
      (some evidence) (some (path ++ ".metric")))
  | .wrongUnit =>
    some (flag .invalidMetricUnit .blocking
      (orText res.errorMessage ("Unit '" ++ t.unit ++ "' is invalid for fact."))
      (some evidence) (some (path ++ ".unit")))
  | .wrongThreshold =>
    some (flag .invalidThresholdValue .blocking
      (orText res.errorMessage ("Threshold value " ++ t.value.repr ++ " is out of bounds."))
      (some evidence) (some (path ++ ".value")))
  | .valid => none

def flagUnmappedOrInvalidFacts (a : AuditedComplianceRule) : List HITLFlag :=
  (a.rule.deterministicLogic.zip a.thresholdEvidence).zipIdx.filterMap fun t =>
    invalidFact t.1.1 t.1.2 t.2

/-- `collect_hitl_flags`; `uuids` are the ids, in the order in which the flags are made. -/
def collectHitlFlags (a : AuditedComplianceRule) (uuids : Nat → String) : List HITLFlag :=
  (flagAuditNotApproved a ++ flagLowConfidence a ++ flagUnmappedOrInvalidFacts a ++
    flagConflictingThresholds a ++ flagNoDeterministicLogic a ++ flagQualitativeDirectives a ++
    flagAmbiguousSpans a ++ flagUnresolvedEntities a).zipIdx.map fun f =>
      { f.1 with flagId := uuids f.2 }

/-! ## The gate -/

/-- What compiling an audited rule raises. -/
inductive PipelineError where
  | compile (e : CompileError)
  | malformedAst (message : String)

def compileAuditedRule (a : AuditedComplianceRule) (ruleVersion : Int) (now : DateTime)
    (uuids : Nat → String) : Except PipelineError CompilationResult := do
  let hitlFlags := collectHitlFlags a uuids
  if hasBlockingFlags hitlFlags ∨ a.rule.deterministicLogic = [] then
    pure { compiled := false, hitlFlags := hitlFlags }
  else
    let rego ← (compileRuleToRego a.rule ruleVersion now).mapError .compile
    let jsonLogic ← (compileRuleToJsonlogic a.rule).mapError .compile
    (validateJsonLogicAst "$" jsonLogic.logic).mapError .malformedAst
    pure
      { compiled := true
        rego := some rego
        jsonLogic := some jsonLogic.logic
        hitlFlags := hitlFlags }

end RegEngine.Hitl
