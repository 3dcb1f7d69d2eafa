import RegEngine.Agents.Schemas
import RegEngine.Lib.Python

/-!
# The output guard

`app/redteam/output_guard.py`, with `detect_injection_patterns` and the sanitisers of
`app/redteam/defense.py`. Of Guardrails AI the model has what the validator of this module asks of it: a
field in which a pattern is found is replaced by the validator's fix, another one is left alone.
-/

namespace RegEngine.Agents

open Lib Lib.Python RegEngine.Compiler

/-- What is computed by Python's `unicodedata`, `str.lower`, `difflib`, and by `re` with the patterns of
the two modules. -/
structure TextTools where
  /-- `unicodedata.normalize("NFKC", s)`. -/
  nfkc : String → String
  lower : String → String
  /-- The matches of `_COMPILED_OVERRIDE_PATTERNS`, pattern by pattern. -/
  overrideMatches : String → List String
  /-- `s` with those matches put in brackets. -/
  overridesRedacted : String → String
  /-- The matches of `\b\d+(?:\.\d+)?\b`. -/
  numberTokens : String → List String
  /-- The size of `SequenceMatcher(None, a, b).find_longest_match`. -/
  longestMatch : String → String → Nat

variable (tools : TextTools)

/-! ## `defense.py` -/

def detectInjectionPatterns (text : String) : List String := tools.overrideMatches text

/-- `_INVISIBLE_CHARS`. -/
def invisibleChars : List Nat := [0x200b, 0x200c, 0x200d, 0x2060, 0xfeff, 0xad]

/-- The `cleaned_text` of `sanitize_source_text`. -/
def sanitizeSourceText (text : String) : String :=
  let normalized := tools.nfkc text
  let cleaned := String.ofList (normalized.toList.filter fun c => c.toNat ∉ invisibleChars)
  tools.overridesRedacted cleaned

def sanitizeMetadataField (value : Option String) : Option String :=
  if truthy value then value.map (sanitizeSourceText tools) else value

/-! ## The free-text fields -/

/-- `NoInjectedInstructionLeakage` with `on_fail="fix"`: the field as the guard returns it. -/
def noInjectedInstructionLeakage (value : String) : String :=
  let hits := detectInjectionPatterns tools value
  if hits.isEmpty then value
  else "[REDACTED BY OUTPUT GUARD: possible prompt-injection leakage matching " ++ reprList hits ++ "]"

structure OutputGuardResult where
  validationPassed : Bool
  extractionNotes : String
  ambiguousSpansJoined : String

/-- `check_extraction_output`; `raised` is what building the guard raises. -/
def checkExtractionOutput (raised : Option Failure) (extractionNotes : Option String)
    (ambiguousSpans : List String) : Except Failure OutputGuardResult :=
  match raised with
  | some failure => .error failure
  | none =>
    let joinedSpans := " | ".intercalate ambiguousSpans
    let notes := orText extractionNotes ""
    let guardedNotes := noInjectedInstructionLeakage tools notes
    let guardedSpans := noInjectedInstructionLeakage tools joinedSpans
    .ok ⟨guardedNotes = notes && guardedSpans = joinedSpans, guardedNotes, guardedSpans⟩

/-! ## Source grounding -/

/-- `_normalize_text`. -/
def normalizeText (s : String) : String :=
  " ".intercalate ((((tools.lower (tools.nfkc s)).toList.splitOnP isSpace).filter (· ≠ [])).map
    String.ofList)

/-- `s[:n]`. -/
def prefixText (n : Nat) (s : String) : String := String.ofList (s.toList.take n)

/-- `source_text[:200] if source_text else None`. -/
def excerpt (sourceText : String) : Option String :=
  if sourceText = "" then none else some (prefixText 200 sourceText)

/-- The evidence is not in the source, and what is near it has other numbers or is too short. -/
def evidenceAbsent (normQuote normSource : String) : Bool :=
  let hasUnsupportedNumbers :=
    (tools.numberTokens normQuote).any (· ∉ tools.numberTokens normSource)
  let ratio := Binary64.ofRat (tools.longestMatch normQuote normSource / max normQuote.length 1)
  !contains normSource normQuote && (hasUnsupportedNumbers || ratio.lt (Binary64.ofRat 0.90))

/-- The value stands as a numeric token in the text. -/
def valueInTokens (value : Decimal) (text : String) : Bool :=
  let valStr := value.repr
  let intValStr := if value.isInteger then toString value.toInt else valStr
  valStr ∈ tools.numberTokens text || intValStr ∈ tools.numberTokens text

def logicPath (i : Nat) (field : String) : String :=
  "deterministic_logic[" ++ toString i ++ "]." ++ field

/-- The finding on one threshold, if any. -/
def thresholdFinding (sourceText : String) (t : NumericalThreshold) (i : Nat) :
    Option AuditFinding :=
  let quote := t.verbatimEvidence
  let normQuote := normalizeText tools quote
  let matchedInj := detectInjectionPatterns tools quote ++ detectInjectionPatterns tools t.metric
  if normQuote = "" then
    some {
      findingType := .unsupportedClaim
      severity := .blocker
      fieldPath := logicPath i "verbatim_evidence"
      description := "Numerical threshold on '" ++ t.metric ++ "' is missing verbatim source evidence." }
  else if !matchedInj.isEmpty || contains quote "[REDACTED-POSSIBLE-INJECTION" then
    some {
      findingType := .unsupportedClaim
      severity := .blocker
      fieldPath := logicPath i "verbatim_evidence"
      description := "Numerical threshold on '" ++ t.metric ++
        "' incorporates injected instruction / adversarial payload: " ++
        if matchedInj.isEmpty then "redacted injection payload" else reprList matchedInj
      sourceExcerpt := some (prefixText 200 quote) }
  else if evidenceAbsent tools normQuote (normalizeText tools sourceText) then
    some {
      findingType := .hallucinatedThreshold
      severity := .blocker
      fieldPath := logicPath i "verbatim_evidence"
      description := "Verbatim evidence '" ++ prefixText 100 quote ++ "' for threshold '" ++ t.metric ++
        "' does not exist in source clause text."
      sourceExcerpt := excerpt sourceText }
  else if !valueInTokens tools t.value sourceText || !valueInTokens tools t.value quote then
    some {
      findingType := .hallucinatedThreshold
      severity := .blocker
      fieldPath := logicPath i "value"
      description := "Threshold value " ++ t.value.repr ++ " is not substantiated by verbatim evidence '" ++
        quote ++ "' or source text."
      sourceExcerpt := some quote }
  else none

def entityFinding (sourceText : String) (ent : TargetEntity) (j : Nat) : Option AuditFinding :=
  let quote := ent.verbatimEvidence
  let normQuote := normalizeText tools quote
  let path := "target_entities[" ++ toString j ++ "].verbatim_evidence"
  if normQuote = "" then
    some {
      findingType := .unsupportedClaim
      severity := .blocker
      fieldPath := path
      description := "Target entity '" ++ ent.normalizedEntity.getD "None" ++
        "' is missing verbatim source evidence." }
  else if !contains (normalizeText tools sourceText) normQuote then
    some {
      findingType := .hallucinatedEntity
      severity := .blocker
      fieldPath := path
      description := "Target entity evidence '" ++ quote ++ "' not found in source text."
      sourceExcerpt := excerpt sourceText }
  else none

def directiveFinding (sourceText : String) (qd : QualitativeDirective) (k : Nat) :
    Option AuditFinding :=
  let quote := qd.verbatimEvidence
  let normQuote := normalizeText tools quote
  if normQuote = "" || !contains (normalizeText tools sourceText) normQuote then
    some {
      findingType := .unsupportedClaim
      severity := .blocker
      fieldPath := "qualitative_directives[" ++ toString k ++ "].verbatim_evidence"
      description := "Qualitative directive evidence '" ++ prefixText 100 quote ++
        "' not found in source text." }
  else none

/-- The findings on the members of a list, in order. -/
def findingsOn {α : Type} (finding : α → Nat → Option AuditFinding) (l : List α) :
    List AuditFinding :=
  l.zipIdx.filterMap fun x => finding x.1 x.2

def validateSourceGrounding (extracted : ExtractedComplianceRule) (sourceText : String) :
    List AuditFinding :=
  findingsOn (thresholdFinding tools sourceText) extracted.deterministicLogic ++
  findingsOn (entityFinding tools sourceText) extracted.targetEntities ++
  findingsOn (directiveFinding tools sourceText) extracted.qualitativeDirectives

/-! ## The guard -/

def leakageFinding : AuditFinding where
  findingType := .unsupportedClaim
  severity := .blocker
  fieldPath := "extraction_notes"
  description :=
    "Output guard detected instruction-leakage or prompt injection in extracted output. " ++
    "Rule rejected to prevent execution of unauthorized commands."

/-- `[s.strip() for s in joined.split(" | ") if s.strip()]`; the guard's spans. -/
def splitSpans (joined : String) : List String :=
  ((joined.splitOn " | ").map strip).filter (· ≠ "")

/-- The verdict that a blocker leaves. -/
def ComplianceRuleAudit.demoted (audit : ComplianceRuleAudit) : ComplianceRuleAudit :=
  { audit with verdict := .rejected, fidelityScore := Binary64.ofRat 0 }

/-- The first half of `guard_and_validate_extraction`: free text in which a pattern was found is
redacted, and the rule rejected. -/
def applyGuard (res : OutputGuardResult) (extracted : ExtractedComplianceRule)
    (audit : ComplianceRuleAudit) : ExtractedComplianceRule × ComplianceRuleAudit :=
  if res.validationPassed then (extracted, audit)
  else
    ({ extracted with
        extractionNotes := some res.extractionNotes
        ambiguousSpans := splitSpans res.ambiguousSpansJoined },
      { audit with findings := audit.findings ++ [leakageFinding] }.demoted)

/-- The second half: the findings of the source grounding. -/
def applyGrounding (findings : List AuditFinding) (audit : ComplianceRuleAudit) :
    ComplianceRuleAudit :=
  if findings.isEmpty then audit
  else
    let audit := { audit with
      findings := audit.findings ++ findings
      unverifiedQuoteCount := audit.unverifiedQuoteCount + findings.length }
    if findings.any (·.severity = .blocker) then audit.demoted else audit

def guardAndValidateExtraction (raised : Option Failure) (extracted : ExtractedComplianceRule)
    (audit : ComplianceRuleAudit) (chunk : ClauseChunk) :
    Except Failure (ExtractedComplianceRule × ComplianceRuleAudit) := do
  let res ← checkExtractionOutput tools raised extracted.extractionNotes extracted.ambiguousSpans
  let guarded := applyGuard res extracted audit
  return (guarded.1,
    applyGrounding (validateSourceGrounding tools guarded.1 chunk.text) guarded.2)

end RegEngine.Agents
