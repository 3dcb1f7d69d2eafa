import RegEngine.Agents.Graph

/-!
# Providers and the entry point

`app/agents/providers.py`, `run_dual_validation` of `app/agents/crew.py` and `extract_and_audit_clause` of
`app/agents/pipeline.py`. The regular expressions of the offline extractor are searched by Python's `re`;
engines, logging and metrics are left out.
-/

namespace RegEngine.Agents

open Lib Lib.Python RegEngine.Compiler

inductive LLMProviderType where
  | offline
  | openai
  | anthropic
  | huggingface
  deriving DecidableEq, Repr

def LLMProviderType.value : LLMProviderType → String
  | offline => "offline"
  | openai => "openai"
  | anthropic => "anthropic"
  | huggingface => "huggingface"

/-- The searches of the offline extractor, with the groups it reads, and `float` of a numeral. -/
structure OfflinePatterns where
  /-- `m_ent.group(1)`. -/
  broker : String → Option String
  /-- Groups 1 and 2 of `m_margin`. -/
  margin : String → Option (String × String)
  /-- Groups 0 and 1 of `m_pct`. -/
  percent : String → Option (String × String)
  /-- Groups 1, 2 and 3 of `m_collateral`. -/
  collateral : String → Option (String × String × String)
  /-- Groups 1 and 2 of `m_peak`. -/
  peak : String → Option (String × String)
  /-- Groups 1, 2 and 3 of `m_deadline`. -/
  deadline : String → Option (String × String × String)
  float : String → Decimal

/-- What the whole pipeline is given besides the clause. -/
structure Environment where
  tools : TextTools
  patterns : OfflinePatterns
  detectComplexity : ClauseChunk → ComplexityRoute

variable (env : Environment) (calls : Calls) (settings : Settings) (chunk : ClauseChunk)

/-! ## The offline extractor -/

def detectEntities (text : String) : List TargetEntity :=
  let lowerText := env.tools.lower text
  if contains lowerText "stock broker" || contains lowerText "stockbroker" ||
      contains lowerText "broker" then
    let entityRaw := (env.patterns.broker text).getD "stock broker"
    [⟨entityRaw, some "Stockbroker", entityRaw⟩]
  else []

/-- `"Stockbroker" if target_entities else None`. -/
def scope (entities : List TargetEntity) : Option String :=
  if entities.isEmpty then none else some "Stockbroker"

def marginThreshold (entities : List TargetEntity) (valStr quote : String) : NumericalThreshold where
  metric := "Upfront Margin"
  canonicalFact := some "upfront_margin_pct"
  operator := .gte
  value := env.patterns.float valStr
  unit := "%"
  appliesTo := scope entities
  verbatimEvidence := quote

/-- Pattern A: the margin, or else a percentage beside the word. -/
def detectMargin (text : String) (entities : List TargetEntity) : List NumericalThreshold :=
  let lowerText := env.tools.lower text
  match env.patterns.margin text with
  | some (fullSpan, valStr) => [marginThreshold env entities valStr fullSpan]
  | none =>
    if contains lowerText "margin" && (contains text "%" || contains lowerText "percent") then
      match env.patterns.percent text with
      | some (whole, valStr) =>
        let sentences := (text.toList.splitOnP (fun c => c = '.' || c = '\n')).map String.ofList
        let quote := ((sentences.find? (contains · whole)).map strip).getD whole
        [marginThreshold env entities valStr quote]
      | none => []
    else []

/-- Pattern B. -/
def detectCollateral (text : String) (entities : List TargetEntity) : List NumericalThreshold :=
  match env.patterns.collateral text with
  | some (fullSpan, valStr, unitStr) => [{
      metric := "Client Collateral"
      canonicalFact := some "client_collateral"
      operator := .gte
      value := env.patterns.float valStr
      unit := unitStr
      appliesTo := scope entities
      verbatimEvidence := fullSpan }]
  | none => []

/-- Pattern C. -/
def detectPeak (text : String) (entities : List TargetEntity) : List NumericalThreshold :=
  match env.patterns.peak text with
  | some (fullSpan, valStr) => [{
      metric := "Peak Margin"
      canonicalFact := some "peak_margin"
      operator := .gte
      value := env.patterns.float valStr
      unit := "%"
      appliesTo := scope entities
      verbatimEvidence := fullSpan }]
  | none => []

/-- Pattern D. -/
def detectDeadline (text : String) : List NumericalThreshold :=
  match env.patterns.deadline text with
  | some (fullSpan, valStr, unitStr) => [{
      metric := "Reporting Deadline"
      canonicalFact := some "reporting_deadline"
      operator := .lte
      value := env.patterns.float valStr
      unit := unitStr
      verbatimEvidence := fullSpan }]
  | none => []

def detectThresholds (text : String) (entities : List TargetEntity) : List NumericalThreshold :=
  detectMargin env text entities ++ detectCollateral env text entities ++
    detectPeak env text entities ++ detectDeadline env text

def ruleIdOf (clauseNumber : Option String) : String :=
  chunk.sha256 ++ ":" ++ orText clauseNumber "unscoped"

/-- The rule and the audit of the offline extractor, before the guard. -/
def offlineDraft : ExtractedComplianceRule × ComplianceRuleAudit :=
  let text := sanitizeSourceText env.tools chunk.text
  let cleanClause := sanitizeMetadataField env.tools chunk.clauseNumber
  let ruleId := ruleIdOf chunk cleanClause
  let entities := detectEntities env text
  let thresholds := detectThresholds env text entities
  let rule : ExtractedComplianceRule := {
    ruleId := ruleId
    sourceChunkId := chunk.chunkId
    sourceSha256 := chunk.sha256
    sourceDocumentSha256 := chunk.sourceDocumentSha256
    circularNumber := sanitizeMetadataField env.tools chunk.circularNumber
    clauseNumber := cleanClause
    sectionPath := chunk.sectionPath
    regulator := chunk.regulator
    obligationType := .mandatory
    extractionConfidence := Binary64.ofRat 1 }
  if thresholds.isEmpty then
    -- The clause has no verifiable numeric obligation.
    ({ rule with
        regulatoryDomain := some (resolveDomain chunk.regulator none)
        qualitativeDirectives :=
          if text = "" then [] else [⟨prefixText 200 text, prefixText 200 text⟩]
        obligationType := .recommended
        extractionConfidence := Binary64.ofRat 0
        extractionNotes := some
          "Offline extraction: clause text contains no verifiable deterministic numeric threshold." },
      { ruleId := ruleId
        verdict := .rejected
        fidelityScore := Binary64.ofRat 0
        findings := [{
          findingType := .unsupportedClaim
          severity := .blocker
          fieldPath := "deterministic_logic"
          description :=
            "Unsupported rule: source clause text does not contain a verifiable numeric obligation " ++
            "in offline mode. Human review required."
          sourceExcerpt := excerpt text }]
        verifiedQuoteCount := 0
        unverifiedQuoteCount := 1 })
  else
    ({ rule with
        regulatoryDomain := some
          (resolveDomain chunk.regulator (entities.head?.bind (·.normalizedEntity)))
        targetEntities := entities
        deterministicLogic := thresholds
        extractionNotes := some
          "Deterministic rule extraction (offline demo mode, no external LLM used)" },
      { ruleId := ruleId
        verdict := .approved
        fidelityScore := Binary64.ofRat 1
        verifiedQuoteCount := thresholds.length + entities.length
        unverifiedQuoteCount := 0 })

/-- `OfflineLLMProvider.extract_and_audit`. -/
def offlineExtractAndAudit : Except Failure AuditedComplianceRule := do
  let draft := offlineDraft env chunk
  let (rule, audit) ← guardAndValidateExtraction env.tools calls.offlineGuard draft.1 draft.2 chunk
  return ⟨rule, audit, 0⟩

/-! ## External providers -/

/-- `({type(error).__name__}: {error})`. -/
def Failure.shown (failure : Failure) : String :=
  "(" ++ failure.typeName ++ ": " ++ failure.text ++ ")"

/-- `_controlled_failure_rule`. -/
def controlledFailureRule (provider : LLMProviderType) (error : Failure) : AuditedComplianceRule where
  rule := {
    ruleId := ruleIdOf chunk chunk.clauseNumber
    sourceChunkId := chunk.chunkId
    sourceSha256 := chunk.sha256
    sourceDocumentSha256 := chunk.sourceDocumentSha256
    circularNumber := chunk.circularNumber
    clauseNumber := chunk.clauseNumber
    sectionPath := chunk.sectionPath
    obligationType := .mandatory
    extractionConfidence := Binary64.ofRat 0
    extractionNotes := some ("Provider '" ++ provider.value ++ "' failed " ++ error.shown ++
      ". Deterministic proof was not possible from source text. Routed to human review.") }
  audit := {
    ruleId := ruleIdOf chunk chunk.clauseNumber
    verdict := .rejected
    fidelityScore := Binary64.ofRat 0
    findings := [{
      findingType := .unsupportedClaim
      severity := .blocker
      fieldPath := "deterministic_logic"
      description := "LLM Provider '" ++ provider.value ++ "' failed " ++ error.shown ++
        ". Cannot verify rule without human review."
      sourceExcerpt := excerpt chunk.text }]
    verifiedQuoteCount := 0
    unverifiedQuoteCount := 1 }

/-- The key is there and not blank. -/
def checkKey (key : Option String) (message : String) : Except Failure Unit :=
  if truthy key && strip (key.getD "") ≠ "" then .ok ()
  else .error ⟨"MissingAPIKeyError", message⟩

def validateApiKey : LLMProviderType → Except Failure Unit
  | .offline => .ok ()
  | .openai => checkKey settings.openaiApiKey
      "OpenAI API key is missing. Set OPENAI_API_KEY environment variable."
  | .anthropic => checkKey settings.anthropicApiKey
      "Anthropic API key is missing. Set ANTHROPIC_API_KEY environment variable."
  | .huggingface => checkKey settings.hfApiToken
      "Hugging Face token is missing. Set HF_TOKEN environment variable."

/-- What the external provider is tried with: its key, then the crew loop. -/
def tryProvider (provider : LLMProviderType) : Except Failure AuditedComplianceRule := do
  validateApiKey settings provider
  let (audited, _) ← runCrewLoop env.tools calls chunk
  return audited

/-- The notes of a rule proved offline after the provider's failure. -/
def fallbackNotes (provider : LLMProviderType) (exc : Failure) : String :=
  "Deterministic extraction following " ++ provider.value ++ " failure " ++ exc.shown ++
    ". Rule verified directly against source text."

/-- `ExternalLLMProvider.extract_and_audit`. -/
def externalExtractAndAudit (provider : LLMProviderType) : Except Failure AuditedComplianceRule :=
  match tryProvider env calls settings chunk provider with
  | .ok audited => .ok audited
  | .error exc => do
    let candidate ← offlineExtractAndAudit env calls chunk
    if candidate.audit.verdict = .approved ∧ candidate.rule.deterministicLogic ≠ [] then
      return { candidate with
        rule := { candidate.rule with extractionNotes := some (fallbackNotes provider exc) } }
    else return controlledFailureRule chunk provider exc

def getProvider : LLMProviderType :=
  let raw := env.tools.lower (strip settings.llmProvider)
  if raw = "openai" then .openai
  else if raw = "anthropic" then .anthropic
  else if raw = "huggingface" then .huggingface
  else if raw = "offline" then .offline
  -- No provider of this name: the first one with a key.
  else if truthy settings.openaiApiKey then .openai
  else if truthy settings.anthropicApiKey then .anthropic
  else if truthy settings.hfApiToken then .huggingface
  else .offline

/-! ## The entry points -/

def runDualValidation : Except Failure AuditedComplianceRule :=
  match getProvider env settings with
  | .offline => offlineExtractAndAudit env calls chunk
  | provider => externalExtractAndAudit env calls settings chunk provider

def graphInput : GraphInput := ⟨chunk, settings, calls, env.detectComplexity⟩

/-- `extract_and_audit_clause`; `limit` is LangGraph's recursion limit. -/
def extractAndAuditClause (limit : Nat) : Except Failure AuditedComplianceRule :=
  if settings.agentGraphOrchestrationEnabled then do
    let (audited, _) ← (graphInput env calls settings chunk).runGraphPipeline limit
    return audited
  else runDualValidation env calls settings chunk

end RegEngine.Agents
