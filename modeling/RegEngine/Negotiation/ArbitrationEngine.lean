import RegEngine.Compiler.Facts
import RegEngine.Lib.Binary64
import RegEngine.Lib.Query
import RegEngine.Negotiation.ArbitrationStore

/-!
# The arbitration engine

`app/negotiation/arbitration_engine.py`: the arguments of extractor and auditor are cross-examined over
a bounded number of rounds, and the arbiter's verdict on them is stored. `lower` is `str.lower` and
`inspectForPromptInjection` gives the findings of `app/negotiation/security.py`; metrics and the log
are left out. A set in a message is written in first-seen order.
-/

namespace RegEngine.Negotiation

open Lib Lib.Calendar Lib.Python Compiler

/-! ## Settings -/

inductive LLMProviderType where
  | offline
  | openai
  | anthropic
  | huggingface
  deriving DecidableEq, Repr

def LLMProviderType.value : LLMProviderType → String
  | offline => "offline"
  | openai => "openai"
  | anthropic => "anthropic"
  | huggingface => "huggingface"

/-- The settings that an arbitration reads. There is no `llm_fallback_provider` and no
`llm_fallback_model_id` among the program's settings. -/
structure ArbitrationSettings where
  arbitrationMaxRounds : Int := 2
  arbitrationTimeoutSeconds : Decimal := ⟨3, 1, by decide⟩
  arbitrationConfidenceThreshold : Decimal := ⟨85, -2, by decide⟩
  arbitrationArbiterProvider : Option String := none
  arbitrationArbiterModel : Option String := none
  llmProvider : String := "offline"
  openaiApiKey : Option String := none
  anthropicApiKey : Option String := none
  hfApiToken : Option String := none
  hfModelId : String := "Qwen/Qwen2.5-72B-Instruct"

structure ArbitrationEngine where
  settings : ArbitrationSettings
  lower : String → String
  inspectForPromptInjection : String → List String

inductive ArbitrationError where
  | attributeError (message : String)
  | indexError (message : String)
  | storeError (error : StoreError)
  deriving DecidableEq, Repr

/-- What ends the wait for a deliberation: its result, or the time limit, before it has begun or while
its transcript is being saved, with the save applied or not. -/
inductive Timing where
  | inTime
  | beforeStart
  | whileSaving (applied : Bool)
  deriving DecidableEq, Repr

/-- One call of `arbitrate_clause`, with the ids and times it draws and the answers of Redis. There is
at most one verdict of each outcome in a call. -/
structure ArbitrationCall where
  clauseText : String
  clauseId : String
  circularId : String
  sourceDocumentSha256 : String
  clauseSha256 : String
  tenantId : String
  extractorOverride : Option AgentArgument := none
  auditorOverride : Option AgentArgument := none
  maxRounds : Option Int := none
  timeoutSeconds : Option Decimal := none
  sessionId : String
  startedAt : Timestamp
  argumentId : AgentRole → String
  createdAt : AgentRole → Timestamp
  verdictId : ArbitrationOutcome → String
  decidedAt : ArbitrationOutcome → Timestamp
  completedAt : ArbitrationOutcome → Timestamp
  durationSeconds : ArbitrationOutcome → Decimal
  timing : Timing := .inTime
  redisAnswer : RedisAnswer := .ok

namespace ArbitrationEngine

variable (E : ArbitrationEngine)

/-! ## Attribution -/

/-- `_resolve_arbiter_attribution`: without a provider of its own it reads a setting that does not
exist. -/
def resolveArbiterAttribution : Except ArbitrationError ModelAttribution :=
  match E.settings.arbitrationArbiterProvider with
  | some provider =>
    if provider = "" then
      .error (.attributeError "'Settings' object has no attribute 'llm_fallback_provider'")
    else
      let model := orText E.settings.arbitrationArbiterModel E.settings.hfModelId
      .ok
        { agentRole := .arbiter
          providerType := provider
          modelName := model
          checkpointId := some ("chk-" ++ model)
          temperature := ⟨⟨0, 0, Decimal.shortest_zero⟩, zero_upTo⟩ }
  | none => .error (.attributeError "'Settings' object has no attribute 'llm_fallback_provider'")

/-- `get_provider`. -/
def getProvider : LLMProviderType :=
  let raw := E.lower (strip E.settings.llmProvider)
  if raw = "openai" then .openai
  else if raw = "anthropic" then .anthropic
  else if raw = "huggingface" then .huggingface
  else if raw = "offline" then .offline
  else if truthy E.settings.openaiApiKey then .openai
  else if truthy E.settings.anthropicApiKey then .anthropic
  else if truthy E.settings.hfApiToken then .huggingface
  else .offline

/-- `str.capitalize` of a role. -/
def capitalized : AgentRole → String
  | .extractor => "Extractor"
  | .auditor => "Auditor"
  | .arbiter => "Arbiter"

/-- `_generate_default_argument`. -/
def generateDefaultArgument (call : ArbitrationCall) (role : AgentRole) : AgentArgument :=
  let firstSentence :=
    if call.clauseText = "" then "" else (split '.' (strip call.clauseText)).headD ""
  { argumentId := call.argumentId role
    agentRole := role
    roundNumber := 1
    interpretation := capitalized role ++ " interpretation: " ++ firstSentence
    canonicalFacts := []
    relevantSourceText := if firstSentence = "" then [] else [firstSentence]
    sourceLocation := call.clauseId
    confidence := ⟨⟨9, -1, Decimal.shortest_nine_tenths⟩, by decide +kernel⟩
    reasoningSummary := "Grounded directly in source sentence: '" ++ firstSentence ++ "'"
    attribution :=
      { agentRole := role
        providerType := E.getProvider.value
        modelName := E.settings.hfModelId
        checkpointId := some ("chk-" ++ role.value)
        temperature := ⟨⟨0, 0, Decimal.shortest_zero⟩, zero_upTo⟩ }
    obligationType := some "mandatory"
    createdAt := call.createdAt role }

/-- `_check_same_model_risk`. -/
def checkSameModelRisk (extractor auditor : AgentArgument) (arbiter : ModelAttribution) : Bool :=
  extractor.attribution.modelName = auditor.attribution.modelName ∧
    auditor.attribution.modelName = arbiter.modelName

/-! ## Cross-examination -/

/-- `" ".join(s.split())`. -/
def joinWords (s : String) : String :=
  String.ofList (stripChars isSpace (subRuns isSpace [' '] false s.toList))

/-- A quote that stands in the text, white space and case apart. -/
def quoteVerified (rawText quote : String) : Bool :=
  let normQ := E.lower (joinWords quote)
  normQ ≠ "" ∧ contains (E.lower (joinWords rawText)) normQ = true

/-- `_verify_quotes`: the verified and the other quotes. -/
def verifyQuotes (quotes : List String) (rawText : String) : List String × List String :=
  quotes.partition (E.quoteVerified rawText)

/-- `_validate_canonical_facts`: the accepted claims and the errors. -/
def validateCanonicalFacts (facts : List CanonicalFactClaim) :
    List CanonicalFactClaim × List String :=
  let resolved := facts.map fun f => (f, resolveCanonicalFact f.metric (some f.unit) (some f.value) none)
  ((resolved.filter fun r => r.2.isValid).map fun r =>
      { r.1 with canonicalFact := r.2.canonicalIdentifier },
    (resolved.filter fun r => !r.2.isValid).map fun r =>
      "Invalid canonical fact for '" ++ r.1.metric ++ "': " ++ r.2.errorMessage.getD "None")

def quoteDiscrepancy (who : String) (argument : AgentArgument) (sourceText : String) :
    List String :=
  let unverified := (E.verifyQuotes argument.relevantSourceText sourceText).2
  if unverified = [] then []
  else [who ++ " cited unverified source quotes: " ++ reprList unverified]

def obligationDiscrepancy (extractor auditor : AgentArgument) : List String :=
  match extractor.obligationType, auditor.obligationType with
  | some e, some a =>
    if e ≠ "" ∧ a ≠ "" ∧ E.lower e ≠ E.lower a then
      ["Obligation type mismatch: Extractor asserts '" ++ e ++ "', Auditor asserts '" ++ a ++ "'."]
    else []
  | _, _ => []

/-- The set of an argument's entities. -/
def entities (argument : AgentArgument) : List String :=
  (argument.targetEntities.map fun e => strip (E.lower e)).eraseDups

/-- `repr` of a set of texts that is not empty. -/
def reprSet (l : List String) : String := "\x7b" ++ ", ".intercalate (l.map reprText) ++ "\x7d"

def entityDiscrepancy (extractor auditor : AgentArgument) : List String :=
  let ext := E.entities extractor
  let aud := E.entities auditor
  if ext ≠ [] ∧ aud ≠ [] ∧ ¬ ((∀ x ∈ ext, x ∈ aud) ∧ ∀ x ∈ aud, x ∈ ext) then
    ["Target entities mismatch: Extractor=" ++ reprSet ext ++ " vs Auditor=" ++ reprSet aud ++ "."]
  else []

/-- The claims by metric in lower case, the last one of a metric. -/
def factsByMetric (facts : List CanonicalFactClaim) : String → Option CanonicalFactClaim :=
  Query.dict (facts.map fun f => (E.lower f.metric, f))

/-- The keys of that dictionary, in order. -/
def metricKeys (facts : List CanonicalFactClaim) : List String :=
  (facts.map fun f => E.lower f.metric).eraseDups

/-- What two claims of one metric differ in. -/
def claimDiscrepancy (metric : String) (ef af : CanonicalFactClaim) : List String :=
  (if ef.value ≠ af.value then
    ["Threshold mismatch for metric '" ++ metric ++ "': Extractor asserts " ++ ef.value.repr ++ " " ++
      ef.unit ++ ", Auditor asserts " ++ af.value.repr ++ " " ++ af.unit ++ "."]
  else []) ++
  if ef.operator ≠ af.operator then
    ["Operator mismatch for metric '" ++ metric ++ "': Extractor asserts " ++ ef.operator ++
      ", Auditor asserts " ++ af.operator ++ "."]
  else []

def factDiscrepancy (extractor auditor : AgentArgument) : List String :=
  (E.metricKeys extractor.canonicalFacts).flatMap fun metric =>
    match E.factsByMetric extractor.canonicalFacts metric,
      E.factsByMetric auditor.canonicalFacts metric with
    | some ef, some af => claimDiscrepancy metric ef af
    | _, _ => []

def confidenceDiscrepancy (who : String) (argument : AgentArgument) : List String :=
  let bar := E.settings.arbitrationConfidenceThreshold
  let text (d : Decimal) := Number.fixed 2 (Binary64.ofRat d.toRat)
  if argument.confidence.val.toRat < bar.toRat then
    [who ++ " confidence (" ++ text argument.confidence ++ ") is below threshold (" ++ text bar ++ ")."]
  else []

/-- `_cross_examine_round`: the discrepancies; any is material. -/
def crossExamineRound (extractor auditor : AgentArgument) (sourceText : String) : List String :=
  E.quoteDiscrepancy "Extractor" extractor sourceText ++
    E.quoteDiscrepancy "Auditor" auditor sourceText ++
    E.obligationDiscrepancy extractor auditor ++
    E.entityDiscrepancy extractor auditor ++
    E.factDiscrepancy extractor auditor ++
    E.confidenceDiscrepancy "Extractor" extractor ++
    E.confidenceDiscrepancy "Auditor" auditor

/-! ## Deliberation -/

/-- An argument as a rebuttal, after `n` rounds. -/
def rebuttal (n : Nat) (argument : AgentArgument) : AgentArgument :=
  { argument with
    roundNumber := n + 1
    isRebuttal := true
    roundNumber_pos := by omega }

/-- One round, after `n` others. -/
def round (sourceText : String) (n : Nat) (extractor auditor : AgentArgument) : ArbitrationRound :=
  let discrepancies := E.crossExamineRound extractor auditor sourceText
  { roundNumber := n + 1
    extractorArgument := extractor
    auditorArgument := auditor
    discrepancies := discrepancies
    hasMaterialDisagreement := discrepancies ≠ []
    roundNumber_pos := by omega }

/-- The rounds, at most `left` after `n` others, until one has no material disagreement. -/
def deliberate (sourceText : String) : Nat → Nat → AgentArgument → AgentArgument →
    List ArbitrationRound
  | 0, _, _, _ => []
  | left + 1, n, extractor, auditor =>
    let thisRound := E.round sourceText n extractor auditor
    if thisRound.hasMaterialDisagreement then
      thisRound :: deliberate sourceText left (n + 1) (rebuttal (n + 1) extractor)
        (rebuttal (n + 1) auditor)
    else [thisRound]

/-- A verdict drawn in this call. -/
def verdict (call : ArbitrationCall) (attribution : ModelAttribution) (outcome : ArbitrationOutcome)
    (confidence : UpTo 1) (justification : String) : ArbiterVerdict :=
  { verdictId := call.verdictId outcome
    outcome := outcome
    confidence := confidence
    justification := justification
    attribution := attribution
    decidedAt := call.decidedAt outcome }

/-- The transcript with a verdict on it. -/
def concluded (call : ArbitrationCall) (transcript : ArbitrationTranscript) (v : ArbiterVerdict) :
    ArbitrationTranscript :=
  { transcript with
    arbiterVerdict := some v
    finalOutcome := v.outcome
    completedAt := some (call.completedAt v.outcome)
    durationSeconds := some (call.durationSeconds v.outcome) }

/-- The lower of two confidences. -/
def minConfidence (a b : UpTo 1) : UpTo 1 := if b.val.toRat < a.val.toRat then b else a

/-- The verdict on a round without material disagreement. -/
def consensusVerdict (call : ArbitrationCall) (attribution : ModelAttribution)
    (sameModelRisk : Bool) (r : ArbitrationRound) : ArbiterVerdict :=
  let acceptedFacts := (validateCanonicalFacts r.extractorArgument.canonicalFacts).1
  let riskNote := if sameModelRisk then
    " [NOTE: Same-checkpoint reasoning used; independent verification recommended.]" else ""
  { verdict call attribution .consensus
      (minConfidence r.extractorArgument.confidence r.auditorArgument.confidence)
      ("Extractor and Auditor achieved consensus on round " ++ toString r.roundNumber ++ ". All " ++
        toString acceptedFacts.length ++ " canonical fact(s) verified against source quotes." ++
        riskNote) with
    chosenInterpretation := some r.extractorArgument.interpretation
    acceptedCanonicalFacts := acceptedFacts
    sameModelRisk := sameModelRisk }

/-- The verdict when the last of the rounds has a material disagreement. -/
def deadlockVerdict (call : ArbitrationCall) (attribution : ModelAttribution)
    (sameModelRisk : Bool) (rounds : List ArbitrationRound) (last : ArbitrationRound) :
    ArbiterVerdict :=
  let riskNote := if sameModelRisk then
    " [WARNING: Same-checkpoint reasoning detected. Arguments lack model diversity.]" else ""
  { verdict call attribution .reviewRequired ⟨⟨5, -1, by decide⟩, by decide +kernel⟩
      ("Multi-agent debate deadlocked after " ++ toString rounds.length ++
        " round(s). Unresolved discrepancies: " ++ "; ".intercalate last.discrepancies ++
        ". Escalated to Human-in-the-Loop review." ++ riskNote) with
    hitlEscalationReason := some "material_disagreement"
    sameModelRisk := sameModelRisk }

/-- `max_rounds or settings.arbitration_max_rounds`. -/
def roundsLimit (call : ArbitrationCall) : Int :=
  match call.maxRounds with
  | some n => if n = 0 then E.settings.arbitrationMaxRounds else n
  | none => E.settings.arbitrationMaxRounds

/-- `timeout_seconds or settings.arbitration_timeout_seconds`. -/
def timeLimit (call : ArbitrationCall) : Decimal :=
  match call.timeoutSeconds with
  | some t => if t.mantissa = 0 then E.settings.arbitrationTimeoutSeconds else t
  | none => E.settings.arbitrationTimeoutSeconds

def extractorArgument (call : ArbitrationCall) : AgentArgument :=
  call.extractorOverride.getD (E.generateDefaultArgument call .extractor)

def auditorArgument (call : ArbitrationCall) : AgentArgument :=
  call.auditorOverride.getD (E.generateDefaultArgument call .auditor)

/-- `_run_deliberation`, up to the save; without a round there is no last one. -/
def runDeliberation (call : ArbitrationCall) (attribution : ModelAttribution)
    (transcript : ArbitrationTranscript) : Except ArbitrationError ArbitrationTranscript :=
  let ext := E.extractorArgument call
  let aud := E.auditorArgument call
  let sameModelRisk := checkSameModelRisk ext aud attribution
  let rounds := E.deliberate call.clauseText (E.roundsLimit call).toNat 0 ext aud
  match rounds.getLast? with
  | none => .error (.indexError "list index out of range")
  | some last =>
    .ok (concluded call { transcript with rounds := rounds }
      (if last.hasMaterialDisagreement then
        deadlockVerdict call attribution sameModelRisk rounds last
      else consensusVerdict call attribution sameModelRisk last))

/-! ## `arbitrate_clause` -/

def injectionVerdict (call : ArbitrationCall) (attribution : ModelAttribution)
    (findings : List String) : ArbiterVerdict :=
  { verdict call attribution .securityBlocked ⟨⟨1, 0, by decide⟩, by decide +kernel⟩
      ("CRITICAL SECURITY ALERT: Adversarial prompt injection detected in regulatory text. " ++
        "Details: " ++ "; ".intercalate findings ++ ". " ++
        "Execution halted immediately; routed to HITL for administrative review.") with
    hitlEscalationReason := some "prompt_injection_detected"
    securityFlags := findings }

def timeoutVerdict (call : ArbitrationCall) (attribution : ModelAttribution) : ArbiterVerdict :=
  { verdict call attribution .timeout ⟨⟨0, 0, Decimal.shortest_zero⟩, by decide +kernel⟩
      ("Arbitration exceeded timeout limit (" ++ (E.timeLimit call).repr ++
        "s). Escalated to HITL.") with
    hitlEscalationReason := some "timeout" }

/-- `save_transcript` of the engine's store. -/
def save (J : TranscriptJson) (call : ArbitrationCall) (store : ArbitrationTranscriptStore)
    (transcript : ArbitrationTranscript) :
    Except ArbitrationError (ArbitrationTranscript × ArbitrationTranscriptStore) :=
  (store.saveTranscript J call.redisAnswer transcript).mapError .storeError

/-- The transcript that a call begins with. -/
def openTranscript (call : ArbitrationCall) : ArbitrationTranscript :=
  { sessionId := call.sessionId
    tenantId := call.tenantId
    circularId := call.circularId
    clauseId := call.clauseId
    sourceDocumentSha256 := call.sourceDocumentSha256
    clauseSha256 := call.clauseSha256
    untrustedSourceText := call.clauseText
    startedAt := call.startedAt }

/-- `arbitrate_clause`. -/
def arbitrateClause (J : TranscriptJson) (store : ArbitrationTranscriptStore)
    (call : ArbitrationCall) :
    Except ArbitrationError (ArbitrationTranscript × ArbitrationTranscriptStore) := do
  let transcript := openTranscript call
  let attribution ← E.resolveArbiterAttribution
  let findings := E.inspectForPromptInjection call.clauseText
  if findings ≠ [] then
    save J call store (concluded call transcript (injectionVerdict call attribution findings))
  else
    match call.timing with
    | .beforeStart =>
      save J call store (concluded call transcript (E.timeoutVerdict call attribution))
    | .inTime =>
      save J call store (← E.runDeliberation call attribution transcript)
    | .whileSaving applied =>
      let saved ← save J call store (← E.runDeliberation call attribution transcript)
      save J call (if applied then saved.2 else store)
        (concluded call saved.1 (E.timeoutVerdict call attribution))

end ArbitrationEngine

end RegEngine.Negotiation
