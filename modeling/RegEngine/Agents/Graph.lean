import RegEngine.Agents.OutputGuard
import RegEngine.Lib.NodeGraph

/-!
# The crew loop

`_run_crew_once` and `_run_crew_loop` of `app/agents/crew.py`. The prompts are left out: an agent's answer
is the next one of its stream, whatever the findings fed back to it. The loop also returns how often it
asked for an extraction.
-/

namespace RegEngine.Agents

open Lib.Python

def maxRevisionRounds : Nat := 2

/-- `str(type(answer))`. -/
def Answer.typeText {α : Type} (schema : String) : Answer α → String
  | conforming _ => "<class 'app.agents.schemas." ++ schema ++ "'>"
  | other typeText => typeText
  | raised _ => "<class 'NoneType'>"

/-- What `_run_crew_once` raises when `kickoff` does. -/
def kickoffFailure (lower : String → String) (failure : Failure) : Failure :=
  let excStr := lower failure.text
  if contains excStr "timeout" || contains excStr "timed out" then
    ⟨"ProviderTimeoutError", "Crew execution timed out: " ++ failure.text⟩
  else ⟨"ProviderExecutionError", "Crew execution failed: " ++ failure.text⟩

/-- The answers of one kickoff: extraction first, and the audit of it. -/
def kickoff (lower : String → String) :
    Answer ExtractedComplianceRule → Answer ComplianceRuleAudit →
      Except Failure (ExtractedComplianceRule × ComplianceRuleAudit)
  | .raised failure, _ => .error (kickoffFailure lower failure)
  | _, .raised failure => .error (kickoffFailure lower failure)
  | .conforming extracted, .conforming audit => .ok (extracted, audit)
  | extracted, audit => .error ⟨"MalformedOutputError",
      "Crew did not return schema-conformant output (extracted=" ++
        extracted.typeText "ExtractedComplianceRule" ++ ", audit=" ++
        audit.typeText "ComplianceRuleAudit" ++ "); refusing to persist."⟩

/-- `_run_crew_once`, the kickoff being the run's `round`-th. -/
def runCrewOnce (tools : TextTools) (calls : Calls) (chunk : ClauseChunk) (round : Nat) :
    Except Failure (ExtractedComplianceRule × ComplianceRuleAudit) := do
  let (extracted, audit) ← kickoff tools.lower (calls.extractions round) (calls.audits round)
  guardAndValidateExtraction tools (calls.crewGuards round) (extracted.stamped chunk) audit chunk

/-- The rounds of the loop from `round` on; so many may still follow this one. -/
def crewRounds (tools : TextTools) (calls : Calls) (chunk : ClauseChunk) :
    Nat → Nat → Except Failure (AuditedComplianceRule × Nat)
  | 0, round => do
    let (extracted, audit) ← runCrewOnce tools calls chunk round
    let roundIdx := if audit.verdict = .needsRevision then maxRevisionRounds else round
    return (⟨extracted, audit, roundIdx⟩, round + 1)
  | left + 1, round => do
    let (extracted, audit) ← runCrewOnce tools calls chunk round
    if audit.verdict = .needsRevision then crewRounds tools calls chunk left (round + 1)
    else return (⟨extracted, audit, round⟩, round + 1)

/-- `_run_crew_loop`, and how many extractions it asked for. -/
def runCrewLoop (tools : TextTools) (calls : Calls) (chunk : ClauseChunk) :
    Except Failure (AuditedComplianceRule × Nat) :=
  crewRounds tools calls chunk maxRevisionRounds 0

end RegEngine.Agents

/-!
## The agent graph

The nodes (`nodes.py`), the edges (`edges.py`) and the run (`graph.py`) of `app/agents/graph`. LangGraph
runs one node at a time, merges the keys it returns and asks the edge for the next one. Left out are the
prompts, the store of node executions and token usage; `extractionCalls` and `auditCalls` are the answers
taken so far. The clause's route is what `detect_complexity` finds in it.
-/

namespace RegEngine.Agents

open Lib

inductive ComplexityRoute where
  | standard
  | quantitative
  | referenceResolution
  deriving DecidableEq, Repr

inductive Node where
  | classifyComplexity
  | standardExtraction
  | quantitativeParsing
  | referenceResolution
  | fallbackExtraction
  | audit
  deriving DecidableEq, Repr

def Node.value : Node → String
  | classifyComplexity => "classify_complexity"
  | standardExtraction => "standard_extraction"
  | quantitativeParsing => "quantitative_parsing"
  | referenceResolution => "reference_resolution"
  | fallbackExtraction => "fallback_extraction"
  | audit => "audit"

/-- `AgentGraphState`. -/
structure AgentGraphState where
  routeTaken : ComplexityRoute := .standard
  extractedRule : Option ExtractedComplianceRule := none
  extractionConfidence : Option Binary64 := none
  extractionModel : String := ""
  fallbackCount : Int := 0
  usedFallback : Bool := false
  auditResult : Option ComplianceRuleAudit := none
  priorFindings : Option (List AuditFinding) := none
  revisionRound : Nat := 0
  nodeHistory : List Node := []
  extractionCalls : Nat := 0
  auditCalls : Nat := 0

/-- What a graph run is given: `detect_complexity` of the clause, and the settings of its state. -/
structure GraphInput where
  chunk : ClauseChunk
  settings : Settings
  calls : Calls
  detectComplexity : ClauseChunk → ComplexityRoute

namespace GraphInput

variable (input : GraphInput)

/-! ### Nodes -/

/-- The failure of a node whose answer is not of the schema. -/
def nodeFailure (node schema : String) : Failure :=
  ⟨"ValueError", node ++ ": crew did not return a schema-conformant " ++ schema ++ "."⟩

/-- The instance of the schema, or what the node raises. -/
def answered {α : Type} (node schema : String) : Answer α → Except Failure α
  | .conforming a => .ok a
  | .other _ => .error (nodeFailure node schema)
  | .raised failure => .error failure

def classifyComplexityNode (state : AgentGraphState) : AgentGraphState :=
  { state with
    routeTaken := input.detectComplexity input.chunk
    nodeHistory := state.nodeHistory ++ [.classifyComplexity] }

/-- `_run_extraction_node`. -/
def runExtractionNode (state : AgentGraphState) (node : Node) (modelOverride : Option String) :
    Except Failure AgentGraphState := do
  let extracted ← answered node.value "ExtractedComplianceRule"
    (input.calls.extractions state.extractionCalls)
  return { state with
    extractedRule := some (extracted.stamped input.chunk)
    extractionConfidence := some extracted.extractionConfidence
    extractionModel := modelOverride.getD "primary"
    nodeHistory := state.nodeHistory ++ [node]
    extractionCalls := state.extractionCalls + 1 }

def fallbackExtractionNode (state : AgentGraphState) : Except Failure AgentGraphState := do
  let result ← input.runExtractionNode state .fallbackExtraction
    (some input.settings.agentFallbackModel)
  return { result with fallbackCount := state.fallbackCount + 1, usedFallback := true }

def auditNode (state : AgentGraphState) : Except Failure AgentGraphState := do
  let audit ← answered "audit_node" "ComplianceRuleAudit" (input.calls.audits state.auditCalls)
  let result := { state with
    auditResult := some audit
    nodeHistory := state.nodeHistory ++ [.audit]
    auditCalls := state.auditCalls + 1 }
  -- The revision round is counted here, before the edge compares it.
  if audit.verdict = .needsRevision then
    return { result with
      priorFindings := some audit.findings
      revisionRound := state.revisionRound + 1 }
  else return result

def runNode (state : AgentGraphState) : Node → Except Failure AgentGraphState
  | .classifyComplexity => .ok (input.classifyComplexityNode state)
  | .fallbackExtraction => input.fallbackExtractionNode state
  | .audit => input.auditNode state
  | node => input.runExtractionNode state node none

end GraphInput

/-! ### Edges -/

/-- `_ROUTE_TO_NODE`. -/
def routeByComplexity (state : AgentGraphState) : Node :=
  match state.routeTaken with
  | .standard => .standardExtraction
  | .quantitative => .quantitativeParsing
  | .referenceResolution => .referenceResolution

def routeConfidenceGate (settings : Settings) (state : AgentGraphState) : Node :=
  match state.extractionConfidence with
  | none => .audit
  | some confidence =>
    if confidence.lt settings.agentConfidenceThreshold ∧
        state.fallbackCount < settings.agentMaxFallbackAttempts then .fallbackExtraction
    else .audit

/-- `route_after_audit`; nothing is `END`. -/
def routeAfterAudit (state : AgentGraphState) : Option Node :=
  if state.auditResult.map (·.verdict) = some .needsRevision ∧ state.revisionRound < maxRevisionRounds then
    some (routeByComplexity state)
  else none

/-- The node after this one. -/
def nextNode (settings : Settings) (state : AgentGraphState) : Node → Option Node
  | .classifyComplexity => some (routeByComplexity state)
  | .audit => routeAfterAudit state
  | _ => some (routeConfidenceGate settings state)

namespace GraphInput

variable (input : GraphInput)

/-! ### Runs -/

/-- LangGraph's error at its recursion limit. -/
def recursionFailure : Failure := ⟨"GraphRecursionError", "Recursion limit reached"⟩

/-- `build_agent_graph`. -/
def buildAgentGraph : NodeGraph AgentGraphState Node Failure where
  run := input.runNode
  next := nextNode input.settings

/-- `graph.ainvoke`. -/
def ainvoke (limit : Nat) : Except Failure AgentGraphState :=
  input.buildAgentGraph.runFrom recursionFailure limit {} .classifyComplexity

def fallbackNodes (state : AgentGraphState) : Nat := state.nodeHistory.count .fallbackExtraction

/-- A key that the final state lacks. -/
def missingKey (key : String) : Failure := ⟨"KeyError", "'" ++ key ++ "'"⟩

/-- `run_graph_pipeline`, and how many extractions it asked for. -/
def runGraphPipeline (limit : Nat) : Except Failure (AuditedComplianceRule × Nat) := do
  let finalState ← input.ainvoke limit
  match finalState.extractedRule, finalState.auditResult with
  | some extracted, some audit =>
    return (⟨extracted, audit, finalState.revisionRound⟩, finalState.extractionCalls)
  | none, _ => .error (missingKey "extracted_rule")
  | _, none => .error (missingKey "audit_result")

end GraphInput

end RegEngine.Agents
