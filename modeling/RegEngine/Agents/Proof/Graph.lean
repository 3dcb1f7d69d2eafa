import RegEngine.Agents.Graph
import RegEngine.Lib.Except

/-!
# Runs of the agent graph

* `settledFrom`: the extraction with which the confidence gate lets a run pass to the audit, read off the
  stream of answers. From the gate the graph goes to the audit with this one, and by so many fallback
  nodes (`runs_gate`, `not_runs_gate`).
* `lastAnswers`: so the answers that a run ends with are read off the streams, and how many it has taken
  (`runs_lastAnswers`, `not_runs_of_lastAnswers`).
-/

namespace RegEngine.Agents

open Lib

def Answer.conforming? {α : Type} : Answer α → Option α
  | conforming a => some a
  | other _ | raised _ => none

namespace GraphInput

variable {input : GraphInput}

/-! ## Answers -/

theorem answered_of_conforming {α : Type} {node schema : String} {answer : Answer α} {a : α}
    (h : answer.conforming? = some a) : answered node schema answer = .ok a := by
  cases answer with
  | conforming b => cases h; rfl
  | other _ => cases h
  | raised _ => cases h

theorem answered_of_none {α : Type} (node schema : String) {answer : Answer α}
    (h : answer.conforming? = none) : ∃ failure, answered node schema answer = .error failure := by
  cases answer with
  | conforming b => cases h
  | other _ => exact ⟨_, rfl⟩
  | raised failure => exact ⟨failure, rfl⟩

/-- The extraction after which the gate passes to the audit: the `k`-th answer is `e`, and so many
fallbacks may follow. -/
def settledFrom (input : GraphInput) :
    Nat → Nat → ExtractedComplianceRule → Option (Nat × ExtractedComplianceRule)
  | 0, k, e => some (k, e)
  | budget + 1, k, e =>
    if e.extractionConfidence.lt input.settings.agentConfidenceThreshold then
      (input.calls.extractions (k + 1)).conforming?.bind (settledFrom input budget (k + 1))
    else some (k, e)

/-- The fallbacks that are left after so many. -/
def budgetAfter (input : GraphInput) (fallbackCount : Int) : Nat :=
  (input.settings.agentMaxFallbackAttempts - fallbackCount).toNat

/-- The answers that end a run: extraction and audit, and how many of each were taken. -/
structure LastAnswers where
  extracted : ExtractedComplianceRule
  audit : ComplianceRuleAudit
  revisionRound : Nat
  extractionCalls : Nat
  auditCalls : Nat

/-- One round of the graph, with the `k`-th extraction and the audit `j`. -/
def roundAnswers (input : GraphInput) (budget k j : Nat) :
    Option (Nat × ExtractedComplianceRule × ComplianceRuleAudit) := do
  let e ← (input.calls.extractions k).conforming?
  let (k', e') ← input.settledFrom budget k e
  let a ← (input.calls.audits j).conforming?
  return (k', e', a)

def lastAnswers (input : GraphInput) : Option LastAnswers := do
  let (k, e, a) ← input.roundAnswers (input.budgetAfter 0) 0 0
  if a.verdict = .needsRevision then
    let (k', e', a') ← input.roundAnswers (input.budgetAfter k) (k + 1) 1
    return ⟨e', a', if a'.verdict = .needsRevision then 2 else 1, k' + 1, 2⟩
  else return ⟨e, a, 0, k + 1, 1⟩

/-! ## From the gate to the audit -/

theorem settledFrom_bounds {budget k k' : Nat} {e e' : ExtractedComplianceRule}
    (h : input.settledFrom budget k e = some (k', e')) : k ≤ k' ∧ k' ≤ k + budget := by
  induction budget generalizing k e with
  | zero =>
    cases h
    omega
  | succ budget ih =>
    rw [settledFrom] at h
    split at h
    · obtain ⟨next, _, hnext⟩ := Option.bind_eq_some_iff.1 h
      have := ih hnext
      omega
    · cases h
      omega

/-- The state with which a run goes to the audit, its last extraction being the `k`-th at first and the
`k'`-th then. -/
structure Settled (input : GraphInput) (state state' : AgentGraphState) (k k' : Nat)
    (e : ExtractedComplianceRule) : Prop where
  extractedRule : state'.extractedRule = some (e.stamped input.chunk)
  extractionCalls : state'.extractionCalls = k' + 1
  fallbackCount : state'.fallbackCount = state.fallbackCount + (k' - k : Nat)
  routeTaken : state'.routeTaken = state.routeTaken
  auditCalls : state'.auditCalls = state.auditCalls
  revisionRound : state'.revisionRound = state.revisionRound
  nodes : state'.nodeHistory.length = state.nodeHistory.length + (k' - k)
  fallbacks : fallbackNodes state' = fallbackNodes state + (k' - k)

/-- The state's extraction is the `k`-th answer, `e`. -/
structure Extracted (input : GraphInput) (state : AgentGraphState) (k : Nat)
    (e : ExtractedComplianceRule) : Prop where
  extractedRule : state.extractedRule = some (e.stamped input.chunk)
  extractionConfidence : state.extractionConfidence = some e.extractionConfidence
  extractionCalls : state.extractionCalls = k + 1

/-- The state after the fallback node, whose answer is `e`. -/
def afterFallback (input : GraphInput) (state : AgentGraphState) (e : ExtractedComplianceRule) :
    AgentGraphState :=
  { state with
    extractedRule := some (e.stamped input.chunk)
    extractionConfidence := some e.extractionConfidence
    extractionModel := input.settings.agentFallbackModel
    fallbackCount := state.fallbackCount + 1
    usedFallback := true
    nodeHistory := state.nodeHistory ++ [.fallbackExtraction]
    extractionCalls := state.extractionCalls + 1 }

/-- Each node puts itself into the history. -/
theorem history_length {state state' : AgentGraphState} {node : Node}
    (h : input.buildAgentGraph.run state node = .ok state') :
    state'.nodeHistory.length = state.nodeHistory.length + 1 := by
  have hextraction : ∀ node modelOverride {s}, input.runExtractionNode state node modelOverride = .ok s →
      s.nodeHistory.length = state.nodeHistory.length + 1 := by
    intro node modelOverride s h
    obtain ⟨e, -, h⟩ := Except.bind_ok_iff.1 h
    cases h
    simp
  cases node with
  | classifyComplexity =>
    cases h
    simp [classifyComplexityNode]
  | standardExtraction | quantitativeParsing | referenceResolution => exact hextraction _ _ h
  | fallbackExtraction =>
    obtain ⟨s, hs, h⟩ := Except.bind_ok_iff.1 h
    cases h
    exact (hextraction _ _ hs :)
  | audit =>
    obtain ⟨a, -, h⟩ := Except.bind_ok_iff.1 h
    simp only at h
    split at h <;> cases h <;> simp

theorem run_fallback {state : AgentGraphState} {e : ExtractedComplianceRule}
    (h : (input.calls.extractions state.extractionCalls).conforming? = some e) :
    input.runNode state .fallbackExtraction = .ok (input.afterFallback state e) := by
  show input.fallbackExtractionNode state = _
  simp [fallbackExtractionNode, runExtractionNode, answered_of_conforming h, bind, Except.bind, pure,
    Except.pure, afterFallback]

theorem gate_of_lt {state : AgentGraphState} {k budget : Nat} {e : ExtractedComplianceRule}
    (hstate : Extracted input state k e) (hbudget : input.budgetAfter state.fallbackCount = budget + 1)
    (hlt : e.extractionConfidence.lt input.settings.agentConfidenceThreshold = true) :
    routeConfidenceGate input.settings state = .fallbackExtraction := by
  have hcount : state.fallbackCount < input.settings.agentMaxFallbackAttempts := by
    unfold budgetAfter at hbudget
    omega
  simp [routeConfidenceGate, hstate.extractionConfidence, hlt, hcount]

theorem gate_of_not {state : AgentGraphState} {k : Nat} {e : ExtractedComplianceRule}
    (hstate : Extracted input state k e)
    (hnot : input.budgetAfter state.fallbackCount = 0 ∨
      ¬ e.extractionConfidence.lt input.settings.agentConfidenceThreshold) :
    routeConfidenceGate input.settings state = .audit := by
  unfold routeConfidenceGate
  rw [hstate.extractionConfidence]
  apply if_neg
  rintro ⟨hlt, hcount⟩
  rcases hnot with hzero | hge
  · unfold budgetAfter at hzero
    omega
  · exact hge hlt

theorem extracted_afterFallback {state : AgentGraphState} {k : Nat} {e : ExtractedComplianceRule}
    (h : state.extractionCalls = k + 1) : Extracted input (input.afterFallback state e) (k + 1) e :=
  ⟨rfl, rfl, by simp [afterFallback, h]⟩

theorem budgetAfter_succ {f : Int} {budget : Nat} (h : input.budgetAfter f = budget + 1) :
    input.budgetAfter (f + 1) = budget := by
  unfold budgetAfter at *
  omega

/-- From the gate a run goes to the audit with the extraction that settles it. -/
theorem runs_gate {state : AgentGraphState} {budget k k' : Nat} {e e' : ExtractedComplianceRule}
    (hstate : Extracted input state k e) (hbudget : input.budgetAfter state.fallbackCount = budget)
    (hsettled : input.settledFrom budget k e = some (k', e')) :
    ∃ state', Settled input state state' k k' e' ∧ ∀ fin,
      input.buildAgentGraph.Runs state (routeConfidenceGate input.settings state) fin ↔
        input.buildAgentGraph.Runs state' .audit fin := by
  have hstay : k = k' → e = e' → Settled input state state k k' e' := by
    rintro rfl rfl
    exact ⟨hstate.extractedRule, hstate.extractionCalls, by simp, rfl, rfl, rfl, by simp, by simp⟩
  induction budget generalizing state k e with
  | zero =>
    cases hsettled
    exact ⟨state, hstay rfl rfl, fun fin => by rw [gate_of_not hstate (.inl hbudget)]⟩
  | succ budget ih =>
    rw [settledFrom] at hsettled
    split at hsettled
    · rename_i hlt
      obtain ⟨next, hnext, hsettled⟩ := Option.bind_eq_some_iff.1 hsettled
      rw [← hstate.extractionCalls] at hnext
      have hextracted : Extracted input (input.afterFallback state next) (k + 1) next :=
        extracted_afterFallback hstate.extractionCalls
      obtain ⟨state', h, hruns⟩ := ih hextracted (budgetAfter_succ hbudget) hsettled (by
        rintro rfl rfl
        exact ⟨hextracted.extractedRule, hextracted.extractionCalls, by simp, rfl, rfl, rfl, by simp,
          by simp⟩)
      obtain ⟨hle, -⟩ := settledFrom_bounds hsettled
      refine ⟨state', ⟨h.extractedRule, h.extractionCalls, ?_, h.routeTaken, h.auditCalls,
        h.revisionRound, ?_, ?_⟩, fun fin => ?_⟩
      · have := h.fallbackCount
        simp only [afterFallback] at this
        omega
      · have := h.nodes
        simp only [afterFallback, List.length_append, List.length_singleton] at this
        omega
      · have := h.fallbacks
        simp only [afterFallback, fallbackNodes, List.count_append, List.count_singleton_self] at this ⊢
        omega
      · rw [gate_of_lt hstate hbudget hlt, ← hruns fin]
        exact NodeGraph.runs_next_iff (run_fallback hnext) rfl
    · rename_i hge
      cases hsettled
      exact ⟨state, hstay rfl rfl, fun fin => by rw [gate_of_not hstate (.inr hge)]⟩

/-- A stream whose answers fail before the gate is passed ends no run. -/
theorem not_runs_gate {state fin : AgentGraphState} {budget k : Nat} {e : ExtractedComplianceRule}
    (hstate : Extracted input state k e) (hbudget : input.budgetAfter state.fallbackCount = budget)
    (hsettled : input.settledFrom budget k e = none) :
    ¬ input.buildAgentGraph.Runs state (routeConfidenceGate input.settings state) fin := by
  induction budget generalizing state k e with
  | zero => cases hsettled
  | succ budget ih =>
    rw [settledFrom] at hsettled
    split at hsettled
    · rename_i hlt
      rw [gate_of_lt hstate hbudget hlt]
      cases hnext : (input.calls.extractions state.extractionCalls).conforming? with
      | none =>
        obtain ⟨failure, hfailure⟩ := answered_of_none (Node.value .fallbackExtraction)
          "ExtractedComplianceRule" hnext
        apply NodeGraph.not_runs_of_error (e := failure)
        show input.fallbackExtractionNode state = _
        simp [fallbackExtractionNode, runExtractionNode, hfailure, bind, Except.bind]
      | some next =>
        intro h
        have hanswer := hnext
        rw [hstate.extractionCalls] at hanswer
        rw [hanswer, Option.bind_some] at hsettled
        exact ih (extracted_afterFallback hstate.extractionCalls) (budgetAfter_succ hbudget) hsettled
          ((NodeGraph.runs_next_iff (run_fallback hnext) rfl).1 h)
    · cases hsettled

/-! ## A round: extraction, fallbacks and audit -/

/-- The state that the audit leaves. -/
structure Audited (input : GraphInput) (state state' : AgentGraphState) (k k' : Nat)
    (e : ExtractedComplianceRule) (a : ComplianceRuleAudit) : Prop where
  extractedRule : state'.extractedRule = some (e.stamped input.chunk)
  auditResult : state'.auditResult = some a
  extractionCalls : state'.extractionCalls = k' + 1
  auditCalls : state'.auditCalls = state.auditCalls + 1
  fallbackCount : state'.fallbackCount = state.fallbackCount + (k' - k : Nat)
  revisionRound : state'.revisionRound =
    state.revisionRound + if a.verdict = .needsRevision then 1 else 0
  nodes : state'.nodeHistory.length = state.nodeHistory.length + (k' - k) + 2
  fallbacks : fallbackNodes state' = fallbackNodes state + (k' - k)

/-- The state after an extraction node, whose answer is `e`. -/
def afterExtraction (input : GraphInput) (state : AgentGraphState) (node : Node)
    (e : ExtractedComplianceRule) : AgentGraphState :=
  { state with
    extractedRule := some (e.stamped input.chunk)
    extractionConfidence := some e.extractionConfidence
    extractionModel := "primary"
    nodeHistory := state.nodeHistory ++ [node]
    extractionCalls := state.extractionCalls + 1 }

theorem extracted_afterExtraction (state : AgentGraphState) (node : Node)
    (e : ExtractedComplianceRule) :
    Extracted input (input.afterExtraction state node e) state.extractionCalls e :=
  ⟨rfl, rfl, rfl⟩

/-- The state after the audit node, whose answer is `a`. -/
def afterAudit (state : AgentGraphState) (a : ComplianceRuleAudit) : AgentGraphState :=
  let result := { state with
    auditResult := some a
    nodeHistory := state.nodeHistory ++ [.audit]
    auditCalls := state.auditCalls + 1 }
  if a.verdict = .needsRevision then
    { result with
      priorFindings := some a.findings
      revisionRound := state.revisionRound + 1 }
  else result

theorem routeByComplexity_cases (state : AgentGraphState) :
    routeByComplexity state = .standardExtraction ∨ routeByComplexity state = .quantitativeParsing ∨
      routeByComplexity state = .referenceResolution := by
  unfold routeByComplexity
  cases state.routeTaken with
  | standard => exact .inl rfl
  | quantitative => exact .inr (.inl rfl)
  | referenceResolution => exact .inr (.inr rfl)

/-- The route's node is an extraction node, with the gate after it. -/
theorem run_route (input : GraphInput) (state : AgentGraphState) :
    input.runNode state (routeByComplexity state) =
      input.runExtractionNode state (routeByComplexity state) none ∧
    (∀ s, nextNode input.settings s (routeByComplexity state) =
      some (routeConfidenceGate input.settings s)) ∧
    routeByComplexity state ≠ .fallbackExtraction := by
  rcases routeByComplexity_cases state with h | h | h <;> rw [h] <;>
    exact ⟨rfl, fun _ => rfl, (fun h => by cases h)⟩

theorem run_extraction {state : AgentGraphState} {node : Node} {e : ExtractedComplianceRule}
    (h : (input.calls.extractions state.extractionCalls).conforming? = some e) :
    input.runExtractionNode state node none = .ok (input.afterExtraction state node e) := by
  simp [runExtractionNode, answered_of_conforming h, bind, Except.bind, pure, Except.pure,
    afterExtraction]

theorem run_audit {state : AgentGraphState} {a : ComplianceRuleAudit}
    (h : (input.calls.audits state.auditCalls).conforming? = some a) :
    input.runNode state .audit = .ok (afterAudit state a) := by
  show input.auditNode state = _
  simp only [auditNode, answered_of_conforming h, bind, Except.bind, pure, Except.pure, afterAudit]
  split <;> rfl

/-- The audit of what the gate passed. -/
theorem audited_afterAudit {state state' : AgentGraphState} {node : Node} {k k' : Nat}
    {e₀ e : ExtractedComplianceRule} {a : ComplianceRuleAudit} (hnode : node ≠ .fallbackExtraction)
    (h : Settled input (input.afterExtraction state node e₀) state' k k' e) :
    Audited input state (afterAudit state' a) k k' e a := by
  obtain ⟨hrule, hcalls, hcount, -, haudits, hround, hnodes, hfallbacks⟩ := h
  simp only [afterExtraction, List.length_append, List.length_singleton] at hcount haudits hround hnodes
  simp only [fallbackNodes, afterExtraction, List.count_append,
    List.count_singleton, beq_eq_false_iff_ne.2 hnode] at hfallbacks
  constructor <;> unfold afterAudit <;> split <;>
    simp [hrule, hcalls, hcount, haudits, hround, fallbackNodes, List.count_append, hfallbacks, hnodes] <;>
    omega

theorem roundAnswers_eq_some {budget k j k' : Nat} {e' : ExtractedComplianceRule}
    {a : ComplianceRuleAudit} :
    input.roundAnswers budget k j = some (k', e', a) ↔
      ∃ e, (input.calls.extractions k).conforming? = some e ∧
        input.settledFrom budget k e = some (k', e') ∧
        (input.calls.audits j).conforming? = some a := by
  unfold roundAnswers
  constructor
  · intro h
    obtain ⟨e, he, h⟩ := Option.bind_eq_some_iff.1 h
    obtain ⟨⟨l, f⟩, hf, h⟩ := Option.bind_eq_some_iff.1 h
    obtain ⟨b, hb, h⟩ := Option.bind_eq_some_iff.1 h
    cases h
    exact ⟨e, he, hf, hb⟩
  · rintro ⟨e, he, hf, hb⟩
    simp [he, hf, hb]

/-- A round ends after its audit, and the edge decides on the next one. -/
theorem runs_round {state : AgentGraphState} {budget k' : Nat} {e' : ExtractedComplianceRule}
    {a : ComplianceRuleAudit} (hbudget : input.budgetAfter state.fallbackCount = budget)
    (hround : input.roundAnswers budget state.extractionCalls state.auditCalls = some (k', e', a)) :
    ∃ state', Audited input state state' state.extractionCalls k' e' a ∧ ∀ fin,
      input.buildAgentGraph.Runs state (routeByComplexity state) fin ↔
        if a.verdict = .needsRevision ∧ state'.revisionRound < maxRevisionRounds then
          input.buildAgentGraph.Runs state' (routeByComplexity state') fin
        else fin = state' := by
  obtain ⟨e, he, hsettled, ha⟩ := roundAnswers_eq_some.1 hround
  obtain ⟨hrun, hnext, hnode⟩ := run_route input state
  obtain ⟨state', h, hruns⟩ := runs_gate (extracted_afterExtraction state _ e) hbudget hsettled
  refine ⟨afterAudit state' a, audited_afterAudit hnode h, fun fin => ?_⟩
  have haudit : (input.calls.audits state'.auditCalls).conforming? = some a := by
    rw [h.auditCalls]
    exact ha
  have hverdict : (afterAudit state' a).auditResult.map (·.verdict) = some a.verdict := by
    unfold afterAudit
    split <;> rfl
  rw [NodeGraph.runs_next_iff (hrun.trans (run_extraction he)) (hnext _), hruns]
  split
  · rename_i hagain
    apply NodeGraph.runs_next_iff (run_audit haudit)
    show routeAfterAudit _ = _
    rw [routeAfterAudit, hverdict, if_pos ⟨by rw [hagain.1], hagain.2⟩]
  · rename_i hend
    apply NodeGraph.runs_last_iff (run_audit haudit)
    show routeAfterAudit _ = _
    simp only [routeAfterAudit, hverdict, Option.some.injEq, if_neg hend]

theorem not_runs_round {state fin : AgentGraphState} {budget : Nat}
    (hbudget : input.budgetAfter state.fallbackCount = budget)
    (hround : input.roundAnswers budget state.extractionCalls state.auditCalls = none) :
    ¬ input.buildAgentGraph.Runs state (routeByComplexity state) fin := by
  obtain ⟨hrun, hnext, -⟩ := run_route input state
  cases he : (input.calls.extractions state.extractionCalls).conforming? with
  | none =>
    obtain ⟨failure, hfailure⟩ := answered_of_none (routeByComplexity state).value
      "ExtractedComplianceRule" he
    apply NodeGraph.not_runs_of_error (e := failure)
    refine hrun.trans ?_
    simp [runExtractionNode, hfailure, bind, Except.bind]
  | some e =>
    rw [NodeGraph.runs_next_iff (hrun.trans (run_extraction he)) (hnext _)]
    cases hsettled : input.settledFrom budget state.extractionCalls e with
    | none => exact not_runs_gate ⟨rfl, rfl, rfl⟩ hbudget hsettled
    | some settled =>
      obtain ⟨k', e'⟩ := settled
      obtain ⟨state', h, hruns⟩ := runs_gate
        (extracted_afterExtraction state (routeByComplexity state) e) hbudget hsettled
      rw [hruns]
      have ha : (input.calls.audits state'.auditCalls).conforming? = none := by
        rw [h.auditCalls]
        show (input.calls.audits state.auditCalls).conforming? = none
        cases ha : (input.calls.audits state.auditCalls).conforming? with
        | none => rfl
        | some a => cases hround.symm.trans (roundAnswers_eq_some.2 ⟨e, he, hsettled, ha⟩)
      obtain ⟨failure, hfailure⟩ := answered_of_none "audit_node" "ComplianceRuleAudit" ha
      apply NodeGraph.not_runs_of_error (e := failure)
      show input.auditNode state' = _
      simp [auditNode, hfailure, bind, Except.bind]

/-! ## Whole runs -/

/-- The nodes of a run: the classification, and one for each answer taken. -/
def LastAnswers.nodes (last : LastAnswers) : Nat := 1 + last.extractionCalls + last.auditCalls

/-- The state in which a run ends. -/
structure EndsWith (input : GraphInput) (fin : AgentGraphState) (last : LastAnswers) : Prop where
  extractedRule : fin.extractedRule = some (last.extracted.stamped input.chunk)
  auditResult : fin.auditResult = some last.audit
  revisionRound : fin.revisionRound = last.revisionRound
  extractionCalls : fin.extractionCalls = last.extractionCalls
  nodes : fin.nodeHistory.length = last.nodes
  /-- Each audit is of one extraction node; the other extractions are fallbacks. -/
  fallbacks : fallbackNodes fin + last.auditCalls = last.extractionCalls
  budget : fallbackNodes fin ≤ input.budgetAfter 0

theorem roundAnswers_bounds {budget k j k' : Nat} {e : ExtractedComplianceRule}
    {a : ComplianceRuleAudit} (h : input.roundAnswers budget k j = some (k', e, a)) :
    k ≤ k' ∧ k' ≤ k + budget := by
  obtain ⟨_, _, hsettled, _⟩ := roundAnswers_eq_some.1 h
  exact settledFrom_bounds hsettled

theorem runs_classify_iff {fin : AgentGraphState} :
    input.buildAgentGraph.Runs {} .classifyComplexity fin ↔
      input.buildAgentGraph.Runs (input.classifyComplexityNode {})
        (routeByComplexity (input.classifyComplexityNode {})) fin :=
  NodeGraph.runs_next_iff rfl rfl

theorem lastAnswers_cases {last : LastAnswers} (h : input.lastAnswers = some last) :
    ∃ k e a, input.roundAnswers (input.budgetAfter 0) 0 0 = some (k, e, a) ∧
      ((a.verdict ≠ .needsRevision ∧ last = ⟨e, a, 0, k + 1, 1⟩) ∨
        (a.verdict = .needsRevision ∧ ∃ k' e' a',
          input.roundAnswers (input.budgetAfter k) (k + 1) 1 = some (k', e', a') ∧
          last = ⟨e', a', if a'.verdict = .needsRevision then 2 else 1, k' + 1, 2⟩)) := by
  obtain ⟨⟨k, e, a⟩, hfirst, h⟩ := Option.bind_eq_some_iff.1 h
  refine ⟨k, e, a, hfirst, ?_⟩
  simp only at h
  split at h
  · rename_i hverdict
    obtain ⟨⟨k', e', a'⟩, hsecond, h⟩ := Option.bind_eq_some_iff.1 h
    exact .inr ⟨hverdict, k', e', a', hsecond, (Option.some.inj h).symm⟩
  · rename_i hverdict
    exact .inl ⟨hverdict, (Option.some.inj h).symm⟩

/-- The first round, which starts after the classification. -/
theorem runs_first {k : Nat} {e : ExtractedComplianceRule} {a : ComplianceRuleAudit}
    (h : input.roundAnswers (input.budgetAfter 0) 0 0 = some (k, e, a)) :
    ∃ state, Audited input (input.classifyComplexityNode {}) state 0 k e a ∧
      input.budgetAfter state.fallbackCount = input.budgetAfter k ∧ ∀ fin,
        input.buildAgentGraph.Runs {} .classifyComplexity fin ↔
          if a.verdict = .needsRevision then
            input.buildAgentGraph.Runs state (routeByComplexity state) fin
          else fin = state := by
  have hstart : input.budgetAfter (input.classifyComplexityNode {}).fallbackCount = input.budgetAfter 0 :=
    rfl
  obtain ⟨state, hstate, hruns⟩ := runs_round hstart h
  have hrevision : state.revisionRound < maxRevisionRounds := by
    rw [hstate.revisionRound]
    show 0 + _ < 2
    split <;> omega
  refine ⟨state, hstate, ?_, fun fin => ?_⟩
  · rw [hstate.fallbackCount]
    show input.budgetAfter (0 + ((k - 0 : Nat) : Int)) = _
    rw [Nat.sub_zero, Int.zero_add]
  · rw [runs_classify_iff, hruns fin]
    simp only [hrevision, and_true]

/-- The graph takes the answers that `lastAnswers` reads off the streams. -/
theorem runs_lastAnswers {last : LastAnswers} (h : input.lastAnswers = some last) :
    ∃ fin, input.buildAgentGraph.Runs {} .classifyComplexity fin ∧ EndsWith input fin last := by
  obtain ⟨k, e, a, hfirst, hlast⟩ := lastAnswers_cases h
  obtain ⟨-, hk⟩ := roundAnswers_bounds hfirst
  obtain ⟨s, hs, hbudget, hruns⟩ := runs_first hfirst
  have hnodes : s.nodeHistory.length = 1 + k + 2 := hs.nodes
  have hfallbacks : fallbackNodes s = 0 + k := hs.fallbacks
  have haudits : s.auditCalls = 1 := hs.auditCalls
  rcases hlast with ⟨hverdict, rfl⟩ | ⟨hverdict, k', e', a', hsecond, rfl⟩
  · refine ⟨s, (hruns s).2 (by rw [if_neg hverdict]), hs.extractedRule, hs.auditResult, ?_,
      hs.extractionCalls, ?_, ?_, ?_⟩
    · rw [hs.revisionRound, if_neg hverdict]
      rfl
    · show _ = 1 + (k + 1) + 1
      omega
    · show fallbackNodes s + 1 = k + 1
      omega
    · omega
  · -- The first audit sends the clause back: the round that follows is the last one.
    obtain ⟨hle, hk'⟩ := roundAnswers_bounds hsecond
    rw [← hs.extractionCalls, ← haudits] at hsecond
    obtain ⟨t, ht, hruns'⟩ := runs_round hbudget hsecond
    have hrevision : t.revisionRound = 1 + if a'.verdict = .needsRevision then 1 else 0 := by
      rw [ht.revisionRound, hs.revisionRound, if_pos hverdict]
      rfl
    have hstop : ¬ (a'.verdict = .needsRevision ∧ t.revisionRound < maxRevisionRounds) := by
      rintro ⟨hagain, hlt⟩
      rw [hrevision, if_pos hagain] at hlt
      exact absurd hlt (by decide)
    have hnodes' := ht.nodes
    have hfallbacks' := ht.fallbacks
    rw [hs.extractionCalls] at hnodes' hfallbacks'
    refine ⟨t, ?_, ht.extractedRule, ht.auditResult, ?_, ht.extractionCalls, ?_, ?_, ?_⟩
    · rw [hruns, if_pos hverdict, hruns', if_neg hstop]
    · show t.revisionRound = if a'.verdict = .needsRevision then 2 else 1
      rw [hrevision]
      split <;> rfl
    · show _ = 1 + (k' + 1) + 2
      omega
    · show fallbackNodes t + 2 = k' + 1
      omega
    · unfold budgetAfter at *
      omega

theorem not_runs_of_lastAnswers {fin : AgentGraphState} (h : input.lastAnswers = none) :
    ¬ input.buildAgentGraph.Runs {} .classifyComplexity fin := by
  cases hfirst : input.roundAnswers (input.budgetAfter 0) 0 0 with
  | none =>
    rw [runs_classify_iff]
    exact not_runs_round rfl hfirst
  | some first =>
    obtain ⟨k, e, a⟩ := first
    simp only [lastAnswers, hfirst, bind, Option.bind_some] at h
    obtain ⟨s, hs, hbudget, hruns⟩ := runs_first hfirst
    split at h
    · rename_i hverdict
      have hsecond : input.roundAnswers (input.budgetAfter k) (k + 1) 1 = none := by
        cases hsecond : input.roundAnswers (input.budgetAfter k) (k + 1) 1 with
        | none => rfl
        | some second => simp [hsecond] at h
      have haudits : s.auditCalls = 1 := hs.auditCalls
      rw [← hs.extractionCalls, ← haudits] at hsecond
      rw [hruns, if_pos hverdict]
      exact not_runs_round hbudget hsecond
    · cases h

theorem ainvoke_ok_iff {limit : Nat} {fin : AgentGraphState} : input.ainvoke limit = .ok fin ↔
    input.buildAgentGraph.Runs {} .classifyComplexity fin ∧ fin.nodeHistory.length ≤ limit := by
  rw [ainvoke, NodeGraph.runFrom_ok_iff history_length]
  simp

/-- `run_graph_pipeline` returns the last answers, when the recursion limit allows their nodes. -/
theorem runGraphPipeline_ok_iff {limit : Nat} {out : AuditedComplianceRule × Nat} :
    input.runGraphPipeline limit = .ok out ↔ ∃ last, input.lastAnswers = some last ∧
      last.nodes ≤ limit ∧
      out = (⟨last.extracted.stamped input.chunk, last.audit, last.revisionRound⟩,
        last.extractionCalls) := by
  cases hlast : input.lastAnswers with
  | none =>
    cases hrun : input.ainvoke limit with
    | error e => simp [runGraphPipeline, hrun, bind, Except.bind]
    | ok fin => exact absurd (ainvoke_ok_iff.1 hrun).1 (not_runs_of_lastAnswers hlast)
  | some last =>
    obtain ⟨fin, hruns, hends⟩ := runs_lastAnswers hlast
    have hnodes := hends.nodes
    cases hrun : input.ainvoke limit with
    | error e =>
      have : ¬ last.nodes ≤ limit := by
        intro hle
        cases hrun.symm.trans (ainvoke_ok_iff.2 ⟨hruns, hnodes ▸ hle⟩)
      simp [runGraphPipeline, hrun, bind, Except.bind, this]
    | ok fin' =>
      obtain ⟨hruns', hlength⟩ := ainvoke_ok_iff.1 hrun
      cases hruns'.unique hruns
      have hle : last.nodes ≤ limit := hnodes ▸ hlength
      simp [runGraphPipeline, hrun, bind, Except.bind, pure, Except.pure, hends.extractedRule,
        hends.auditResult, hends.revisionRound, hends.extractionCalls, hle, eq_comm]

end GraphInput

end RegEngine.Agents
