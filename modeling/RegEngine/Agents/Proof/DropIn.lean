import RegEngine.Agents.Providers
import RegEngine.Agents.Proof.Graph

/-!
# The graph in place of the crew loop

On one stream of answers the crew loop makes up to three attempts and the graph up to two
(`runCrewLoop_eq`, `lastAnswers_eq`): the graph counts a revision before it compares the count. They part
where the first two audits both ask for a revision. `graph_replaces_crew`.
-/

namespace RegEngine.Agents

open Lib GraphInput

/-- The calls of a run in which every task ends with an instance of its schema. -/
def answering (answers : Nat → ExtractedComplianceRule) (audits : Nat → ComplianceRuleAudit) : Calls where
  extractions n := .conforming (answers n)
  audits n := .conforming (audits n)
  crewGuards _ := none
  offlineGuard := none

/-- No extraction is below the threshold. -/
def Confident (settings : Settings) (answers : Nat → ExtractedComplianceRule) : Prop :=
  ∀ n, ¬ (answers n).extractionConfidence.lt settings.agentConfidenceThreshold

/-- The output guard leaves each attempt as it is. -/
def GuardUnchanged (tools : TextTools) (chunk : ClauseChunk) (answers : Nat → ExtractedComplianceRule)
    (audits : Nat → ComplianceRuleAudit) : Prop :=
  ∀ n, guardAndValidateExtraction tools none ((answers n).stamped chunk) (audits n) chunk =
    .ok ((answers n).stamped chunk, audits n)

/-- As many attempts, and the same rule, verdict and revision round. -/
structure SameOutcome (graph crew : AuditedComplianceRule × Nat) : Prop where
  attempts : graph.2 = crew.2
  rule : graph.1.rule = crew.1.rule
  verdict : graph.1.audit.verdict = crew.1.audit.verdict
  revisionRound : graph.1.revisionRound = crew.1.revisionRound

/-- What makes the graph a drop-in replacement, on one clause and these streams: for confident answers
that the guard leaves alone it returns what the crew loop does, and it reaches `END` whatever the
confidences, with no more fallback nodes than the setting allows. The recursion limit is not reached. -/
structure DropIn (env : Environment) (settings : Settings) (chunk : ClauseChunk)
    (answers : Nat → ExtractedComplianceRule) (audits : Nat → ComplianceRuleAudit) : Prop where
  same : Confident settings answers → GuardUnchanged env.tools chunk answers audits →
    ∃ crew, runCrewLoop env.tools (answering answers audits) chunk = .ok crew ∧
      ∃ nodes, ∀ limit, nodes ≤ limit → ∃ graph,
        (graphInput env (answering answers audits) settings chunk).runGraphPipeline limit = .ok graph ∧
          SameOutcome graph crew
  reaches : ∃ nodes, ∀ limit, nodes ≤ limit → ∃ fin,
    (graphInput env (answering answers audits) settings chunk).ainvoke limit = .ok fin ∧
      (fallbackNodes fin : Int) ≤ settings.agentMaxFallbackAttempts

variable {env : Environment} {settings : Settings} {chunk : ClauseChunk}
variable {answers : Nat → ExtractedComplianceRule} {audits : Nat → ComplianceRuleAudit}

/-! ## The crew loop -/

theorem runCrewOnce_eq (h : GuardUnchanged env.tools chunk answers audits) (round : Nat) :
    runCrewOnce env.tools (answering answers audits) chunk round =
      .ok ((answers round).stamped chunk, audits round) := by
  simp [runCrewOnce, answering, kickoff, bind, Except.bind, h round]

/-- The attempt with which the crew loop ends. -/
def crewAttempt (audits : Nat → ComplianceRuleAudit) : Nat :=
  if (audits 0).verdict ≠ .needsRevision then 0
  else if (audits 1).verdict ≠ .needsRevision then 1
  else 2

theorem runCrewLoop_eq (h : GuardUnchanged env.tools chunk answers audits) :
    runCrewLoop env.tools (answering answers audits) chunk =
      .ok (⟨(answers (crewAttempt audits)).stamped chunk, audits (crewAttempt audits),
        crewAttempt audits⟩, crewAttempt audits + 1) := by
  unfold runCrewLoop maxRevisionRounds crewAttempt
  simp only [crewRounds, runCrewOnce_eq h, bind, Except.bind, pure, Except.pure]
  by_cases hfirst : (audits 0).verdict = .needsRevision
  · by_cases hsecond : (audits 1).verdict = .needsRevision
    · simp only [hfirst, hsecond, ne_eq, not_true_eq_false, ↓reduceIte]
      split <;> rfl
    · simp [hfirst, hsecond]
  · simp [hfirst]

/-! ## The graph -/

theorem settledFrom_confident {input : GraphInput} {budget k : Nat} {e : ExtractedComplianceRule}
    (h : ¬ e.extractionConfidence.lt input.settings.agentConfidenceThreshold) :
    input.settledFrom budget k e = some (k, e) := by
  cases budget with
  | zero => rfl
  | succ budget => rw [settledFrom, if_neg h]

/-- The attempt with which the graph ends. -/
def graphAttempt (audits : Nat → ComplianceRuleAudit) : Nat :=
  if (audits 0).verdict ≠ .needsRevision then 0 else 1

/-- The revisions the graph has counted then. -/
def graphRound (audits : Nat → ComplianceRuleAudit) : Nat :=
  if (audits 0).verdict ≠ .needsRevision then 0
  else if (audits 1).verdict ≠ .needsRevision then 1
  else 2

theorem roundAnswers_confident (h : Confident settings answers) (budget k j : Nat) :
    (graphInput env (answering answers audits) settings chunk).roundAnswers budget k j =
      some (k, answers k, audits j) :=
  roundAnswers_eq_some.2 ⟨answers k, rfl, settledFrom_confident (h k), rfl⟩

theorem lastAnswers_eq (h : Confident settings answers) :
    (graphInput env (answering answers audits) settings chunk).lastAnswers =
      some ⟨answers (graphAttempt audits), audits (graphAttempt audits), graphRound audits,
        graphAttempt audits + 1, graphAttempt audits + 1⟩ := by
  unfold lastAnswers graphAttempt graphRound
  simp only [roundAnswers_confident h, bind, Option.bind_some, pure]
  by_cases hfirst : (audits 0).verdict = .needsRevision
  · by_cases hsecond : (audits 1).verdict = .needsRevision <;> simp [hfirst, hsecond]
  · simp [hfirst]

theorem runGraphPipeline_eq (h : Confident settings answers) {limit : Nat} (hlimit : 5 ≤ limit) :
    (graphInput env (answering answers audits) settings chunk).runGraphPipeline limit =
      .ok (⟨(answers (graphAttempt audits)).stamped chunk, audits (graphAttempt audits),
        graphRound audits⟩, graphAttempt audits + 1) := by
  refine runGraphPipeline_ok_iff.2 ⟨_, lastAnswers_eq h, ?_, rfl⟩
  have : graphAttempt audits ≤ 1 := by
    unfold graphAttempt
    split <;> omega
  show 1 + (graphAttempt audits + 1) + (graphAttempt audits + 1) ≤ limit
  omega

/-- Of answers that all conform, some extraction settles each round. -/
theorem exists_settledFrom {input : GraphInput} (h : input.calls = answering answers audits)
    (budget k : Nat) (e : ExtractedComplianceRule) :
    ∃ settled, input.settledFrom budget k e = some settled := by
  induction budget generalizing k e with
  | zero => exact ⟨_, rfl⟩
  | succ budget ih =>
    rw [settledFrom, h]
    split
    · exact ih (k + 1) (answers (k + 1))
    · exact ⟨_, rfl⟩

theorem exists_roundAnswers {input : GraphInput} (h : input.calls = answering answers audits)
    (budget k j : Nat) : ∃ round, input.roundAnswers budget k j = some round := by
  obtain ⟨⟨k', e⟩, hsettled⟩ := exists_settledFrom h budget k (answers k)
  refine ⟨(k', e, audits j), roundAnswers_eq_some.2 ⟨answers k, ?_, hsettled, ?_⟩⟩ <;> rw [h] <;> rfl

theorem exists_lastAnswers (env : Environment) (settings : Settings) (chunk : ClauseChunk)
    (answers : Nat → ExtractedComplianceRule) (audits : Nat → ComplianceRuleAudit) :
    ∃ last, (graphInput env (answering answers audits) settings chunk).lastAnswers = some last := by
  let input := graphInput env (answering answers audits) settings chunk
  have hcalls : input.calls = answering answers audits := rfl
  obtain ⟨⟨k, e, a⟩, hfirst⟩ := exists_roundAnswers hcalls (input.budgetAfter 0) 0 0
  obtain ⟨⟨k', e', a'⟩, hsecond⟩ := exists_roundAnswers hcalls (input.budgetAfter k) (k + 1) 1
  unfold lastAnswers
  rw [hfirst]
  simp only [bind, Option.bind_some]
  split
  · exact ⟨_, by rw [hsecond]; rfl⟩
  · exact ⟨_, rfl⟩

/-- Every run reaches `END`, with fallback nodes within the budget. -/
theorem reaches_end (env : Environment) (settings : Settings) (chunk : ClauseChunk)
    (answers : Nat → ExtractedComplianceRule) (audits : Nat → ComplianceRuleAudit) :
    ∃ nodes, ∀ limit, nodes ≤ limit → ∃ fin,
      (graphInput env (answering answers audits) settings chunk).ainvoke limit = .ok fin ∧
        fallbackNodes fin ≤ settings.agentMaxFallbackAttempts.toNat := by
  obtain ⟨last, hlast⟩ := exists_lastAnswers env settings chunk answers audits
  obtain ⟨fin, hruns, hends⟩ := runs_lastAnswers hlast
  refine ⟨last.nodes, fun limit hlimit => ⟨fin, ainvoke_ok_iff.2 ⟨hruns, ?_⟩, ?_⟩⟩
  · rw [hends.nodes]
    exact hlimit
  · have hbudget : fallbackNodes fin ≤ (settings.agentMaxFallbackAttempts - 0).toNat := hends.budget
    rwa [Int.sub_zero] at hbudget

/-! ## The replacement -/

theorem sameOutcome_iff :
    SameOutcome
      (⟨(answers (graphAttempt audits)).stamped chunk, audits (graphAttempt audits),
        graphRound audits⟩, graphAttempt audits + 1)
      (⟨(answers (crewAttempt audits)).stamped chunk, audits (crewAttempt audits),
        crewAttempt audits⟩, crewAttempt audits + 1) ↔
    ¬ ((audits 0).verdict = .needsRevision ∧ (audits 1).verdict = .needsRevision) := by
  constructor
  · rintro h ⟨hfirst, hsecond⟩
    have hattempts : graphAttempt audits + 1 = crewAttempt audits + 1 := h.attempts
    simp [graphAttempt, crewAttempt, hfirst, hsecond] at hattempts
  · intro h
    by_cases hfirst : (audits 0).verdict = .needsRevision
    · have hsecond : (audits 1).verdict ≠ .needsRevision := fun hsecond => h ⟨hfirst, hsecond⟩
      simp only [graphAttempt, crewAttempt, graphRound, hfirst, hsecond, ne_eq, not_true_eq_false,
        not_false_eq_true, ↓reduceIte]
      exact ⟨rfl, rfl, rfl, rfl⟩
    · simp only [graphAttempt, crewAttempt, graphRound, hfirst, ne_eq, not_false_eq_true, ↓reduceIte]
      exact ⟨rfl, rfl, rfl, rfl⟩

/-- The graph replaces the crew loop exactly where the budget of fallbacks is one, and not both of the
first two audits of confident extractions that the guard leaves alone ask for a revision. -/
theorem graph_replaces_crew (env : Environment) (settings : Settings) (chunk : ClauseChunk)
    (answers : Nat → ExtractedComplianceRule) (audits : Nat → ComplianceRuleAudit) :
    DropIn env settings chunk answers audits ↔
      0 ≤ settings.agentMaxFallbackAttempts ∧
        ¬ (Confident settings answers ∧ GuardUnchanged env.tools chunk answers audits ∧
          (audits 0).verdict = .needsRevision ∧ (audits 1).verdict = .needsRevision) := by
  constructor
  · intro h
    constructor
    · obtain ⟨nodes, hnodes⟩ := h.reaches
      obtain ⟨fin, -, hfin⟩ := hnodes nodes (Nat.le_refl _)
      omega
    · rintro ⟨hconfident, hguard, hverdicts⟩
      obtain ⟨crew, hcrew, nodes, hnodes⟩ := h.same hconfident hguard
      obtain ⟨graph, hgraph, hsame⟩ := hnodes (max nodes 5) (Nat.le_max_left _ _)
      cases (runGraphPipeline_eq hconfident (Nat.le_max_right nodes 5)).symm.trans hgraph
      cases (runCrewLoop_eq hguard).symm.trans hcrew
      exact sameOutcome_iff.1 hsame hverdicts
  · rintro ⟨hbudget, hverdicts⟩
    constructor
    · intro hconfident hguard
      refine ⟨_, runCrewLoop_eq hguard, 5, fun limit hlimit =>
        ⟨_, runGraphPipeline_eq hconfident hlimit, sameOutcome_iff.2 fun h => ?_⟩⟩
      exact hverdicts ⟨hconfident, hguard, h⟩
    · obtain ⟨nodes, hnodes⟩ := reaches_end env settings chunk answers audits
      refine ⟨nodes, fun limit hlimit => ?_⟩
      obtain ⟨fin, hfin, hle⟩ := hnodes limit hlimit
      exact ⟨fin, hfin, by omega⟩

/-! ## Two revisions in a row -/

/-- The text tools on texts in which no pattern is found. -/
def plainTools : TextTools where
  nfkc := id
  lower := Lib.Python.lower
  overrideMatches _ := []
  overridesRedacted := id
  numberTokens _ := []
  longestMatch _ _ := 0

def plainEnvironment : Environment where
  tools := plainTools
  patterns := ⟨fun _ => none, fun _ => none, fun _ => none, fun _ => none, fun _ => none, fun _ => none,
    fun _ => ⟨0, 0, Lib.Decimal.shortest_zero⟩⟩
  detectComplexity _ := .standard

def graphSettings : Settings where
  agentGraphOrchestrationEnabled := true
  agentConfidenceThreshold := Binary64.ofRat 0.85

def reportingClause : ClauseChunk where
  chunkId := "c1"
  sha256 := "9f86d081"
  text := "Records shall be kept."

/-- An extraction without a claim in it. -/
def emptyExtraction : ExtractedComplianceRule where
  ruleId := "9f86d081:unscoped"
  sourceChunkId := "c1"
  sourceSha256 := "9f86d081"
  obligationType := .mandatory
  extractionConfidence := Binary64.ofRat 1

def revisionAudit : ComplianceRuleAudit where
  ruleId := "9f86d081:unscoped"
  verdict := .needsRevision
  fidelityScore := Binary64.ofRat 0
  verifiedQuoteCount := 0
  unverifiedQuoteCount := 0

/-- On a clause that every audit sends back, the crew loop makes three attempts and the graph two. -/
theorem not_forall_graph_replaces_crew :
    ¬ ∀ (env : Environment) (settings : Settings) (chunk : ClauseChunk)
      (answers : Nat → ExtractedComplianceRule) (audits : Nat → ComplianceRuleAudit),
      DropIn env settings chunk answers audits := by
  intro h
  have hsame := (h plainEnvironment graphSettings
    reportingClause (fun _ => emptyExtraction) (fun _ => revisionAudit)).same
  have hclear : ¬ emptyExtraction.extractionConfidence.lt graphSettings.agentConfidenceThreshold := by
    decide +kernel
  have hconfident : Confident graphSettings (fun _ => emptyExtraction) := fun _ => hclear
  have hguard : GuardUnchanged plainTools reportingClause (fun _ => emptyExtraction)
      (fun _ => revisionAudit) := fun _ => rfl
  obtain ⟨crew, hcrew, nodes, hnodes⟩ := hsame hconfident hguard
  obtain ⟨graph, hgraph, hattempts, -, -, -⟩ := hnodes (max nodes 5) (Nat.le_max_left _ _)
  cases (runGraphPipeline_eq hconfident (Nat.le_max_right nodes 5)).symm.trans hgraph
  cases (runCrewLoop_eq hguard).symm.trans hcrew
  cases hattempts

end RegEngine.Agents
