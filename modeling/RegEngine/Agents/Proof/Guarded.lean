import RegEngine.Agents.Proof.DropIn

/-!
# Approvals and the output guard

What the guard approves it has left as it was (`guard_eq_of_clean`, `clean_of_guard`), so an approved
result is the guard's exactly if it is clean (`guarded_iff_clean`). The crew loop and the offline
extractor return the guard's results; the graph returns the answers themselves, and the fallback of an
external provider writes the provider's error into the notes after the guard. `approved_guarded`.
-/

namespace RegEngine.Agents

open Lib Lib.Python GraphInput

variable {tools : TextTools} {chunk : ClauseChunk}

/-! ## The guard -/

/-- Neither free-text field leaks an instruction, and every claim is grounded in the clause. -/
structure Clean (tools : TextTools) (chunk : ClauseChunk) (rule : ExtractedComplianceRule) : Prop where
  notes : noInjectedInstructionLeakage tools (orText rule.extractionNotes "") =
    orText rule.extractionNotes ""
  spans : noInjectedInstructionLeakage tools (" | ".intercalate rule.ambiguousSpans) =
    " | ".intercalate rule.ambiguousSpans
  grounded : validateSourceGrounding tools rule chunk.text = []

theorem severity_findingsOn {α : Type} {finding : α → Nat → Option AuditFinding} {l : List α}
    (h : ∀ x i f, finding x i = some f → f.severity = .blocker) {f : AuditFinding}
    (hf : f ∈ findingsOn finding l) : f.severity = .blocker := by
  obtain ⟨x, -, hx⟩ := List.mem_filterMap.1 hf
  exact h _ _ _ hx

/-- Every finding of the source grounding is a blocker. -/
theorem severity_validateSourceGrounding {rule : ExtractedComplianceRule} {text : String}
    {f : AuditFinding} (hf : f ∈ validateSourceGrounding tools rule text) : f.severity = .blocker := by
  rcases List.mem_append.1 hf with hf | hf
  · rcases List.mem_append.1 hf with hf | hf
    · apply severity_findingsOn _ hf
      intro t i f h
      unfold thresholdFinding at h
      simp only at h
      split at h
      · cases h; rfl
      · split at h
        · cases h; rfl
        · split at h
          · cases h; rfl
          · split at h <;> cases h
            rfl
    · apply severity_findingsOn _ hf
      intro ent j f h
      unfold entityFinding at h
      simp only at h
      split at h
      · cases h; rfl
      · split at h <;> cases h
        rfl
  · apply severity_findingsOn _ hf
    intro qd k f h
    unfold directiveFinding at h
    simp only at h
    split at h <;> cases h
    rfl

/-- The findings leave an approval only if there are none. -/
theorem applyGrounding_approved {findings : List AuditFinding} {audit : ComplianceRuleAudit}
    (hblockers : ∀ f ∈ findings, f.severity = .blocker)
    (h : (applyGrounding findings audit).verdict = .approved) : findings = [] := by
  cases findings with
  | nil => rfl
  | cons f rest =>
    have hany : (f :: rest).any (·.severity = .blocker) = true := by
      simp [hblockers f List.mem_cons_self]
    simp [applyGrounding, hany, ComplianceRuleAudit.demoted] at h

theorem guard_eq_of_clean {rule : ExtractedComplianceRule} (h : Clean tools chunk rule)
    (audit : ComplianceRuleAudit) :
    guardAndValidateExtraction tools none rule audit chunk = .ok (rule, audit) := by
  simp [guardAndValidateExtraction, checkExtractionOutput, h.notes, h.spans, applyGuard, h.grounded,
    applyGrounding, bind, Except.bind, pure, Except.pure]

/-- What the guard approves was clean, and is returned as it was. -/
theorem clean_of_guard {raised : Option Failure} {rule rule' : ExtractedComplianceRule}
    {audit audit' : ComplianceRuleAudit}
    (h : guardAndValidateExtraction tools raised rule audit chunk = .ok (rule', audit'))
    (happroved : audit'.verdict = .approved) :
    raised = none ∧ Clean tools chunk rule ∧ rule' = rule ∧ audit' = audit := by
  obtain ⟨res, hres, h⟩ := Except.bind_ok_iff.1 h
  cases raised with
  | some failure => cases hres
  | none =>
    cases hres
    cases h
    have hgrounded := applyGrounding_approved (fun f hf => severity_validateSourceGrounding hf) happroved
    rw [hgrounded] at happroved ⊢
    simp only [applyGrounding, List.isEmpty_nil, ↓reduceIte] at happroved ⊢
    unfold applyGuard at *
    split at happroved
    · rename_i hpassed
      rw [if_pos hpassed] at hgrounded ⊢
      simp only [Bool.and_eq_true, decide_eq_true_eq] at hpassed
      exact ⟨trivial, ⟨hpassed.1, hpassed.2, hgrounded⟩, rfl, rfl⟩
    · cases happroved

/-- The rule and the audit are what the guard makes of some rule and audit on this clause. -/
def Guarded (tools : TextTools) (chunk : ClauseChunk) (out : AuditedComplianceRule) : Prop :=
  ∃ rule audit, guardAndValidateExtraction tools none rule audit chunk = .ok (out.rule, out.audit)

theorem guarded_iff_clean {out : AuditedComplianceRule} (happroved : out.audit.verdict = .approved) :
    Guarded tools chunk out ↔ Clean tools chunk out.rule := by
  constructor
  · rintro ⟨rule, audit, h⟩
    obtain ⟨-, hclean, hrule, -⟩ := clean_of_guard h happroved
    rw [hrule]
    exact hclean
  · exact fun h => ⟨out.rule, out.audit, guard_eq_of_clean h out.audit⟩

/-! ## The crew loop -/

variable {env : Environment} {calls : Calls} {settings : Settings} {limit : Nat}

/-- A kickoff's result is the guard's. -/
theorem clean_runCrewOnce {round : Nat} {rule : ExtractedComplianceRule} {audit : ComplianceRuleAudit}
    (h : runCrewOnce tools calls chunk round = .ok (rule, audit)) (happroved : audit.verdict = .approved) :
    Clean tools chunk rule := by
  obtain ⟨answers, -, h⟩ := Except.bind_ok_iff.1 h
  obtain ⟨-, hclean, hrule, -⟩ := clean_of_guard h happroved
  rw [hrule]
  exact hclean

theorem clean_crewRounds {left round : Nat} {out : AuditedComplianceRule × Nat}
    (h : crewRounds tools calls chunk left round = .ok out) (happroved : out.1.audit.verdict = .approved) :
    Clean tools chunk out.1.rule := by
  induction left generalizing round with
  | zero =>
    obtain ⟨⟨rule, audit⟩, honce, h⟩ := Except.bind_ok_iff.1 h
    cases h
    exact clean_runCrewOnce honce happroved
  | succ left ih =>
    obtain ⟨⟨rule, audit⟩, honce, h⟩ := Except.bind_ok_iff.1 h
    simp only at h
    split at h
    · exact ih h
    · cases h
      exact clean_runCrewOnce honce happroved

theorem clean_tryProvider {provider : LLMProviderType} {out : AuditedComplianceRule}
    (h : tryProvider env calls settings chunk provider = .ok out)
    (happroved : out.audit.verdict = .approved) : Clean env.tools chunk out.rule := by
  obtain ⟨-, -, h⟩ := Except.bind_ok_iff.1 h
  obtain ⟨crew, hcrew, h⟩ := Except.bind_ok_iff.1 h
  cases h
  exact clean_crewRounds hcrew happroved

/-! ## The offline extractor -/

/-- The clause's own text proves a rule: the extractor finds a threshold in it, and its draft is clean. -/
structure Provable (env : Environment) (calls : Calls) (chunk : ClauseChunk) : Prop where
  guardBuilt : calls.offlineGuard = none
  approved : (offlineDraft env chunk).2.verdict = .approved
  logic : (offlineDraft env chunk).1.deterministicLogic ≠ []
  clean : Clean env.tools chunk (offlineDraft env chunk).1

/-- The offline extractor approves what is clean. -/
theorem offline_approved {out : AuditedComplianceRule}
    (h : offlineExtractAndAudit env calls chunk = .ok out) (happroved : out.audit.verdict = .approved) :
    calls.offlineGuard = none ∧ Clean env.tools chunk (offlineDraft env chunk).1 ∧
      out = ⟨(offlineDraft env chunk).1, (offlineDraft env chunk).2, 0⟩ := by
  obtain ⟨⟨rule, audit⟩, hguard, h⟩ := Except.bind_ok_iff.1 h
  cases h
  obtain ⟨hbuilt, hclean, rfl, rfl⟩ := clean_of_guard hguard happroved
  exact ⟨hbuilt, hclean, rfl⟩

theorem offline_of_provable (h : Provable env calls chunk) :
    offlineExtractAndAudit env calls chunk =
      .ok ⟨(offlineDraft env chunk).1, (offlineDraft env chunk).2, 0⟩ := by
  simp only [offlineExtractAndAudit, h.guardBuilt, guard_eq_of_clean h.clean]
  rfl

/-! ## Fallbacks -/

/-- The rule that a fallback returns: the extractor's, with other notes. -/
def fallbackRule (env : Environment) (chunk : ClauseChunk) (provider : LLMProviderType)
    (exc : Failure) : ExtractedComplianceRule :=
  { (offlineDraft env chunk).1 with extractionNotes := some (fallbackNotes provider exc) }

/-- The notes are the only field of the extractor's rule that the guard has not seen. -/
theorem clean_fallbackRule_iff {provider : LLMProviderType} {exc : Failure}
    (h : Clean env.tools chunk (offlineDraft env chunk).1) :
    Clean env.tools chunk (fallbackRule env chunk provider exc) ↔
      noInjectedInstructionLeakage env.tools (fallbackNotes provider exc) =
        fallbackNotes provider exc := by
  have hnotes : orText (some (fallbackNotes provider exc)) "" = fallbackNotes provider exc := by
    unfold orText
    split <;> simp_all
  constructor
  · intro hclean
    have := hclean.notes
    rw [show (fallbackRule env chunk provider exc).extractionNotes =
      some (fallbackNotes provider exc) from rfl, hnotes] at this
    exact this
  · intro hfallback
    refine ⟨?_, h.spans, h.grounded⟩
    rw [show (fallbackRule env chunk provider exc).extractionNotes =
      some (fallbackNotes provider exc) from rfl, hnotes]
    exact hfallback

/-- A failed provider's clause is approved with the extractor's rule, or not at all. -/
theorem fallback_approved_iff {provider : LLMProviderType} {exc : Failure}
    {out : AuditedComplianceRule} (hexc : tryProvider env calls settings chunk provider = .error exc)
    (happroved : out.audit.verdict = .approved) :
    externalExtractAndAudit env calls settings chunk provider = .ok out ↔
      Provable env calls chunk ∧
        out = ⟨fallbackRule env chunk provider exc, (offlineDraft env chunk).2, 0⟩ := by
  constructor
  · intro h
    simp only [externalExtractAndAudit, hexc] at h
    obtain ⟨candidate, hcandidate, h⟩ := Except.bind_ok_iff.1 h
    split at h
    · rename_i hproved
      cases h
      obtain ⟨hbuilt, hclean, rfl⟩ := offline_approved hcandidate hproved.1
      exact ⟨⟨hbuilt, hproved.1, hproved.2, hclean⟩, rfl⟩
    · cases h
      cases happroved
  · rintro ⟨hprovable, rfl⟩
    simp only [externalExtractAndAudit, hexc, offline_of_provable hprovable, bind, Except.bind]
    rw [if_pos ⟨hprovable.approved, hprovable.logic⟩]
    rfl

/-! ## The entry point -/

/-- If the clause is approved, the returned rule and audit are the guard's. -/
def ApprovedGuarded (env : Environment) (calls : Calls) (settings : Settings) (chunk : ClauseChunk)
    (limit : Nat) : Prop :=
  ∀ out, extractAndAuditClause env calls settings chunk limit = .ok out →
    out.audit.verdict = .approved → Guarded env.tools chunk out

/-- The extraction that ends the graph's run is clean if it is approved. -/
def GraphClean (env : Environment) (calls : Calls) (settings : Settings) (chunk : ClauseChunk)
    (limit : Nat) : Prop :=
  ∀ last, (graphInput env calls settings chunk).lastAnswers = some last → last.nodes ≤ limit →
    last.audit.verdict = .approved → Clean env.tools chunk (last.extracted.stamped chunk)

/-- Where an external provider fails on a clause whose own text proves a rule, the notes made of its error
leak no instruction. -/
def FallbackClean (env : Environment) (calls : Calls) (settings : Settings) (chunk : ClauseChunk) :
    Prop :=
  ∀ exc, getProvider env settings ≠ .offline →
    tryProvider env calls settings chunk (getProvider env settings) = .error exc →
    Provable env calls chunk →
    noInjectedInstructionLeakage env.tools (fallbackNotes (getProvider env settings) exc) =
      fallbackNotes (getProvider env settings) exc

theorem approvedGuarded_graph (hgraph : settings.agentGraphOrchestrationEnabled = true) :
    ApprovedGuarded env calls settings chunk limit ↔ GraphClean env calls settings chunk limit := by
  have hrun : ∀ {out}, extractAndAuditClause env calls settings chunk limit = .ok out ↔
      ∃ n, (graphInput env calls settings chunk).runGraphPipeline limit = .ok (out, n) := by
    intro out
    rw [extractAndAuditClause, if_pos hgraph, Except.bind_ok_iff]
    constructor
    · rintro ⟨⟨audited, n⟩, hrun, h⟩
      cases h
      exact ⟨n, hrun⟩
    · rintro ⟨n, hrun⟩
      exact ⟨(out, n), hrun, rfl⟩
  constructor
  · intro h last hlast hnodes happroved
    have hout := hrun.2 ⟨_, runGraphPipeline_ok_iff.2 ⟨last, hlast, hnodes, rfl⟩⟩
    exact (guarded_iff_clean happroved).1 (h _ hout happroved)
  · intro h out hout happroved
    obtain ⟨n, hout⟩ := hrun.1 hout
    obtain ⟨last, hlast, hnodes, heq⟩ := runGraphPipeline_ok_iff.1 hout
    cases heq
    exact (guarded_iff_clean happroved).2 (h last hlast hnodes happroved)

theorem approvedGuarded_crew (hgraph : ¬ settings.agentGraphOrchestrationEnabled = true) :
    ApprovedGuarded env calls settings chunk limit ↔ FallbackClean env calls settings chunk := by
  have hrun : extractAndAuditClause env calls settings chunk limit =
      runDualValidation env calls settings chunk := if_neg hgraph
  by_cases hoffline : getProvider env settings = .offline
  · -- The offline provider returns what the guard has approved.
    have hdual : runDualValidation env calls settings chunk = offlineExtractAndAudit env calls chunk := by
      simp only [runDualValidation, hoffline]
    constructor
    · exact fun _ _ hne => absurd hoffline hne
    · intro _ out hout happroved
      rw [hrun, hdual] at hout
      obtain ⟨-, hclean, rfl⟩ := offline_approved hout happroved
      exact (guarded_iff_clean happroved).2 hclean
  · have hdual : runDualValidation env calls settings chunk =
        externalExtractAndAudit env calls settings chunk (getProvider env settings) := by
      unfold runDualValidation
      split
      · rename_i h
        exact absurd h hoffline
      · rfl
    constructor
    · intro h exc _ hexc hprovable
      have hout : extractAndAuditClause env calls settings chunk limit =
          .ok ⟨fallbackRule env chunk (getProvider env settings) exc, (offlineDraft env chunk).2, 0⟩ := by
        rw [hrun, hdual]
        exact (fallback_approved_iff hexc hprovable.approved).2 ⟨hprovable, rfl⟩
      have hguarded := h _ hout hprovable.approved
      exact (clean_fallbackRule_iff hprovable.clean).1 ((guarded_iff_clean hprovable.approved).1 hguarded)
    · intro h out hout happroved
      rw [hrun, hdual] at hout
      cases htry : tryProvider env calls settings chunk (getProvider env settings) with
      | ok audited =>
        simp only [externalExtractAndAudit, htry] at hout
        cases hout
        exact (guarded_iff_clean happroved).2 (clean_tryProvider htry happroved)
      | error exc =>
        obtain ⟨hprovable, rfl⟩ := (fallback_approved_iff htry happroved).1 hout
        exact (guarded_iff_clean happroved).2
          ((clean_fallbackRule_iff hprovable.clean).2 (h exc hoffline htry hprovable))

/-- An approved clause has passed the output guard, exactly where the graph ends on no approval of an
extraction that the guard would have changed, and no fallback's notes leak an instruction. -/
theorem approved_guarded (env : Environment) (calls : Calls) (settings : Settings)
    (chunk : ClauseChunk) (limit : Nat) :
    ApprovedGuarded env calls settings chunk limit ↔
      if settings.agentGraphOrchestrationEnabled then GraphClean env calls settings chunk limit
      else FallbackClean env calls settings chunk := by
  split
  · rename_i hgraph
    exact approvedGuarded_graph hgraph
  · rename_i hgraph
    exact approvedGuarded_crew hgraph

/-! ## An approval of the graph without evidence -/

/-- An extraction that quotes nothing for its entity. -/
def unquotedExtraction : ExtractedComplianceRule :=
  { emptyExtraction with targetEntities := [⟨"broker", some "Stockbroker", ""⟩] }

def approvedAudit : ComplianceRuleAudit :=
  { revisionAudit with verdict := .approved, fidelityScore := Binary64.ofRat 1 }

/-- The graph returns the approved extraction, which the guard would have rejected. -/
theorem not_forall_approved_guarded :
    ¬ ∀ (env : Environment) (calls : Calls) (settings : Settings) (chunk : ClauseChunk) (limit : Nat),
      ApprovedGuarded env calls settings chunk limit := by
  intro h
  have hclear : ¬ unquotedExtraction.extractionConfidence.lt graphSettings.agentConfidenceThreshold := by
    decide +kernel
  have hconfident : Confident graphSettings fun _ => unquotedExtraction := fun _ => hclear
  have hrun : (graphInput plainEnvironment (answering (fun _ => unquotedExtraction) fun _ => approvedAudit)
      graphSettings reportingClause).runGraphPipeline 25 =
      .ok (⟨unquotedExtraction.stamped reportingClause, approvedAudit, 0⟩, 1) :=
    runGraphPipeline_eq hconfident (by decide)
  have hout : extractAndAuditClause plainEnvironment
      (answering (fun _ => unquotedExtraction) fun _ => approvedAudit) graphSettings reportingClause 25 =
      .ok ⟨unquotedExtraction.stamped reportingClause, approvedAudit, 0⟩ := by
    simp only [extractAndAuditClause, hrun]
    rfl
  have hclean := (guarded_iff_clean rfl).1 (h _ _ _ _ 25 _ hout rfl)
  exact absurd hclean.grounded (by decide +kernel)

end RegEngine.Agents

/-!
## What an approval says of the thresholds

The source grounding looks for the value of a threshold among the numeric tokens of its evidence, and for
the evidence in the source. Three things go past it: the upper bound of a range, a value that is only a
piece of a longer numeral (`500` in `2,500`), and an evidence that is nearly in the source.
-/

namespace RegEngine.Agents

open Lib Lib.Python RegEngine.Compiler

/-! ### Numerals of a text -/

/-- The numerals of a text: digits, with commas and full stops between them. -/
def numeralsFrom : List Char → List Char → List (List Char)
  | cur, [] => if cur = [] then [] else [cur]
  | cur, c :: cs =>
    if c.isDigit then numeralsFrom (cur ++ [c]) cs
    else if cur ≠ [] ∧ (c = ',' ∨ c = '.') ∧ cs.head?.any Char.isDigit then numeralsFrom (cur ++ [c]) cs
    else if cur = [] then numeralsFrom [] cs
    else cur :: numeralsFrom [] cs

/-- The number of a numeral; the commas separate thousands. -/
def numeralValue (numeral : List Char) : Option Rat :=
  match (numeral.filter (· ≠ ',')).splitOn '.' with
  | [whole] => some (Nat.ofDigitChars 10 whole 0)
  | [whole, fraction] => some (Nat.ofDigitChars 10 (whole ++ fraction) 0 / 10 ^ fraction.length)
  | _ => none

/-- The number stands in the text as a whole numeral; a sign is not part of it. -/
def StandsIn (value : Decimal) (text : String) : Prop :=
  some |value.toRat| ∈ (numeralsFrom [] text.toList).map numeralValue

instance (value : Decimal) (text : String) : Decidable (StandsIn value text) :=
  inferInstanceAs (Decidable (_ ∈ _))

example : (numeralsFrom [] "Rs. 1,00,000.50 or 2.5 per cent.".toList).map numeralValue =
    [some (200001 / 2), some (5 / 2)] := by decide +kernel

/-! ### Grounded thresholds -/

section
variable (tools : TextTools)

/-- The evidence is in the source, but for case, white space and compatibility characters, and the value
and the upper bound are in the evidence. -/
structure Grounded (t : NumericalThreshold) (sourceText : String) : Prop where
  evidence : contains (normalizeText tools sourceText) (normalizeText tools t.verbatimEvidence) = true
  value : StandsIn t.value t.verbatimEvidence
  upper : ∀ u ∈ t.valueUpper, StandsIn u t.verbatimEvidence

/-- An approval of the guard is one of grounded thresholds. -/
def ApprovedGrounded (raised : Option Failure) (extracted : ExtractedComplianceRule)
    (audit : ComplianceRuleAudit) (chunk : ClauseChunk) : Prop :=
  ∀ rule' audit', guardAndValidateExtraction tools raised extracted audit chunk = .ok (rule', audit') →
    audit'.verdict = .approved → ∀ t ∈ rule'.deterministicLogic, Grounded tools t chunk.text

/-- Nothing of the threshold goes past the checks. -/
structure NoSlip (t : NumericalThreshold) (sourceText : String) : Prop where
  /-- An evidence that is not in the source is not taken for one that nearly is. -/
  near : contains (normalizeText tools sourceText) (normalizeText tools t.verbatimEvidence) = false →
    evidenceAbsent tools (normalizeText tools t.verbatimEvidence) (normalizeText tools sourceText) = true
  /-- The value is not just a piece of a longer numeral. -/
  piece : valueInTokens tools t.value t.verbatimEvidence = true → StandsIn t.value t.verbatimEvidence
  /-- The upper bound, which no check reads. -/
  upper : ∀ u ∈ t.valueUpper, StandsIn u t.verbatimEvidence

end

variable {tools : TextTools} {chunk : ClauseChunk}

theorem eq_none_of_findingsOn_nil {α : Type} {finding : α → Nat → Option AuditFinding} {l : List α}
    (h : findingsOn finding l = []) {a : α} (ha : a ∈ l) : ∃ i, finding a i = none := by
  obtain ⟨i, hi, rfl⟩ := List.getElem_of_mem ha
  exact ⟨i, List.filterMap_eq_nil_iff.1 h (l[i], i) (List.mk_mem_zipIdx_iff_getElem?.2 (by simp [hi]))⟩

/-- What a threshold without a finding has passed. -/
theorem thresholdFinding_none {sourceText : String} {t : NumericalThreshold} {i : Nat}
    (h : thresholdFinding tools sourceText t i = none) :
    evidenceAbsent tools (normalizeText tools t.verbatimEvidence) (normalizeText tools sourceText) = false ∧
      valueInTokens tools t.value t.verbatimEvidence = true := by
  unfold thresholdFinding at h
  simp only at h
  split at h
  · cases h
  · split at h
    · cases h
    · split at h
      · cases h
      · rename_i habsent
        split at h
        · cases h
        · rename_i hvalue
          simp only [Bool.or_eq_true, Bool.not_eq_true', not_or, Bool.not_eq_false] at hvalue
          exact ⟨Bool.eq_false_iff.2 habsent, hvalue.2⟩

/-- The checks ground a threshold exactly if nothing of it goes past them. -/
theorem grounded_iff_noSlip {sourceText : String} {t : NumericalThreshold} {i : Nat}
    (h : thresholdFinding tools sourceText t i = none) :
    Grounded tools t sourceText ↔ NoSlip tools t sourceText := by
  obtain ⟨hpresent, hvalue⟩ := thresholdFinding_none h
  constructor
  · intro hg
    refine ⟨fun hnot => ?_, fun _ => hg.value, hg.upper⟩
    rw [hg.evidence] at hnot
    cases hnot
  · intro hs
    refine ⟨?_, hs.piece hvalue, hs.upper⟩
    by_contra hnot
    rw [hs.near (Bool.eq_false_iff.2 hnot)] at hpresent
    cases hpresent

/-- **When an approval means grounded thresholds**: when the guard rejects the extraction, or lets nothing
past of any threshold. -/
theorem approved_grounded_iff (tools : TextTools) (raised : Option Failure)
    (extracted : ExtractedComplianceRule) (audit : ComplianceRuleAudit) (chunk : ClauseChunk) :
    ApprovedGrounded tools raised extracted audit chunk ↔
      (raised ≠ none ∨ audit.verdict ≠ .approved ∨ ¬ Clean tools chunk extracted) ∨
        ∀ t ∈ extracted.deterministicLogic, NoSlip tools t chunk.text := by
  have hnone : Clean tools chunk extracted → ∀ t ∈ extracted.deterministicLogic,
      ∃ i, thresholdFinding tools chunk.text t i = none := by
    intro hclean t ht
    have hthresholds := (List.append_eq_nil_iff.1 (List.append_eq_nil_iff.1 hclean.grounded).1).1
    exact eq_none_of_findingsOn_nil hthresholds ht
  constructor
  · intro h
    by_cases hraised : raised = none
    · by_cases hverdict : audit.verdict = .approved
      · by_cases hclean : Clean tools chunk extracted
        · refine .inr fun t ht => ?_
          obtain ⟨i, hi⟩ := hnone hclean t ht
          rw [hraised] at h
          exact (grounded_iff_noSlip hi).1 (h _ _ (guard_eq_of_clean hclean audit) hverdict t ht)
        · exact .inl (.inr (.inr hclean))
      · exact .inl (.inr (.inl hverdict))
    · exact .inl (.inl hraised)
  · intro h rule' audit' hguard happroved
    obtain ⟨hraised, hclean, rfl, rfl⟩ := clean_of_guard hguard happroved
    rcases h with (hnot | hnot | hnot) | hslip
    · exact absurd hraised hnot
    · exact absurd happroved hnot
    · exact absurd hclean hnot
    · intro t ht
      obtain ⟨i, hi⟩ := hnone hclean t ht
      exact (grounded_iff_noSlip hi).2 (hslip t ht)

/-! ### A range with one number in the source -/

/-- The text tools on plain texts whose numerals stand between blanks. -/
def blankTools : TextTools where
  nfkc := id
  lower := Lib.Python.lower
  overrideMatches _ := []
  overridesRedacted := id
  numberTokens s := ((s.toList.splitOnP isSpace).filter fun w => w ≠ [] ∧ w.all Char.isDigit).map
    String.ofList
  longestMatch _ _ := 0

def marginClause : ClauseChunk where
  chunkId := "c2"
  sha256 := "2c26b46b"
  text := "Brokers shall collect a margin of 10 percent"

/-- A range from 10 to 50; the clause has no 50. -/
def inventedRange : ExtractedComplianceRule where
  ruleId := "2c26b46b:unscoped"
  sourceChunkId := "c2"
  sourceSha256 := "2c26b46b"
  deterministicLogic :=
    [{ metric := "margin"
       operator := .range
       value := ⟨1, 1, by decide⟩
       valueUpper := some ⟨5, 1, by decide⟩
       unit := "percent"
       verbatimEvidence := "a margin of 10 percent" }]
  obligationType := .mandatory
  extractionConfidence := Binary64.ofRat 1

def approval : ComplianceRuleAudit where
  ruleId := "2c26b46b:unscoped"
  verdict := .approved
  fidelityScore := Binary64.ofRat 1
  verifiedQuoteCount := 1
  unverifiedQuoteCount := 0

/-- **A range with an invented upper bound** is approved. -/
theorem not_forall_approved_grounded : ¬ ∀ (tools : TextTools) (raised : Option Failure)
    (extracted : ExtractedComplianceRule) (audit : ComplianceRuleAudit) (chunk : ClauseChunk),
    ApprovedGrounded tools raised extracted audit chunk := by
  intro h
  have hclean : Clean blankTools marginClause inventedRange :=
    ⟨rfl, rfl, by decide +kernel⟩
  have hgrounded := h blankTools none inventedRange approval marginClause _ _
    (guard_eq_of_clean hclean approval) rfl _ List.mem_cons_self
  exact absurd (hgrounded.upper _ rfl) (by decide +kernel)

end RegEngine.Agents
