import RegEngine.Backtest.Proof.TruthTable
import RegEngine.Execution.Proof.Missing

/-!
# The two candidate evaluators

By JSON-Logic a transaction is denied where the guard fails or the first threshold that does not pass
is breached, and flagged where that threshold's fact is absent. By OPA it is denied where the guard
holds and some fact breaches a threshold, else allowed, and never flagged.

* `replay_outcome`, `opa_outcome`: the two decisions.
* `same_decision_iff`: when they are the same.
-/

namespace RegEngine.Backtest

open Lib Lib.Rego Lib.Except Lib.Calendar Compiler Execution

section
variable {rule : ExtractedComplianceRule} {e : String} {facts : List (String × Json)}
  {jl : JsonLogicRule} {p : RegoParts}

/-! ## By JSON-Logic -/

/-- The decision on what the thresholds come to. -/
def decisionOf : Except EvalError Bool → Decision
  | .ok true => .allow
  | .ok false => .deny
  | .error _ => .flagged

theorem replay_outcome (hp : regoParts rule = .ok p) (hjl : compileRuleToJsonlogic rule = .ok jl)
    (hn : NumericFacts (.obj facts))
    (format : String → List (String × Json) → Except EvalError String) :
    ∃ d messages, ({ logic := jl.logic } : JsonLogicCandidateEvaluator).evaluate format e facts =
        .ok (d, messages) ∧
      ((¬ GuardHolds rule e ∧ d = .deny) ∨
        (GuardHolds rule e ∧
          ∃ r, LogicOutcome (.obj facts) rule.deterministicLogic r ∧ d = decisionOf r)) := by
  unfold JsonLogicCandidateEvaluator.evaluate
  rcases evaluate_logic (e := e) hjl (exists_thresholdField hp) hn with
    ⟨hg, heval⟩ | ⟨hg, r, hout, heval⟩
  · rw [heval]
    exact ⟨.deny, _, rfl, .inl ⟨hg, rfl⟩⟩
  · rw [heval]
    have hdecision := hout
    cases hdecision with
    | passes _ => exact ⟨.allow, _, rfl, .inr ⟨hg, _, hout, rfl⟩⟩
    | breaches _ _ _ => exact ⟨.deny, _, rfl, .inr ⟨hg, _, hout, rfl⟩⟩
    | missing path _ _ _ => exact ⟨.flagged, _, rfl, .inr ⟨hg, _, hout, rfl⟩⟩

/-- Every threshold whose fact is absent stands behind one that is breached. -/
def BreachFirst (facts : Json) (ts : List NumericalThreshold) : Prop :=
  ∀ l₁ t l₂, ts = l₁ ++ t :: l₂ → FactMissing facts t → ∃ s ∈ l₁, PyBreaches facts s

theorem PyBreaches.not_missing {facts : Json} {t : NumericalThreshold} (h : PyBreaches facts t) :
    ¬ FactMissing facts t := by
  obtain ⟨x, hx, -⟩ := h
  exact fun hm => FactMissing.not_pyFactIs hm x hx

/-- The decision is not flagged exactly when the breach is first, and then a breach decides it. -/
theorem LogicOutcome.decision_iff {facts : Json} {ts : List NumericalThreshold}
    {r : Except EvalError Bool} (h : LogicOutcome facts ts r) :
    (decisionOf r ≠ .flagged ↔ BreachFirst facts ts) ∧
      (decisionOf r = .deny → ∃ t ∈ ts, PyBreaches facts t) ∧
      (decisionOf r = .allow → ¬ ∃ t ∈ ts, PyBreaches facts t) := by
  cases h with
  | passes hall =>
    refine ⟨iff_of_true nofun fun l₁ t l₂ hts hm => ?_, nofun, fun _ ⟨t, ht, hb⟩ => ?_⟩
    · exact absurd hm (hall t (by simp [hts])).not_breaches.2
    · exact (hall t ht).not_breaches.1 hb
  | @breaches l₁ t l₂ hts hall hb =>
    refine ⟨iff_of_true nofun fun l₁' t' l₂' hts' hm => ?_, fun _ => ⟨t, by simp [hts], hb⟩, nofun⟩
    rcases List.append_eq_append_iff.1 (hts.symm.trans hts') with ⟨a, ha, hrest⟩ | ⟨a, ha, hrest⟩
    · cases a with
      | nil =>
        obtain rfl : t = t' := (List.cons.inj hrest).1
        exact absurd hm hb.not_missing
      | cons s a =>
        obtain rfl : t = s := (List.cons.inj hrest).1
        exact ⟨t, by simp [ha], hb⟩
    · cases a with
      | nil =>
        obtain rfl : t' = t := (List.cons.inj hrest).1
        exact absurd hm hb.not_missing
      | cons s a =>
        obtain rfl : t' = s := (List.cons.inj hrest).1
        exact absurd hm (hall t' (by simp [ha])).not_breaches.2
  | @missing l₁ t l₂ path hts hall hm =>
    refine ⟨iff_of_false (fun hne => hne rfl) fun hfirst => ?_, nofun, nofun⟩
    obtain ⟨s, hs, hb⟩ := hfirst l₁ t l₂ hts hm
    exact (hall s hs).not_breaches.1 hb

/-! ## By OPA -/

/-- OPA's decision: deny where the rule is violated, else allow. -/
theorem opa_outcome {opa : Opa} {ruleVersion : Int} {generatedAt : DateTime}
    (hp : regoParts rule = .ok p) (hn : NumericFacts (.obj facts))
    (hopa : opa.FollowsRego rule ruleVersion generatedAt) (hplain : PlainTexts rule) :
    ((opaCandidateEvaluate (opa.decision (compiledRego rule ruleVersion generatedAt p).regoCode
        (candidateInput e facts))).1 = .deny ∧ Violates rule e (.obj facts)) ∨
    ((opaCandidateEvaluate (opa.decision (compiledRego rule ruleVersion generatedAt p).regoCode
        (candidateInput e facts))).1 = .allow ∧ ¬ Violates rule e (.obj facts)) := by
  obtain ⟨d, hd, hiff⟩ : ∃ d, opaReply ((regoModule rule ruleVersion p).query opa.sprintf
        (candidateInput e facts) "decision") = .result d ∧
      (d.violations.getD [] ≠ [] ↔ Violates rule e (.obj facts)) :=
    reply_of_query hp rfl rfl hn ruleVersion opa.sprintf
  rw [Opa.decision, hopa hplain p hp, hd]
  by_cases hv : Violates rule e (.obj facts)
  · exact .inl ⟨if_pos (hiff.2 hv), hv⟩
  · exact .inr ⟨if_neg fun hne => hv (hiff.1 hne), hv⟩

end

/-! ## Both -/

/-- The two evaluators return the same decision. -/
def SameDecision (opa : Opa) (regoCode : String) (logic : Json)
    (format : String → List (String × Json) → Except EvalError String) (e : String)
    (facts : List (String × Json)) : Prop :=
  ∃ d messages, ({ logic := logic } : JsonLogicCandidateEvaluator).evaluate format e facts =
      .ok (d, messages) ∧
    (opaCandidateEvaluate (opa.decision regoCode (candidateInput e facts))).1 = d

theorem sameDecision_iff_of_parts {opa : Opa} {rule : ExtractedComplianceRule} {ruleVersion : Int}
    {generatedAt : DateTime} {p : RegoParts} {jl : JsonLogicRule} {e : String}
    {facts : List (String × Json)} (hp : regoParts rule = .ok p)
    (hjl : compileRuleToJsonlogic rule = .ok jl) (hn : NumericFacts (.obj facts))
    (hopa : opa.FollowsRego rule ruleVersion generatedAt) (hplain : PlainTexts rule)
    (format : String → List (String × Json) → Except EvalError String) :
    SameDecision opa (compiledRego rule ruleVersion generatedAt p).regoCode jl.logic format e facts ↔
      GuardHolds rule e ∧ BreachFirst (.obj facts) rule.deterministicLogic ∧
        ((∃ t ∈ rule.deterministicLogic, PyBreaches (.obj facts) t) ↔
          ∃ t ∈ rule.deterministicLogic, Breaches (.obj facts) t) := by
  obtain ⟨d, messages, heval, hcases⟩ := replay_outcome (e := e) hp hjl hn format
  have hopaCases := opa_outcome (e := e) hp hn hopa hplain
  have hsame : SameDecision opa (compiledRego rule ruleVersion generatedAt p).regoCode jl.logic format
      e facts ↔ (opaCandidateEvaluate (opa.decision
        (compiledRego rule ruleVersion generatedAt p).regoCode (candidateInput e facts))).1 = d := by
    constructor
    · rintro ⟨d', m, hd', heq⟩
      rw [heval] at hd'
      cases hd'
      exact heq
    · exact fun heq => ⟨d, messages, heval, heq⟩
  rw [hsame]
  rcases hcases with ⟨hg, rfl⟩ | ⟨hg, r, hout, rfl⟩
  · refine iff_of_false (fun heq => ?_) fun h => hg h.1
    rcases hopaCases with ⟨-, hv⟩ | ⟨hallow, -⟩
    · exact hg hv.1
    · rw [hallow] at heq
      cases heq
  · obtain ⟨hflag, hdeny, hallow⟩ := hout.decision_iff
    rw [and_iff_right hg, ← hflag]
    have hviolates : Violates rule e (.obj facts) ↔
        ∃ t ∈ rule.deterministicLogic, Breaches (.obj facts) t := and_iff_right hg
    rw [hviolates] at hopaCases
    cases hr : decisionOf r with
    | allow =>
      have hb := hallow hr
      rcases hopaCases with ⟨ho, hB⟩ | ⟨ho, hB⟩ <;> rw [ho] <;> simp [hb, hB]
    | deny =>
      have hb := hdeny hr
      rcases hopaCases with ⟨ho, hB⟩ | ⟨ho, hB⟩ <;> rw [ho] <;> simp [hb, hB]
    | flagged =>
      rcases hopaCases with ⟨ho, -⟩ | ⟨ho, -⟩ <;> rw [ho] <;> simp

/-- **The two evaluators decide alike exactly when** the entity type satisfies the guard, every
threshold whose fact is absent stands behind a breached one, and there is a breach for Python's
doubles exactly when there is one for OPA's decimals. -/
theorem same_decision_iff (opa : Opa) (rule : ExtractedComplianceRule) (ruleVersion : Int)
    (generatedAt : DateTime) (rego : CompiledRego) (jl : JsonLogicRule)
    (format : String → List (String × Json) → Except EvalError String) (e : String)
    (facts : List (String × Json)) (hrego : compileRuleToRego rule ruleVersion generatedAt = .ok rego)
    (hjl : compileRuleToJsonlogic rule = .ok jl) (hn : NumericFacts (.obj facts))
    (hopa : opa.FollowsRego rule ruleVersion generatedAt) (hplain : PlainTexts rule) :
    SameDecision opa rego.regoCode jl.logic format e facts ↔
      GuardHolds rule e ∧ BreachFirst (.obj facts) rule.deterministicLogic ∧
        ((∃ t ∈ rule.deterministicLogic, PyBreaches (.obj facts) t) ↔
          ∃ t ∈ rule.deterministicLogic, Breaches (.obj facts) t) := by
  obtain ⟨p, hp, rfl⟩ := map_ok_iff.1 hrego
  exact sameDecision_iff_of_parts hp hjl hn hopa hplain format

/-! ## The margin rule -/

theorem plainTexts_marginRule : PlainTexts marginRule where
  path := by decide +kernel
  comments := by decide +kernel
  literals := by decide +kernel

/-- No template is rendered, so any formatting will do. -/
def noFormat (_ : String) (_ : List (String × Json)) : Except EvalError String := .error .typeError

/-- A stockbroker's upfront margin of 15 % is denied by both, also without a peak margin. -/
theorem same_decision_breach : ∃ jl, compileRuleToJsonlogic marginRule = .ok jl ∧
    SameDecision (opaHolding marginPolicy) marginPolicy.compiled.regoCode jl.logic noFormat
      "Stockbroker" lowMargin.facts := by
  have hjl := eq_ok_get
    (show (compileRuleToJsonlogic marginRule).toOption.isSome = true by decide)
  have hn : NumericFacts (.obj lowMargin.facts) := numericFacts_singleton "upfront_margin_pct" rfl
  obtain ⟨t, ts, hts⟩ : ∃ t ts, marginRule.deterministicLogic = t :: ts := ⟨_, _, rfl⟩
  obtain ⟨ht, hfails⟩ : thresholdField t = .ok "upfront_margin_pct" ∧ ¬ t.Satisfied 15 := by
    cases hts
    refine ⟨rfl, ?_⟩
    change ¬ bound ⟨2, 1, _⟩ ≤ 15
    decide +kernel
  have hpy : PyBreaches (.obj lowMargin.facts) t :=
    ⟨15, ⟨_, .int 15, ht, rfl, rfl⟩, hfails⟩
  have hrego : Breaches (.obj lowMargin.facts) t := ⟨15, ⟨_, .int 15, ht, rfl, rfl⟩, hfails⟩
  have hfirst : BreachFirst (.obj lowMargin.facts) marginRule.deterministicLogic := by
    intro l₁ s l₂ heq hm
    rw [hts] at heq
    cases l₁ with
    | nil =>
      obtain rfl : t = s := (List.cons.inj heq).1
      exact absurd hm hpy.not_missing
    | cons a l₁ =>
      obtain rfl : t = a := (List.cons.inj heq).1
      exact ⟨t, List.mem_cons_self, hpy⟩
  have hmem : t ∈ marginRule.deterministicLogic := hts ▸ List.mem_cons_self
  have hguard : GuardHolds marginRule "Stockbroker" :=
    marginRule_guard marginPolicy (List.mem_singleton_self _)
  refine ⟨_, hjl, (same_decision_iff _ _ _ _ _ _ noFormat _ _ marginPolicy.compileRuleToRego_eq hjl
    hn (followsRego_opaHolding _) plainTexts_marginRule).2 ⟨hguard, hfirst, ?_⟩⟩
  exact iff_of_true ⟨t, hmem, hpy⟩ ⟨t, hmem, hrego⟩

/-- **The evaluators differ** on an entity the rule is not for, and on absent facts: by JSON-Logic the
first is denied and the second flagged, and by OPA both are allowed. -/
theorem same_decision_fails : ∃ jl, compileRuleToRego marginRule marginPolicy.ruleVersion
        marginPolicy.generatedAt = .ok marginPolicy.compiled ∧
      compileRuleToJsonlogic marginRule = .ok jl ∧ PlainTexts marginRule ∧
      (opaHolding marginPolicy).FollowsRego marginRule marginPolicy.ruleVersion
        marginPolicy.generatedAt ∧
      ¬ SameDecision (opaHolding marginPolicy) marginPolicy.compiled.regoCode jl.logic noFormat
        "DepositoryParticipant" [] ∧
      ¬ SameDecision (opaHolding marginPolicy) marginPolicy.compiled.regoCode jl.logic noFormat
        "Stockbroker" [] := by
  have hjl := eq_ok_get
    (show (compileRuleToJsonlogic marginRule).toOption.isSome = true by decide)
  have hn : NumericFacts (.obj []) := by
    intro f j hj
    cases hj
  have hopa := followsRego_opaHolding marginPolicy
  have hiff : ∀ e, _ := fun e => sameDecision_iff_of_parts (e := e) marginPolicy.compiles hjl hn hopa
    plainTexts_marginRule noFormat
  refine ⟨_, marginPolicy.compileRuleToRego_eq, hjl, plainTexts_marginRule, hopa, fun h => ?_,
    fun h => ?_⟩
  · have hguard : ¬ GuardHolds marginRule "DepositoryParticipant" := by
      rintro (hg | hg)
      · exact absurd hg (by decide)
      · exact absurd hg (by decide)
    exact hguard ((hiff _).1 h).1
  · obtain ⟨s, hs, -⟩ := ((hiff _).1 h).2.1 [] _ _ rfl ⟨"upfront_margin_pct", rfl, rfl⟩
    cases hs

end RegEngine.Backtest
