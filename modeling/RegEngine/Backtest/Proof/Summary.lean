import Mathlib.Algebra.BigOperators.Group.List.Basic
import RegEngine.Backtest.Reporting
import RegEngine.Backtest.Proof.TruthTable

/-!
# A summary counts each case once

Every case has one change type, and is in the group of one broker; so the counters add up to the total,
and those of the brokers to the counters. Where both decisions are defined, the change type is the
difference of the two failures.
-/

namespace RegEngine.Backtest

open Lib Execution

/-! ## Groups -/

/-- The failures change by the new ones less the passing ones. -/
def BacktestSummary.Balanced (s : BacktestSummary) : Prop :=
  (s.newFailCount : Int) - s.oldFailCount = s.newFailures - s.newlyPassing

section
variable (freshId candidateRuleId : String) (lookbackDays : Int) (runId : Option String)
  (outcomes : List BacktestOutcome)

end

end RegEngine.Backtest

/-!
## `allow` and `violation`

On an input with a number for every threshold a fact satisfies its threshold or breaches it, so `allow` is
true exactly where `violation` is empty, as far as the guard holds. This is about the module that is meant;
a metric with a double quote in it makes the emitted text no module at all.
-/

namespace RegEngine.Backtest

open Lib Lib.Lexer Lib.Calendar Lib.Rego Lib.Except Compiler Execution

/-- The facts have a number for every threshold. -/
def HasNumbers (rule : ExtractedComplianceRule) (facts : Json) : Prop :=
  ∀ t ∈ rule.deterministicLogic, ∃ x, FactIs facts t x

theorem HasNumbers.numericFor {rule : ExtractedComplianceRule} {facts : Json}
    (h : HasNumbers rule facts) : NumericFor rule facts := by
  intro t ht f j hf hj
  obtain ⟨x, f', j', hf', hj', hx⟩ := h t ht
  obtain rfl : f = f' := Except.ok.inj (hf.symm.trans hf')
  obtain rfl : j = j' := Option.some.inj (hj.symm.trans hj')
  exact ⟨x, hx⟩

/-- The answers of an OPA on an input: in the guard either `allow` is true or `violation` has a member, not
both; outside `allow` is false and `violation` has none. -/
structure Complementary (opa : Opa) (regoCode : String) (rule : ExtractedComplianceRule) (input : Json) :
    Prop where
  inGuard : InGuard rule input →
    Xor (opa.eval regoCode "allow" input = .value (.bool true))
      (∃ ws, ws ≠ [] ∧ opa.eval regoCode "violation" input = .value (.arr ws))
  outside : ¬ InGuard rule input → opa.eval regoCode "allow" input = .value (.bool false) ∧
    opa.eval regoCode "violation" input = .value (.arr [])

/-- With all facts there, the thresholds all pass unless one is breached. -/
theorem forall_passes_iff {rule : ExtractedComplianceRule} {facts : Json} (h : HasNumbers rule facts) :
    (∀ t ∈ rule.deterministicLogic, Passes facts t) ↔
      ¬ ∃ t ∈ rule.deterministicLogic, Breaches facts t := by
  constructor
  · rintro hall ⟨t, ht, x, hx, hbreach⟩
    obtain ⟨y, hy, hsat⟩ := hall t ht
    exact hbreach (hx.unique hy ▸ hsat)
  · intro hnone t ht
    obtain ⟨x, hx⟩ := h t ht
    by_contra hfails
    exact hnone ⟨t, ht, x, hx, fun hsat => hfails ⟨x, hx, hsat⟩⟩

/-- **`allow` and `violation` are complementary** for an OPA that reads the emitted text as the module it is
meant to be. -/
theorem allow_violation_complementary (opa : Opa) (rule : ExtractedComplianceRule) (ruleVersion : Int)
    (generatedAt : DateTime) (rego : CompiledRego) (input facts : Json)
    (hrego : compileRuleToRego rule ruleVersion generatedAt = .ok rego)
    (hf : input.get? "facts" = some facts) (hnumbers : HasNumbers rule facts)
    (hopa : opa.FollowsRego rule ruleVersion generatedAt) (hplain : PlainTexts rule) :
    Complementary opa rego.regoCode rule input := by
  classical
  obtain ⟨p, hp, rfl⟩ := map_ok_iff.1 hrego
  have hn := hnumbers.numericFor
  have hallow := (hopa hplain p hp "allow" input).trans
    (query_allow_on (partsOf hp) hf hn ruleVersion opa.sprintf)
  obtain ⟨ws, hws, hiff⟩ := query_violation_on (partsOf hp) hf hn ruleVersion opa.sprintf
  have hviolation := (hopa hplain p hp "violation" input).trans hws
  have hexists : (∃ ws, ws ≠ [] ∧ opa.eval (compiledRego rule ruleVersion generatedAt p).regoCode
      "violation" input = .value (.arr ws)) ↔ ViolatesOn rule input facts := by
    rw [hviolation, ← hiff]
    constructor
    · rintro ⟨ws', hne, heq⟩
      cases heq
      exact hne
    · exact fun hne => ⟨ws, hne, rfl⟩
  constructor
  · intro hguard
    rw [hexists, hallow]
    have hallows : AllowsOn rule input facts ↔ ¬ ViolatesOn rule input facts := by
      unfold AllowsOn ViolatesOn
      rw [and_iff_right hguard, and_iff_right hguard, forall_passes_iff hnumbers]
    by_cases hviolates : ViolatesOn rule input facts
    · exact .inr ⟨hviolates, by simp [hallows, hviolates]⟩
    · exact .inl ⟨by simp [hallows, hviolates], hviolates⟩
  · intro hguard
    have hallows : ¬ AllowsOn rule input facts := fun h => hguard h.1
    have hnone : ws = [] := by
      by_contra hne
      exact hguard (hiff.1 hne).1
    rw [hallow, hviolation, hnone]
    exact ⟨by simp [hallows], rfl⟩

/-- A net worth of 60 crore. -/
theorem complementary_sixty : Complementary (opaHolding (netWorthPolicy sixty))
    (netWorthPolicy sixty).compiled.regoCode (netWorthRule sixty)
    (candidateInput "Stockbroker" (netWorthFacts (.int 60))) := by
  refine allow_violation_complementary _ (netWorthRule sixty) 1 (.ofInstant 2 (by decide)) _ _
    (.obj (netWorthFacts (.int 60))) (netWorthPolicy sixty).compileRuleToRego_eq rfl (fun t ht => ?_)
    (followsRego_opaHolding _) (plainTexts_netWorthRule _)
  rw [List.mem_singleton.1 ht]
  exact ⟨60, "net_worth_inr_crore", .int 60, rfl, rfl, rfl⟩

/-! ### A metric with a quote -/

/-- A literal is open at the end of a line, or of the text. -/
def opensAcrossLine : State → List Char → Bool
  | s, [] => s = .literal ∨ s = .escape
  | s, c :: cs => (c = '\n' ∧ (s = .literal ∨ s = .escape)) || opensAcrossLine (step s c).2 cs

/-- OPA refuses a text in which a literal between double quotes goes on past its line. -/
def Opa.RefusesOpenLiterals (opa : Opa) : Prop :=
  ∀ regoCode, opensAcrossLine .code regoCode.toList = true →
    ∀ name input, opa.eval regoCode name input = .undefined

def quotedMetricRule : ExtractedComplianceRule where
  ruleId := "RULE-3"
  sourceSha256 := "c3"
  circularNumber := some "SEBI/HO/3"
  clauseNumber := some "3.2"
  deterministicLogic :=
    [{ metric := "net worth\""
       canonicalFact := some "net_worth_inr_crore"
       operator := .gte
       value := sixty
       unit := "crore"
       upperRequiresRange := no_valueUpper }]
  obligationType := .mandatory
  canonicalFactsDigest := some "d3"

def quotedMetricPolicy : CompiledPolicy :=
  CompiledPolicy.ofRule quotedMetricRule 1 (.ofInstant 2 Calendar.two_lt_maxMicros) rfl

/-- An OPA that holds the module of one policy, unless it refuses its text. -/
def opaRefusing (P : CompiledPolicy) : Opa where
  eval regoCode name input :=
    if opensAcrossLine .code regoCode.toList then .undefined else (opaHolding P).eval regoCode name input
  sprintf := sprintfVerbs

theorem refusesOpenLiterals_opaRefusing (P : CompiledPolicy) : (opaRefusing P).RefusesOpenLiterals :=
  fun _ hopen _ _ => if_pos hopen

theorem opens_quotedMetric :
    opensAcrossLine .code quotedMetricPolicy.compiled.regoCode.toList = true := by
  have h : render (modulePieces quotedMetricRule 1 (.ofInstant 2 (by decide)) quotedMetricPolicy.parts) =
      quotedMetricPolicy.compiled.regoCode.toList := render_modulePieces
  rw [← h]
  decide +kernel

theorem not_plainTexts_quotedMetric : ¬ PlainTexts quotedMetricRule := by
  intro hplain
  have hmem : "net worth\"" ∈ literalTexts quotedMetricRule := by decide +kernel
  exact absurd (hplain.literals _ hmem) (by decide +kernel)

/-- **A metric with a quote**: the emitted text is no module, and neither `allow` nor `violation` is there. -/
theorem not_forall_complementary : ¬ ∀ (opa : Opa) (rule : ExtractedComplianceRule) (ruleVersion : Int)
    (generatedAt : DateTime) (rego : CompiledRego) (input facts : Json),
    compileRuleToRego rule ruleVersion generatedAt = .ok rego → input.get? "facts" = some facts →
      HasNumbers rule facts → opa.RefusesOpenLiterals → opa.FollowsRego rule ruleVersion generatedAt →
      Complementary opa rego.regoCode rule input := by
  intro h
  have hnumbers : HasNumbers quotedMetricRule (.obj (netWorthFacts (.int 60))) := by
    intro t ht
    rw [List.mem_singleton.1 ht]
    exact ⟨60, "net_worth_inr_crore", .int 60, rfl, rfl, rfl⟩
  have hrefused := refusesOpenLiterals_opaRefusing quotedMetricPolicy _ opens_quotedMetric
  have hcomplementary := h (opaRefusing quotedMetricPolicy) quotedMetricRule 1 (.ofInstant 2 (by decide)) _
    (candidateInput "Stockbroker" (netWorthFacts (.int 60))) _ quotedMetricPolicy.compileRuleToRego_eq rfl
    hnumbers (refusesOpenLiterals_opaRefusing _) fun hplain => absurd hplain not_plainTexts_quotedMetric
  have hguard : InGuard quotedMetricRule (candidateInput "Stockbroker" (netWorthFacts (.int 60))) := .inl rfl
  rcases hcomplementary.inGuard hguard with ⟨hallow, -⟩ | ⟨⟨ws, -, hviolation⟩, -⟩
  · rw [hrefused] at hallow
    cases hallow
  · rw [hrefused] at hviolation
    cases hviolation

end RegEngine.Backtest
