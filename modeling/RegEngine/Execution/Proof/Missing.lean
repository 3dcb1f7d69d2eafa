import RegEngine.Compiler.Proof.Module
import RegEngine.Execution.Registry
import RegEngine.Execution.Proof.Reduce

/-!
# Transactions that lack a fact

The `decision` object of a compiled policy is always defined: `default allow := false` makes `allow`
a value, and `violation` is a set. So OPA always answers with a result (`reply_of_deployed`), and
what the evaluator decides rests on the violations only.

* `decision_deployed`: deny when a fact that is there breaches a threshold, else allow.
* `missing_fact_decision`: a transaction that lacks a fact is denied or flagged as it should be
  exactly when another fact breaches a threshold.
-/

namespace RegEngine.Execution

open Lib Lib.Rego Compiler

/-! ## One policy -/

/-- OPA's answer for the module of a rule: a result, with a violation exactly when the rule is
violated. -/
theorem reply_of_query {rule : ExtractedComplianceRule} {p : RegoParts}
    (hp : regoParts rule = .ok p) {input facts : Json} {e : String}
    (he : input.get? "entity_type" = some (.str e)) (hf : input.get? "facts" = some facts)
    (hn : NumericFacts facts) (ruleVersion : Int) (sprintf : String → List Json → String) :
    ∃ d, opaReply ((regoModule rule ruleVersion p).query sprintf input "decision") = .result d ∧
      (d.violations.getD [] ≠ [] ↔ Violates rule e facts) := by
  obtain ⟨ws, hquery, htext, hiff⟩ := query_decision (partsOf hp) he hf hn ruleVersion sprintf
  refine ⟨_, congrArg opaReply hquery, ?_⟩
  rw [← hiff]
  change ws.filterMap Json.str? ≠ [] ↔ _
  rw [not_iff_not, List.filterMap_eq_nil_iff]
  constructor
  · intro hnone
    refine List.eq_nil_iff_forall_not_mem.2 fun w hw => ?_
    obtain ⟨s, rfl⟩ := htext w hw
    cases hnone _ hw
  · rintro rfl
    simp

/-- OPA's answer for one compiled policy. -/
theorem reply_of_deployed {E : Evaluator} {sprintf : String → List Json → String}
    {tx : TransactionPayload} {policies : List CompiledPolicy} (h : Deployed E sprintf tx policies)
    (hn : NumericFacts (.obj tx.facts)) {P : CompiledPolicy} (hP : P ∈ policies) :
    ∃ d, E.opa P.compiled.package (inputDoc tx) = .result d ∧
      (d.violations.getD [] ≠ [] ↔ Violates P.rule tx.entityType (.obj tx.facts)) := by
  obtain ⟨d, hd, hiff⟩ : ∃ d, opaReply (P.emitted.query sprintf (inputDoc tx) "decision") =
        .result d ∧ (d.violations.getD [] ≠ [] ↔ Violates P.rule tx.entityType (.obj tx.facts)) :=
    reply_of_query P.compiles rfl rfl hn P.ruleVersion sprintf
  exact ⟨d, (h.answers P hP).trans hd, hiff⟩

/-! ## All policies -/

/-- A fact that some policy tests is absent. -/
def MissingFact (policies : List CompiledPolicy) (tx : TransactionPayload) : Prop :=
  ∃ P ∈ policies, ∃ t ∈ P.rule.deterministicLogic, FactMissing (.obj tx.facts) t

/-- A fact that is there breaches a threshold of some policy. -/
def BreachedFact (policies : List CompiledPolicy) (tx : TransactionPayload) : Prop :=
  ∃ P ∈ policies, ∃ t ∈ P.rule.deterministicLogic, Breaches (.obj tx.facts) t

section
variable {E : Evaluator} {sprintf : String → List Json → String} {tx : TransactionPayload}
  {policies : List CompiledPolicy}

theorem replies_of_deployed (h : Deployed E sprintf tx policies) :
    E.replies tx = policies.map fun P => E.opa P.compiled.package (inputDoc tx) := by
  rw [Evaluator.replies, h.applicable, List.map_map]
  rfl

theorem not_undecided (h : Deployed E sprintf tx policies) (hn : NumericFacts (.obj tx.facts)) :
    ¬ Undecided E tx := by
  rintro ⟨r, hr, hmissing⟩
  rw [replies_of_deployed h] at hr
  obtain ⟨P, hP, rfl⟩ := List.mem_map.1 hr
  obtain ⟨d, hd, -⟩ := reply_of_deployed h hn hP
  simp [hd, OPAReply.missing] at hmissing

theorem violated_iff (h : Deployed E sprintf tx policies) (hn : NumericFacts (.obj tx.facts)) :
    Violated E tx ↔ ∃ P ∈ policies, Violates P.rule tx.entityType (.obj tx.facts) := by
  rw [Violated, replies_of_deployed h]
  constructor
  · rintro ⟨r, hr, hv⟩
    obtain ⟨P, hP, rfl⟩ := List.mem_map.1 hr
    obtain ⟨d, hd, hiff⟩ := reply_of_deployed h hn hP
    exact ⟨P, hP, hiff.1 (by simpa [hd, OPAReply.violates] using hv)⟩
  · rintro ⟨P, hP, hv⟩
    obtain ⟨d, hd, hiff⟩ := reply_of_deployed h hn hP
    refine ⟨_, List.mem_map.2 ⟨P, hP, rfl⟩, ?_⟩
    simpa [hd, OPAReply.violates] using hiff.2 hv

/-- **The decision on compiled policies**: deny when one is violated, else allow. -/
theorem decision_deployed (h : Deployed E sprintf tx policies) (hrun : E.halted tx = false)
    (hn : NumericFacts (.obj tx.facts)) :
    ((E.evaluateTransaction tx).decision = .deny ∧
      ∃ P ∈ policies, Violates P.rule tx.entityType (.obj tx.facts)) ∨
    ((E.evaluateTransaction tx).decision = .allow ∧
      ¬ ∃ P ∈ policies, Violates P.rule tx.entityType (.obj tx.facts)) := by
  rw [← violated_iff h hn]
  rcases decision_running hrun with hd | ⟨-, -, hu⟩ | ⟨hd, hv, -⟩
  · exact .inl hd
  · exact absurd hu (not_undecided h hn)
  · exact .inr ⟨hd, hv⟩

theorem violates_iff_breached (hguard : ∀ P ∈ policies, GuardHolds P.rule tx.entityType) :
    (∃ P ∈ policies, Violates P.rule tx.entityType (.obj tx.facts)) ↔
      BreachedFact policies tx := by
  constructor
  · rintro ⟨P, hP, -, hb⟩
    exact ⟨P, hP, hb⟩
  · rintro ⟨P, hP, hb⟩
    exact ⟨P, hP, hguard P hP, hb⟩

end

/-- **A transaction that lacks a fact** is denied on a breach and flagged otherwise exactly when
there is a breach: without one it is allowed. -/
theorem missing_fact_decision (E : Evaluator) (sprintf : String → List Json → String)
    (tx : TransactionPayload) (policies : List CompiledPolicy)
    (h : Deployed E sprintf tx policies) (hrun : E.halted tx = false)
    (hguard : ∀ P ∈ policies, GuardHolds P.rule tx.entityType)
    (hn : NumericFacts (.obj tx.facts)) :
    (MissingFact policies tx →
      (E.evaluateTransaction tx).decision ≠ .allow ∧
      (BreachedFact policies tx → (E.evaluateTransaction tx).decision = .deny) ∧
      (¬ BreachedFact policies tx → (E.evaluateTransaction tx).decision = .flagged)) ↔
    (MissingFact policies tx → BreachedFact policies tx) := by
  have hd := decision_deployed h hrun hn
  rw [violates_iff_breached hguard] at hd
  rcases hd with ⟨hdeny, hb⟩ | ⟨hallow, hb⟩
  · simp [hdeny, hb]
  · simp [hallow, hb]

/-! ## A margin rule -/

/-- At least 20 % upfront margin and at most 50 % peak margin. -/
def marginRule : ExtractedComplianceRule where
  ruleId := "RULE-1"
  sourceSha256 := "a1"
  circularNumber := some "SEBI/HO/1"
  clauseNumber := some "4.2"
  targetEntities := [{ rawText := "stock brokers", normalizedEntity := some "Stockbroker" }]
  deterministicLogic :=
    [{ metric := "Upfront Margin"
       canonicalFact := some "upfront_margin_pct"
       operator := .gte
       value := ⟨2, 1, Decimal.shortest_twenty⟩
       unit := "%"
       upperRequiresRange := no_valueUpper },
     { metric := "Peak Margin"
       canonicalFact := some "peak_margin"
       operator := .lte
       value := ⟨5, 1, Decimal.shortest_fifty⟩
       unit := "%"
       upperRequiresRange := no_valueUpper }]
  obligationType := .mandatory

def marginPolicy : CompiledPolicy :=
  .ofRule marginRule 1 (Calendar.DateTime.ofInstant 0 (by decide)) (by decide)

def marginEvaluator : Evaluator :=
  evaluatorFor marginPolicy (Calendar.DateTime.ofInstant 0 (by decide))

/-- A stockbroker's transaction with these facts. -/
def marginTransaction (facts : List (String × Json)) : TransactionPayload where
  transactionId := "TXN-001"
  entityType := "Stockbroker"
  facts := facts
  brokerId := none

theorem marginRule_guard : ∀ P ∈ [marginPolicy], GuardHolds P.rule "Stockbroker" := by
  intro P hP
  obtain rfl := List.mem_singleton.1 hP
  exact .inr (by decide)

/-- Without any fact no threshold is breached, and the transaction is allowed. -/
theorem missing_fact_allowed :
    Deployed marginEvaluator sprintfVerbs (marginTransaction []) [marginPolicy] ∧
    marginEvaluator.halted (marginTransaction []) = false ∧
    (∀ P ∈ [marginPolicy], GuardHolds P.rule "Stockbroker") ∧
    NumericFacts (.obj (marginTransaction []).facts) ∧
    MissingFact [marginPolicy] (marginTransaction []) ∧
    ¬ BreachedFact [marginPolicy] (marginTransaction []) ∧
    (marginEvaluator.evaluateTransaction (marginTransaction [])).decision = .allow := by
  have hdep := deployed_evaluatorFor marginPolicy (Calendar.DateTime.ofInstant 0 (by decide))
    (marginTransaction [])
  have hn : NumericFacts (.obj (marginTransaction []).facts) := by
    intro f j hj
    simp [marginTransaction, Json.get?] at hj
  have hb : ¬ BreachedFact [marginPolicy] (marginTransaction []) := by
    rintro ⟨P, hP, t, ht, x, ⟨f, j, -, hj, -⟩, -⟩
    simp [marginTransaction, Json.get?] at hj
  refine ⟨hdep, rfl, marginRule_guard, hn, ?_, hb, ?_⟩
  · refine ⟨marginPolicy, List.mem_singleton_self _, _, List.mem_cons_self, "upfront_margin_pct",
      ?_, rfl⟩
    rfl
  · rcases decision_deployed hdep rfl hn with ⟨-, hv⟩ | ⟨hd, -⟩
    · exact absurd ((violates_iff_breached marginRule_guard).1 hv) hb
    · exact hd

/-- 15 % upfront margin, and no peak margin. -/
def lowMargin : TransactionPayload := marginTransaction [("upfront_margin_pct", .int 15)]

theorem missing_fact_denied :
    MissingFact [marginPolicy] lowMargin ∧ BreachedFact [marginPolicy] lowMargin ∧
    (marginEvaluator.evaluateTransaction lowMargin).decision = .deny := by
  have hn : NumericFacts (.obj lowMargin.facts) := numericFacts_singleton "upfront_margin_pct" rfl
  have hm : MissingFact [marginPolicy] lowMargin :=
    ⟨marginPolicy, List.mem_singleton_self _, _, List.mem_cons_of_mem _ List.mem_cons_self,
      "peak_margin", rfl, rfl⟩
  have hb : BreachedFact [marginPolicy] lowMargin := by
    refine ⟨marginPolicy, List.mem_singleton_self _, _, List.mem_cons_self, 15,
      ⟨"upfront_margin_pct", .int 15, rfl, rfl, rfl⟩, ?_⟩
    change ¬ bound ⟨2, 1, _⟩ ≤ 15
    decide +kernel
  refine ⟨hm, hb, ?_⟩
  exact ((missing_fact_decision marginEvaluator sprintfVerbs lowMargin [marginPolicy]
    (deployed_evaluatorFor _ _ _) rfl marginRule_guard hn).2 (fun _ => hb) hm).2.1 hb

end RegEngine.Execution
