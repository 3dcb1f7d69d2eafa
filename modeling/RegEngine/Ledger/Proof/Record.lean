import RegEngine.Lib.Except
import RegEngine.Execution.Proof.Reduce
import RegEngine.Ledger.Integration

/-!
# Recording an evaluation

When `build_ledger_events` accepts what `evaluate_transaction` returns, and what it then records.

* `evaluation_recorded_iff`: the events are built exactly unless one policy is violated and another
  gave no decision: the transaction is denied, no case is opened, and the row that needs one is
  refused.
* `ledger_agrees_iff`: the rows agree with the decision exactly when the violations and the `allow`
  flags of the decision objects agree.
-/

namespace RegEngine.Ledger

open Lib Lib.Calendar Lib.Python Execution

/-! ## Accepted payloads -/

/-- What `_hitl_review_id_consistency` asks of a payload. -/
def Payload.Consistent (p : Payload) : Prop :=
  p.evaluationResult = .hitlReview ↔ truthy p.hitlReviewId = true

theorem validate_ok_iff (p : Payload) :
    (∃ e, ComplianceEvaluationEvent.validate p = .ok e) ↔ p.Consistent := by
  unfold ComplianceEvaluationEvent.validate Payload.Consistent
  split <;> split <;> simp_all

theorem toPayload_validate {p : Payload} {e : ComplianceEvaluationEvent}
    (h : ComplianceEvaluationEvent.validate p = .ok e) : e.toPayload = p := by
  unfold ComplianceEvaluationEvent.validate at h
  split at h <;> split at h <;> cases h <;> rfl

variable {explain : PolicyOutcome → List String} {E : Evaluator} {tx : TransactionPayload}
  {result : EvaluationResult}

/-- The events are those of the payloads, when every payload is accepted. -/
theorem buildLedgerEvents_ok_iff :
    (∃ es, buildLedgerEvents explain tx result = .ok es) ↔
      ∀ p ∈ ledgerPayloads explain tx result, p.Consistent := by
  rw [buildLedgerEvents, Lib.Except.exists_mapM_ok_iff]
  simp only [validate_ok_iff]

theorem toPayload_buildLedgerEvents {es : List ComplianceEvaluationEvent}
    (h : buildLedgerEvents explain tx result = .ok es) :
    es.map (·.toPayload) = ledgerPayloads explain tx result :=
  Lib.Except.map_mapM_ok (fun _ _ hv => toPayload_validate hv) h

theorem length_ledgerPayloads :
    (ledgerPayloads explain tx result).length = max 1 result.matchedPolicies.length := by
  unfold ledgerPayloads
  split
  · rename_i h
    simp [List.isEmpty_iff.1 h]
  · rename_i h
    have : 0 < result.matchedPolicies.length := by
      simpa [List.length_pos_iff] using h
    simp only [List.length_map]
    omega

theorem length_buildLedgerEvents {es : List ComplianceEvaluationEvent}
    (h : buildLedgerEvents explain tx result = .ok es) :
    es.length = max 1 result.matchedPolicies.length := by
  have hlen : (es.map (·.toPayload)).length = max 1 result.matchedPolicies.length := by
    rw [toPayload_buildLedgerEvents h, length_ledgerPayloads]
  rwa [List.length_map] at hlen

/-! ## Rows of one evaluation -/

theorem outcomeResult_eq_hitlReview (o : PolicyOutcome) :
    outcomeResult o = .hitlReview ↔ o.allow = none := by
  unfold outcomeResult
  split <;> simp_all

theorem outcomeResult_eq_fail (o : PolicyOutcome) :
    outcomeResult o = .fail ↔ o.allow = some false := by
  unfold outcomeResult
  split <;> simp_all

theorem truthy_caseId (c : Option CaseId) : truthy (c.map (·.1)) = c.isSome := by
  cases c with
  | none => rfl
  | some c => simpa [truthy] using c.2

/-- The row of a policy is refused exactly when it needs a case and none was opened. -/
theorem outcomePayload_consistent (o : PolicyOutcome) :
    (outcomePayload explain tx result o).Consistent ↔
      (o.allow = none → result.hitlCaseId.isSome = true) := by
  have hresult : (outcomePayload explain tx result o).evaluationResult = outcomeResult o := rfl
  have hreview : (outcomePayload explain tx result o).hitlReviewId =
      reviewId result (outcomeResult o) := rfl
  rw [Payload.Consistent, hresult, hreview, reviewId]
  simp only [outcomeResult_eq_hitlReview]
  by_cases ho : o.allow = none
  · simp only [ho, if_true, truthy_caseId, true_iff, forall_const]
  · simp [ho, truthy]

theorem transactionPayload_consistent :
    (transactionPayload tx result).Consistent ↔
      (result.decision = .flagged → result.hitlCaseId.isSome = true) := by
  have hresult : (transactionPayload tx result).evaluationResult = decisionResult result.decision :=
    rfl
  have hreview : (transactionPayload tx result).hitlReviewId =
      if result.decision = .flagged then result.hitlCaseId.map (·.1) else none := rfl
  rw [Payload.Consistent, hresult, hreview]
  cases hd : result.decision with
  | allow | deny => simp [decisionResult, truthy]
  | flagged => simp only [decisionResult, if_true, truthy_caseId, true_iff, forall_const]

/-- Every row is accepted when a case was opened, or when no row needs one. -/
theorem payloads_consistent_iff :
    (∀ p ∈ ledgerPayloads explain tx result, p.Consistent) ↔
      ((result.matchedPolicies = [] ∧ result.decision = .flagged ∨
        ∃ o ∈ result.matchedPolicies, o.allow = none) → result.hitlCaseId.isSome = true) := by
  unfold ledgerPayloads
  by_cases hnil : result.matchedPolicies = []
  · simp [hnil, transactionPayload_consistent]
  · simp only [List.isEmpty_iff, hnil, if_false, List.forall_mem_map, outcomePayload_consistent,
      false_and, false_or]
    constructor
    · rintro h ⟨o, ho, hnone⟩
      exact h o ho hnone
    · intro h o ho hnone
      exact h ⟨o, ho, hnone⟩

/-! ## Every evaluation recorded -/

/-- No row is refused, exactly unless a running evaluator meets a violated policy and one without a
decision: the transaction is denied, so no case is opened for the row that needs one. -/
theorem evaluation_ok_iff (explain : PolicyOutcome → List String) (E : Evaluator)
    (tx : TransactionPayload) :
    (∃ es, buildLedgerEvents explain tx (E.evaluateTransaction tx) = .ok es) ↔
      ¬ (E.halted tx = false ∧ Violated E tx ∧ Undecided E tx) := by
  rw [buildLedgerEvents_ok_iff, payloads_consistent_iff]
  by_cases hh : E.halted tx = true
  · simp [hh, (evaluateTransaction_halted hh).2.2]
  · obtain ⟨hdec, hmatched, hcase⟩ := evaluateTransaction_running (by simpa using hh)
    rw [← hdec] at hcase
    simp only [hmatched, exists_undefined_iff, hcase]
    rcases decision_running (by simpa using hh) with ⟨hd, hv⟩ | ⟨hd, hv, hu⟩ | ⟨hd, hv, hu⟩
    · simp [hd, hh, hv]
    · simp [hd, hv]
    · simp [hd, hv, hu]

/-- **The events of an evaluation are built, one for each matched policy and at least one, exactly
unless a running evaluator meets a violated policy and one without a decision.** -/
theorem evaluation_recorded_iff (explain : PolicyOutcome → List String) (E : Evaluator)
    (tx : TransactionPayload) :
    (∃ es, buildLedgerEvents explain tx (E.evaluateTransaction tx) = .ok es ∧
      es.length = max 1 (E.evaluateTransaction tx).matchedPolicies.length) ↔
      ¬ (E.halted tx = false ∧ Violated E tx ∧ Undecided E tx) := by
  rw [← evaluation_ok_iff]
  exact exists_congr fun es => and_iff_left_of_imp length_buildLedgerEvents

/-- A running evaluator with the given registry entries and replies by package. -/
def sampleEvaluator (entries : List PolicyEntry) (reply : String → OPAReply) : Evaluator where
  opa package _ := reply package
  policiesFor _ := entries
  enqueue _ _ _ := ⟨"5f0c0d3a", by decide⟩
  killSwitch := none
  utcnow := DateTime.ofInstant (738886 * dayMicros) (by decide)

def sampleTransaction : TransactionPayload where
  transactionId := "TXN-1"
  entityType := "Stockbroker"
  facts := [("upfront_margin_pct", .int 15)]
  brokerId := some "BRK-1"

/-- One policy is violated and OPA has no result for the other: nothing is recorded. -/
theorem evaluation_recorded_mixed :
    ¬ ∃ es, buildLedgerEvents (fun _ => []) sampleTransaction
      ((sampleEvaluator [{ ruleId := "a:1", package := "p" }, { ruleId := "b:2", package := "q" }]
        fun package => if package = "p" then
          .result { allow := some false, violations := some ["margin below the minimum"] }
          else .undefined).evaluateTransaction sampleTransaction) = .ok es := by
  rw [evaluation_ok_iff, not_not]
  refine ⟨rfl, ⟨_, List.mem_cons_self, rfl⟩, ⟨_, List.mem_cons_of_mem _ List.mem_cons_self, rfl⟩⟩

/-! ## Rows and decision -/

/-- The rows of an evaluation agree with its decision. -/
def Agrees (es : List ComplianceEvaluationEvent) : Decision → Prop
  | .allow => ∀ e ∈ es, e.evaluationResult = .pass
  | .deny => ∃ e ∈ es, e.evaluationResult = .fail
  | .flagged => (∀ e ∈ es, e.evaluationResult ≠ .fail) ∧ ∃ e ∈ es, e.evaluationResult = .hitlReview

theorem exists_row_iff {es : List ComplianceEvaluationEvent} {q : EvaluationOutcome}
    (h : buildLedgerEvents explain tx result = .ok es) :
    (∃ e ∈ es, e.evaluationResult = q) ↔
      ∃ p ∈ ledgerPayloads explain tx result, p.evaluationResult = q := by
  rw [← toPayload_buildLedgerEvents h]
  simp

/-- The rows of a running evaluator's result: one fails exactly when a decision object does not
allow, one goes to review exactly when a decision is missing. -/
theorem rows_running (hh : E.halted tx = false) {es : List ComplianceEvaluationEvent}
    (h : buildLedgerEvents explain tx (E.evaluateTransaction tx) = .ok es) :
    ((∃ e ∈ es, e.evaluationResult = .fail) ↔ Refused E tx) ∧
    ((∃ e ∈ es, e.evaluationResult = .hitlReview) ↔ Undecided E tx) := by
  obtain ⟨hdec, hmatched, -⟩ := evaluateTransaction_running hh
  rw [exists_row_iff h, exists_row_iff h, ← exists_refused_iff, ← exists_undefined_iff,
    ledgerPayloads, hmatched]
  by_cases hnil : E.outcomes tx = []
  · simp [hnil, transactionPayload, hdec, reduce, decisionResult]
  · simp [hnil, outcomePayload, outcomeResult_eq_fail, outcomeResult_eq_hitlReview]

theorem agrees_iff (es : List ComplianceEvaluationEvent) (d : Decision) :
    Agrees es d ↔ match d with
      | .allow => (¬ ∃ e ∈ es, e.evaluationResult = .fail) ∧
          ¬ ∃ e ∈ es, e.evaluationResult = .hitlReview
      | .deny => ∃ e ∈ es, e.evaluationResult = .fail
      | .flagged => (¬ ∃ e ∈ es, e.evaluationResult = .fail) ∧
          ∃ e ∈ es, e.evaluationResult = .hitlReview := by
  cases d with
  | deny => rfl
  | flagged => simp [Agrees]
  | allow =>
    simp only [Agrees, not_exists, not_and, ← forall_and]
    refine forall_congr' fun e => ?_
    cases e.evaluationResult <;> simp

/-- **The rows agree with the decision exactly when** the evaluator is halted, or some policy is
violated, every policy gave a decision and one of them does not allow, or no policy is violated and
none of the decisions fails to allow. -/
theorem ledger_agrees_iff (explain : PolicyOutcome → List String) (E : Evaluator)
    (tx : TransactionPayload) :
    (∃ es, buildLedgerEvents explain tx (E.evaluateTransaction tx) = .ok es ∧
      Agrees es (E.evaluateTransaction tx).decision) ↔
      E.halted tx = true ∨ (Violated E tx ∧ ¬ Undecided E tx ∧ Refused E tx) ∨
        (¬ Violated E tx ∧ ¬ Refused E tx) := by
  by_cases hh : E.halted tx = true
  · obtain ⟨es, hes⟩ := (evaluation_ok_iff explain E tx).2 (by simp [hh])
    obtain ⟨hdec, hmatched, -⟩ := evaluateTransaction_halted hh
    refine iff_of_true ⟨es, hes, ?_⟩ (.inl hh)
    rw [agrees_iff, hdec]
    simp [exists_row_iff hes, ledgerPayloads, hmatched, transactionPayload, hdec, decisionResult]
  · have hrun : E.halted tx = false := by simpa using hh
    have hagree : ∀ es, buildLedgerEvents explain tx (E.evaluateTransaction tx) = .ok es →
        (Agrees es (E.evaluateTransaction tx).decision ↔
          (Violated E tx ∧ Refused E tx) ∨ (¬ Violated E tx ∧ ¬ Refused E tx)) := by
      intro es hes
      rw [agrees_iff, (rows_running hrun hes).1, (rows_running hrun hes).2]
      rcases decision_running hrun with ⟨hd, hv⟩ | ⟨hd, hv, hu⟩ | ⟨hd, hv, hu⟩
      · simp [hd, hv]
      · simp [hd, hv, hu]
      · simp [hd, hv, hu]
    have hok := evaluation_ok_iff explain E tx
    simp only [hrun, true_and] at hok
    constructor
    · rintro ⟨es, hes, ha⟩
      have hnot := hok.1 ⟨es, hes⟩
      have := (hagree es hes).1 ha
      tauto
    · intro hcond
      obtain ⟨es, hes⟩ := hok.2 (by tauto)
      exact ⟨es, hes, (hagree es hes).2 (by tauto)⟩

/-- A policy whose entity guard does not hold refuses without a violation: the transaction is
allowed and its row fails. -/
theorem ledger_agrees_guarded :
    ¬ ∃ es, buildLedgerEvents (fun _ => []) sampleTransaction
      ((sampleEvaluator [{ ruleId := "a:1", package := "p" }]
        fun _ => .result { allow := some false, violations := some [] }).evaluateTransaction
          sampleTransaction) = .ok es ∧
      Agrees es ((sampleEvaluator [{ ruleId := "a:1", package := "p" }]
        fun _ => .result { allow := some false, violations := some [] }).evaluateTransaction
          sampleTransaction).decision := by
  rintro ⟨es, hes, ha⟩
  rw [agrees_iff] at ha
  refine ha.1 ((rows_running rfl hes).1.2 ⟨_, List.mem_cons_self, rfl⟩)

end RegEngine.Ledger
