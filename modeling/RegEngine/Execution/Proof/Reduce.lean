import RegEngine.Execution.Evaluator

/-!
# What the evaluator decides

`evaluate_transaction` reduces the outcomes of OPA's replies (`evaluateTransaction_running`) unless
the kill switch halts it (`evaluateTransaction_halted`).

* `decision_running`: the decision, by what OPA replied.
-/

namespace RegEngine.Execution

open Lib

/-! ## Replies and outcomes -/

/-- The decision object reports a violation. -/
def OPAReply.violates : OPAReply → Bool
  | result d => d.violations.getD [] ≠ []
  | engineError | undefined => false

/-- No decision object: OPA failed or gave no result. -/
def OPAReply.missing : OPAReply → Bool
  | engineError | undefined => true
  | result _ => false

/-- The decision object does not allow. -/
def OPAReply.refuses : OPAReply → Bool
  | result d => d.allow.getD false = false
  | engineError | undefined => false

theorem policyOutcome_violates (entry : PolicyEntry) (r : OPAReply) :
    (policyOutcome entry r).violations ≠ [] ↔ r.violates = true := by
  cases r <;> simp [policyOutcome, OPAReply.violates]

theorem policyOutcome_missing (entry : PolicyEntry) (r : OPAReply) :
    (policyOutcome entry r).allow = none ↔ r.missing = true := by
  cases r <;> simp [policyOutcome, OPAReply.missing]

theorem policyOutcome_refuses (entry : PolicyEntry) (r : OPAReply) :
    (policyOutcome entry r).allow = some false ↔ r.refuses = true := by
  cases r <;> simp [policyOutcome, OPAReply.refuses]

/-- A property of outcomes that the reply decides holds of some outcome when it holds of some
reply. -/
theorem exists_outcome_iff {E : Evaluator} {tx : TransactionPayload} {p : PolicyOutcome → Prop}
    {q : OPAReply → Prop} (h : ∀ entry r, p (policyOutcome entry r) ↔ q r) :
    (∃ o ∈ E.outcomes tx, p o) ↔ ∃ r ∈ E.replies tx, q r := by
  simp only [Evaluator.outcomes, Evaluator.replies, List.mem_map]
  constructor
  · rintro ⟨_, ⟨entry, he, rfl⟩, hp⟩
    exact ⟨_, ⟨entry, he, rfl⟩, (h _ _).1 hp⟩
  · rintro ⟨_, ⟨entry, he, rfl⟩, hq⟩
    exact ⟨_, ⟨entry, he, rfl⟩, (h _ _).2 hq⟩

/-! ## `_reduce` -/

theorem flatMap_violations_ne_nil {os : List PolicyOutcome} :
    os.flatMap (·.violations) ≠ [] ↔ ∃ o ∈ os, o.violations ≠ [] := by
  simp [List.flatMap_eq_nil_iff]

theorem undefined_ne_nil {os : List PolicyOutcome} :
    (os.filter fun o => o.allow = none).map (·.ruleId) ≠ [] ↔ ∃ o ∈ os, o.allow = none := by
  simp [List.filter_eq_nil_iff]

theorem reduce_eq (os : List PolicyOutcome) :
    (reduce os).1 = if ∃ o ∈ os, o.violations ≠ [] then .deny
      else if ∃ o ∈ os, o.allow = none then .flagged else .allow := by
  simp only [reduce, flatMap_violations_ne_nil, undefined_ne_nil]
  split
  · rfl
  · split <;> rfl

/-! ## `evaluate_transaction` -/

section
variable {E : Evaluator} {tx : TransactionPayload}

theorem evaluateTransaction_halted (h : E.halted tx = true) :
    (E.evaluateTransaction tx).decision = .flagged ∧
    (E.evaluateTransaction tx).matchedPolicies = [] ∧
    (E.evaluateTransaction tx).hitlCaseId.isSome = true := by
  simp [Evaluator.evaluateTransaction, h]

/-- A running evaluator reduces the outcomes, and opens a case exactly for a flagged transaction. -/
theorem evaluateTransaction_running (h : E.halted tx = false) :
    (E.evaluateTransaction tx).decision = (reduce (E.outcomes tx)).1 ∧
    (E.evaluateTransaction tx).matchedPolicies = E.outcomes tx ∧
    ((E.evaluateTransaction tx).hitlCaseId.isSome = true ↔
      (reduce (E.outcomes tx)).1 = .flagged) := by
  unfold Evaluator.evaluateTransaction
  simp only [h, Bool.false_eq_true, if_false]
  by_cases hnone : (E.policiesFor tx.entityType).isEmpty = true
  · have hout : E.outcomes tx = [] := by
      simpa [Evaluator.outcomes] using hnone
    simp [hnone, hout, reduce]
  · simp only [hnone, Bool.false_eq_true, if_false, true_and]
    split <;> simp_all

/-- One policy of the transaction is violated. -/
def Violated (E : Evaluator) (tx : TransactionPayload) : Prop :=
  ∃ r ∈ E.replies tx, r.violates = true

/-- One policy of the transaction gave no decision. -/
def Undecided (E : Evaluator) (tx : TransactionPayload) : Prop :=
  ∃ r ∈ E.replies tx, r.missing = true

/-- The decision object of one policy does not allow. -/
def Refused (E : Evaluator) (tx : TransactionPayload) : Prop :=
  ∃ r ∈ E.replies tx, r.refuses = true

theorem exists_violations_iff : (∃ o ∈ E.outcomes tx, o.violations ≠ []) ↔ Violated E tx :=
  exists_outcome_iff policyOutcome_violates

theorem exists_undefined_iff : (∃ o ∈ E.outcomes tx, o.allow = none) ↔ Undecided E tx :=
  exists_outcome_iff policyOutcome_missing

theorem exists_refused_iff : (∃ o ∈ E.outcomes tx, o.allow = some false) ↔ Refused E tx :=
  exists_outcome_iff policyOutcome_refuses

/-- **The decision of a running evaluator**: deny on a violation, else flag on a missing decision,
else allow. -/
theorem decision_running (h : E.halted tx = false) :
    ((E.evaluateTransaction tx).decision = .deny ∧ Violated E tx) ∨
    ((E.evaluateTransaction tx).decision = .flagged ∧ ¬ Violated E tx ∧ Undecided E tx) ∨
    ((E.evaluateTransaction tx).decision = .allow ∧ ¬ Violated E tx ∧ ¬ Undecided E tx) := by
  rw [(evaluateTransaction_running h).1, reduce_eq, ← exists_violations_iff, ← exists_undefined_iff]
  split
  · rename_i hv
    exact .inl ⟨rfl, hv⟩
  · rename_i hv
    split
    · rename_i hu
      exact .inr (.inl ⟨rfl, hv, hu⟩)
    · rename_i hu
      exact .inr (.inr ⟨rfl, hv, hu⟩)

end

end RegEngine.Execution
