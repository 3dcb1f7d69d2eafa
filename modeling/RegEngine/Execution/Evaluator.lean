import RegEngine.Lib.Calendar
import RegEngine.Lib.Json
import RegEngine.Lib.Python

/-!
# `Evaluator.evaluate_transaction`

`app/execution/models.py` and `app/execution/evaluator.py`. What the evaluator is wired to (OPA, the
policy registry, the review queue, the kill switch) is the structure `Evaluator`; OPA answers with a
decision object, with no result, or not at all. Latency, logging and metrics are left out, and so are
the fields of a transaction that no modelled function reads.
-/

namespace RegEngine.Execution

open Lib Lib.Calendar Lib.Python

inductive Decision where
  | allow
  | deny
  | flagged
  deriving DecidableEq, Repr

def Decision.value : Decision → String
  | allow => "allow"
  | deny => "deny"
  | flagged => "flagged"

structure TransactionPayload where
  transactionId : String
  entityType : String
  facts : List (String × Json)
  brokerId : Option String

/-- One compiled policy's verdict on a transaction; `allow` is absent when OPA gave no result. -/
structure PolicyOutcome where
  ruleId : String
  package : String
  allow : Option Bool := none
  violations : List String := []
  circularNumber : Option String := none
  clauseNumber : Option String := none
  ruleVersion : Option Int := some 1
  policySha256 : Option String := none
  canonicalFactsDigest : Option String := none
  sourceDocumentSha256 : Option String := none
  extractedTextSha256 : Option String := none
  clauseSha256 : Option String := none
  deriving DecidableEq

/-- The id of a review case, a UUID: never the empty text. -/
abbrev CaseId := {s : String // s ≠ ""}

structure EvaluationResult where
  transactionId : String
  decision : Decision
  matchedPolicies : List PolicyOutcome := []
  reasons : List String := []
  hitlCaseId : Option CaseId := none
  evaluatedAt : DateTime

/-- An entry of the policy registry. -/
structure PolicyEntry where
  ruleId : String
  package : String
  ruleVersion : Int := 1
  policySha256 : Option String := none
  canonicalFactsDigest : Option String := none
  deriving DecidableEq

/-- The `decision` object of a policy as OPA answers it; `none` is an absent or null field. -/
structure OPADecision where
  allow : Option Bool := none
  violations : Option (List String) := none
  circularNumber : Option String := none
  clauseNumber : Option String := none
  ruleVersion : Option Int := none
  policySha256 : Option String := none
  canonicalFactsDigest : Option String := none
  sourceDocumentSha256 : Option String := none
  extractedTextSha256 : Option String := none
  sourceSha256 : Option String := none

/-- `OPAEngine.evaluate`: `OPAEngineError`, no result, or the decision object. -/
inductive OPAReply where
  | engineError
  | undefined
  | result (d : OPADecision)

/-- What an evaluator is wired to, at the moment of one call. -/
structure Evaluator where
  opa : String → Json → OPAReply
  policiesFor : String → List PolicyEntry
  enqueue : TransactionPayload → String → List PolicyOutcome → CaseId
  killSwitch : Option (Option String → Bool)
  utcnow : DateTime

/-- The document OPA evaluates a policy on. -/
def inputDoc (tx : TransactionPayload) : Json :=
  .obj [("entity_type", .str tx.entityType), ("facts", .obj tx.facts)]

/-- `n or m` of two versions. -/
def orVersion (n : Option Int) (m : Int) : Int :=
  match n with
  | some k => if k = 0 then m else k
  | none => m

/-- The outcome recorded for one registry entry and OPA's reply. -/
def policyOutcome (entry : PolicyEntry) : OPAReply → PolicyOutcome
  | .engineError => { ruleId := entry.ruleId, package := entry.package, allow := none }
  | .undefined =>
    { ruleId := entry.ruleId
      package := entry.package
      allow := none
      ruleVersion := some entry.ruleVersion
      policySha256 := entry.policySha256 }
  | .result d =>
    { ruleId := entry.ruleId
      package := entry.package
      allow := some (d.allow.getD false)
      violations := d.violations.getD []
      circularNumber := d.circularNumber
      clauseNumber := d.clauseNumber
      ruleVersion := some (orVersion d.ruleVersion entry.ruleVersion)
      policySha256 := orOption d.policySha256 entry.policySha256
      canonicalFactsDigest := orOption d.canonicalFactsDigest entry.canonicalFactsDigest
      sourceDocumentSha256 := d.sourceDocumentSha256
      extractedTextSha256 := d.extractedTextSha256
      clauseSha256 := d.sourceSha256 }

/-- `_reduce`. -/
def reduce (outcomes : List PolicyOutcome) : Decision × List String :=
  let violations := outcomes.flatMap (·.violations)
  if violations ≠ [] then (.deny, violations)
  else
    let undefined := (outcomes.filter fun o => o.allow = none).map (·.ruleId)
    if undefined ≠ [] then
      (.flagged, ["Policy(ies) " ++ reprList undefined ++
        " returned an undefined result — insufficient or malformed facts."])
    else (.allow, [])

/-- The kill switch stops this transaction. -/
def Evaluator.halted (E : Evaluator) (tx : TransactionPayload) : Bool :=
  match E.killSwitch with
  | some isActiveFor => isActiveFor tx.brokerId
  | none => false

/-- OPA's replies for the applicable policies, in order. -/
def Evaluator.replies (E : Evaluator) (tx : TransactionPayload) : List OPAReply :=
  (E.policiesFor tx.entityType).map fun entry => E.opa entry.package (inputDoc tx)

/-- The outcomes of the loop over the applicable policies. -/
def Evaluator.outcomes (E : Evaluator) (tx : TransactionPayload) : List PolicyOutcome :=
  (E.policiesFor tx.entityType).map fun entry =>
    policyOutcome entry (E.opa entry.package (inputDoc tx))

def Evaluator.evaluateTransaction (E : Evaluator) (tx : TransactionPayload) : EvaluationResult :=
  if E.halted tx then
    let reason :=
      "Governance kill switch is active; automated evaluation is halted pending manual review."
    { transactionId := tx.transactionId
      decision := .flagged
      reasons := [reason]
      hitlCaseId := some (E.enqueue tx reason [])
      evaluatedAt := E.utcnow }
  else if (E.policiesFor tx.entityType).isEmpty then
    { transactionId := tx.transactionId
      decision := .allow
      reasons := ["No compiled policy currently applies to this entity_type."]
      evaluatedAt := E.utcnow }
  else
    let outcomes := E.outcomes tx
    let (decision, reasons) := reduce outcomes
    let hitlCaseId :=
      if decision = .flagged then
        some (E.enqueue tx
          (orText (some ("; ".intercalate reasons))
            "One or more policies returned an undefined decision.") outcomes)
      else none
    { transactionId := tx.transactionId
      decision := decision
      matchedPolicies := outcomes
      reasons := reasons
      hitlCaseId := hitlCaseId
      evaluatedAt := E.utcnow }

end RegEngine.Execution
