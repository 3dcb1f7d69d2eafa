import RegEngine.Execution.Evaluator
import RegEngine.Lib.Binary64

/-!
# Data of the negotiation

`app/negotiation/models.py`. The numbers are those of any arithmetic (`Lib.Number`); the program's own
are doubles.
-/

namespace RegEngine.Negotiation

open Lib Lib.Calendar Execution

inductive NegotiationStatus where
  | consensus
  | arbitrated
  | escalatedToHitl
  deriving DecidableEq, Repr

structure AgentVerdict (α : Type) where
  agentKey : String
  domain : String
  decision : Decision
  confidence : α
  weight : α
  citedCircularNumber : Option String := none
  citedClauseNumber : Option String := none
  rationale : String
  matchedRuleIds : List String := []

/-- The shares are those of every decision. -/
structure WeightedVoteTally (α : Type) where
  weightedShare : Decision → α
  leadingDecision : Decision
  leadingShare : α
  unanimous : Bool

structure NegotiationRound (α : Type) where
  roundNumber : Nat
  verdicts : List (AgentVerdict α)
  tally : WeightedVoteTally α
  consensusReached : Bool
  dissentingAgents : List String := []

inductive ConflictReasoningNode (α : Type) where
  | node (claim : String) (supportingAgentKey supportingCircularNumber : Option String)
      (supportingClauseNumber : Option String) (evidenceConfidence : Option α)
      (children : List (ConflictReasoningNode α))

structure ArbiterResolution (α : Type) where
  resolvedDecision : Decision
  justification : String
  precedenceRule : String
  citedCircularNumber : Option String := none
  citedClauseNumber : Option String := none
  overriddenAgentKeys : List String := []
  winningConfidence : α

structure NegotiationResult (α : Type) where
  negotiationId : String
  transactionId : String
  status : NegotiationStatus
  finalDecision : Decision
  rounds : List (NegotiationRound α)
  arbiterResolution : Option (ArbiterResolution α) := none
  reasoningTree : Option (ConflictReasoningNode α) := none
  hitlCaseId : Option CaseId := none
  startedAt : DateTime
  completedAt : Option DateTime := none

end RegEngine.Negotiation

/-!
## Domain agents

`app/negotiation/agents.py`: an agent votes on the outcomes whose package or violations have one of
its keywords in them, and abstains when there are none.
-/

namespace RegEngine.Negotiation

open Lib Lib.Python Execution

structure DomainAgent (α : Type) where
  agentKey : String
  domain : String
  weight : α
  domainKeywords : List String := []

/-- `_outcome_text`. -/
def outcomeText (outcome : PolicyOutcome) : String :=
  replace "-" " " (replace "_" " "
    (lower (outcome.package ++ " " ++ " ".intercalate outcome.violations)))

variable {α : Type} [Number α]

/-- `_NEGOTIATION_CONCESSION_DELTA`. -/
def negotiationConcessionDelta : α := 0.35

/-- `_MIN_CONFIDENCE_AFTER_CONCESSION`. -/
def minConfidenceAfterConcession : α := 0.05

/-- The confidence after a concession. -/
def softenedConfidence (confidence : α) : α :=
  Number.max minConfidenceAfterConcession (confidence - negotiationConcessionDelta)

namespace DomainAgent

omit [Number α] in
/-- `_is_in_scope`. -/
def isInScope (agent : DomainAgent α) (outcome : PolicyOutcome) : Bool :=
  agent.domainKeywords.any fun keyword => contains (outcomeText outcome) (replace "-" " " keyword)

omit [Number α] in
def scopedOutcomes (agent : DomainAgent α) (policyOutcomes : List PolicyOutcome) :
    List PolicyOutcome :=
  policyOutcomes.filter agent.isInScope

omit [Number α] in
/-- A vote before any round: `_reduce_scoped_outcomes` gives it a decision, a confidence and a
rationale. -/
def verdict (agent : DomainAgent α) (first : PolicyOutcome) (rest : List PolicyOutcome)
    (decision : Decision) (confidence : α) (rationale : String) : AgentVerdict α :=
  let inScope := first :: rest
  let cited := (inScope.find? fun o => truthy o.circularNumber).getD first
  { agentKey := agent.agentKey
    domain := agent.domain
    decision := decision
    confidence := confidence
    weight := agent.weight
    citedCircularNumber := cited.circularNumber
    citedClauseNumber := cited.clauseNumber
    rationale := rationale
    matchedRuleIds := inScope.map (·.ruleId) }

/-- `_reduce_scoped_outcomes`, on the outcomes in scope, the first of which is `first`. -/
def reduceScopedOutcomes (agent : DomainAgent α) (transaction : TransactionPayload)
    (first : PolicyOutcome) (rest : List PolicyOutcome) : AgentVerdict α :=
  let inScope := first :: rest
  let violations := inScope.flatMap (·.violations)
  if violations ≠ [] then
    agent.verdict first rest .deny 0.9 ("; ".intercalate violations)
  else
    let undefined := inScope.filter fun o => o.allow = none
    if undefined ≠ [] then
      agent.verdict first rest .flagged 0.4
        (toString undefined.length ++
          " in-domain polic(ies) returned an undefined result for transaction " ++
          transaction.transactionId ++ ".")
    else
      agent.verdict first rest .allow 0.85
        ("All " ++ toString inScope.length ++ " in-domain polic(ies) passed for transaction " ++
          transaction.transactionId ++ ".")

/-- Another agent of no smaller weight denied and cited a circular, while this vote is not to deny. -/
def strongerDissent (agent : DomainAgent α) (v : AgentVerdict α) (round : NegotiationRound α) :
    Bool :=
  round.verdicts.any fun other =>
    other.agentKey ≠ agent.agentKey ∧ other.decision = .deny ∧ other.decision ≠ v.decision ∧
      agent.weight ≤ other.weight ∧ other.citedCircularNumber.isSome = true

/-- `_apply_negotiation_pressure`. -/
def applyNegotiationPressure (agent : DomainAgent α) (v : AgentVerdict α) :
    Option (NegotiationRound α) → AgentVerdict α
  | none => v
  | some priorRound =>
    if agent.strongerDissent v priorRound then
      { v with
        confidence := softenedConfidence v.confidence
        rationale := v.rationale ++
          " [Confidence reduced: a higher-or-equal-weight agent cited a specific SEBI clause for " ++
          "DENY in the prior round.]" }
    else v

/-- `evaluate`. -/
def evaluate (agent : DomainAgent α) (transaction : TransactionPayload)
    (policyOutcomes : List PolicyOutcome) (priorRound : Option (NegotiationRound α)) :
    Option (AgentVerdict α) :=
  match agent.scopedOutcomes policyOutcomes with
  | [] => none
  | first :: rest =>
    some (agent.applyNegotiationPressure (agent.reduceScopedOutcomes transaction first rest)
      priorRound)

end DomainAgent

/-! ### The agents of the package -/

/-- `MarginAgent`. -/
def marginAgent : DomainAgent α where
  agentKey := "margin_agent"
  domain := "margin"
  weight := 1.2
  domainKeywords := ["margin", "mtm", "mark-to-market", "collateral"]

/-- `RiskDisclosureAgent`. -/
def riskDisclosureAgent : DomainAgent α where
  agentKey := "risk_disclosure_agent"
  domain := "risk_disclosure"
  weight := 1.0
  domainKeywords :=
    ["risk disclosure", "risk factor", "disclosure statement", "disclosure document"]

/-- `FundSegregationAgent`. -/
def fundSegregationAgent : DomainAgent α where
  agentKey := "fund_segregation_agent"
  domain := "fund_segregation"
  weight := 1.1
  domainKeywords :=
    ["segregat", "client fund", "client bank account", "client money", "commingl"]

def packageAgents : List (DomainAgent α) :=
  [marginAgent, riskDisclosureAgent, fundSegregationAgent]

end RegEngine.Negotiation
