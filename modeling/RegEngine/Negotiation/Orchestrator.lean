import RegEngine.Negotiation.Agents

/-!
# Consensus

`app/negotiation/consensus.py`: the weighted vote of one round, and rounds until a decision has
consensus or no round is left.
-/

namespace RegEngine.Negotiation

open Lib Execution

/-- `Decision`, in the order of its values. -/
def decisions : List Decision := [.allow, .deny, .flagged]

variable {α : Type} [Number α]

/-- `_DENY_TIE_BREAK_MARGIN`. -/
def denyTieBreakMargin : α := 0.05

/-- The voting power of every decision, and of all. -/
structure Votes (α : Type) where
  votingPower : Decision → α
  totalPower : α

def AgentVerdict.power (v : AgentVerdict α) : α := v.weight * v.confidence

/-- The loop body of `tally_votes`. -/
def Votes.add (votes : Votes α) (v : AgentVerdict α) : Votes α :=
  { votingPower := fun d =>
      if d = v.decision then votes.votingPower d + v.power else votes.votingPower d
    totalPower := votes.totalPower + v.power }

def votesOf (verdicts : List (AgentVerdict α)) : Votes α :=
  verdicts.foldl Votes.add { votingPower := fun _ => 0, totalPower := 0 }

/-- The decision with the largest share, or to deny where that is near it. -/
def leadingDecision (share : Decision → α) : Decision :=
  let leading := Number.maxBy share .allow [.deny, .flagged]
  if leading ≠ .deny ∧ share leading - share .deny < denyTieBreakMargin ∧ 0 < share .deny then .deny
  else leading

def tallyVotes (verdicts : List (AgentVerdict α)) : WeightedVoteTally α :=
  let votes := votesOf verdicts
  if votes.totalPower == 0 then
    { weightedShare := fun _ => 0
      leadingDecision := .flagged
      leadingShare := 0
      unanimous := false }
  else
    let share := fun d => votes.votingPower d / votes.totalPower
    { weightedShare := share
      leadingDecision := leadingDecision share
      leadingShare := share (leadingDecision share)
      unanimous := (verdicts.map (·.decision)).dedup.length = 1 }

def checkConsensus (tally : WeightedVoteTally α) (threshold : α) : Bool :=
  tally.unanimous || decide (threshold ≤ tally.leadingShare)

inductive ConsensusState where
  | collecting
  | consensusReached
  | negotiating
  | deadlocked
  deriving DecidableEq, Repr

structure ConsensusEngine (α : Type) where
  agents : List (DomainAgent α)
  threshold : α
  maxRounds : Int

namespace ConsensusEngine

/-- `_collect_verdicts`. -/
def collectVerdicts (E : ConsensusEngine α) (transaction : TransactionPayload)
    (policyOutcomes : List PolicyOutcome) (priorRound : Option (NegotiationRound α)) :
    List (AgentVerdict α) :=
  E.agents.filterMap fun agent => agent.evaluate transaction policyOutcomes priorRound

/-- The round of these verdicts. -/
def round (E : ConsensusEngine α) (roundNumber : Nat) (verdicts : List (AgentVerdict α)) :
    NegotiationRound α :=
  let tally := tallyVotes verdicts
  { roundNumber := roundNumber
    verdicts := verdicts
    tally := tally
    consensusReached := checkConsensus tally E.threshold
    dissentingAgents :=
      (verdicts.filter fun v => v.decision ≠ tally.leadingDecision).map (·.agentKey) }

/-- The loop of `run`, with these many rounds left. -/
def rounds (E : ConsensusEngine α) (transaction : TransactionPayload)
    (policyOutcomes : List PolicyOutcome) :
    Nat → Nat → Option (NegotiationRound α) → List (NegotiationRound α) × ConsensusState
  | 0, _, _ => ([], .deadlocked)
  | left + 1, roundNumber, priorRound =>
    let verdicts := E.collectVerdicts transaction policyOutcomes priorRound
    if verdicts.isEmpty then ([], .deadlocked)
    else
      let thisRound := E.round roundNumber verdicts
      if thisRound.consensusReached then ([thisRound], .consensusReached)
      else
        let (rest, state) :=
          E.rounds transaction policyOutcomes left (roundNumber + 1) (some thisRound)
        (thisRound :: rest, state)

def run (E : ConsensusEngine α) (transaction : TransactionPayload)
    (policyOutcomes : List PolicyOutcome) : List (NegotiationRound α) × ConsensusState :=
  E.rounds transaction policyOutcomes E.maxRounds.toNat 1 none

end ConsensusEngine

end RegEngine.Negotiation

/-!
## Arbiter and orchestrator

`app/negotiation/arbiter.py` and `app/negotiation/orchestrator.py`. The review queue is the function
that gives a case its id; the transcript store, the metrics and the log are left out.
-/

namespace RegEngine.Negotiation

open Lib Lib.Calendar Lib.Python Execution

variable {α : Type} [Number α]

/-! ### `ConflictArbiterAgent` -/

/-- `max` of no verdicts raises. -/
inductive NegotiationError where
  | valueError (message : String)
  deriving DecidableEq

/-- The part of the reasoning tree on one round. -/
def roundNode (r : NegotiationRound α) : ConflictReasoningNode α :=
  .node
    ("Round " ++ toString r.roundNumber ++ ": leading decision " ++ r.tally.leadingDecision.value ++
      " at " ++ Number.percent r.tally.leadingShare ++ " weighted share (consensus_reached=" ++
      (if r.consensusReached then "True" else "False") ++ ")")
    none none none none
    (r.verdicts.map fun v =>
      .node
        (v.agentKey ++ " voted " ++ v.decision.value ++ " (confidence=" ++
          Number.fixed 2 v.confidence ++ ", weight=" ++ Number.fixed 2 v.weight ++ "): " ++
          v.rationale)
        (some v.agentKey) v.citedCircularNumber v.citedClauseNumber (some v.confidence) [])

def buildReasoningTree (rounds : List (NegotiationRound α)) : ConflictReasoningNode α :=
  .node "Multi-agent negotiation deadlocked; arbiter cross-examination follows." none none none none
    (rounds.map roundNode)

omit [Number α] in
/-- The verdict denies and cites a circular and a clause. -/
def AgentVerdict.explicitDeny (v : AgentVerdict α) : Bool :=
  v.decision = .deny ∧ truthy v.citedCircularNumber = true ∧ truthy v.citedClauseNumber = true

/-- The resolution for the strongest denial. -/
def explicitDenyResolution (finalRound : NegotiationRound α) (winner : AgentVerdict α) :
    ArbiterResolution α :=
  { resolvedDecision := .deny
    justification :=
      winner.agentKey ++ " cited an explicit regulatory breach at Circular " ++
        winner.citedCircularNumber.getD "None" ++ ", Clause " ++
        winner.citedClauseNumber.getD "None" ++ ": " ++ winner.rationale ++ ". " ++
        "An explicit, clause-cited DENY overrides confidence-weighted disagreement from other " ++
        "domain agents."
    precedenceRule := "EXPLICIT_DENY_PRECEDENCE"
    citedCircularNumber := winner.citedCircularNumber
    citedClauseNumber := winner.citedClauseNumber
    overriddenAgentKeys :=
      (finalRound.verdicts.filter fun v => v.agentKey ≠ winner.agentKey).map (·.agentKey)
    winningConfidence := winner.confidence }

/-- `_explicit_deny_precedence`. -/
def explicitDenyPrecedence (finalRound : NegotiationRound α) : Option (ArbiterResolution α) :=
  match finalRound.verdicts.filter AgentVerdict.explicitDeny with
  | [] => none
  | first :: rest =>
    some (explicitDenyResolution finalRound
      (Number.firstMax
        (fun v w => Number.tupleLt [v.weight, v.confidence] v.agentKey
          [w.weight, w.confidence] w.agentKey) first rest))

/-- `_highest_weight_confidence`. -/
def highestWeightConfidence (minConfidence : α) (finalRound : NegotiationRound α) :
    Except NegotiationError (Option (ArbiterResolution α)) :=
  let tally := tallyVotes finalRound.verdicts
  if tally.leadingShare < minConfidence then .ok none
  else
    match finalRound.verdicts.filter fun v => v.decision = tally.leadingDecision with
    | [] => .error (.valueError "max() iterable argument is empty")
    | first :: rest =>
      let best := Number.firstMax
        (fun v w => Number.tupleLt [v.power] v.agentKey [w.power] w.agentKey) first rest
      .ok (some
        { resolvedDecision := tally.leadingDecision
          justification :=
            "No single agent cited an explicit clause-grounded breach; " ++
              tally.leadingDecision.value ++ " carried " ++ Number.percent tally.leadingShare ++
              " of weighted voting power in the final round, above the " ++
              Number.percent minConfidence ++
              " confidence bar required for the arbiter to resolve without HITL. " ++
              "Strongest supporting verdict: " ++ best.rationale
          precedenceRule := "HIGHEST_WEIGHT_CONFIDENCE"
          citedCircularNumber := best.citedCircularNumber
          citedClauseNumber := best.citedClauseNumber
          overriddenAgentKeys :=
            (finalRound.verdicts.filter fun v => v.decision ≠ tally.leadingDecision).map
              (·.agentKey)
          winningConfidence := tally.leadingShare })

/-- `arbitrate`. -/
def arbitrate (minConfidence : α) (rounds : List (NegotiationRound α)) :
    Except NegotiationError (Option (ArbiterResolution α)) :=
  match rounds.getLast? with
  | none => .ok none
  | some finalRound =>
    match explicitDenyPrecedence finalRound with
    | some resolution => .ok (some resolution)
    | none => highestWeightConfidence minConfidence finalRound

/-! ### `NegotiationOrchestrator` -/

omit [Number α] in
/-- Two different domains have an outcome in scope. -/
def shouldNegotiate (policyOutcomes : List PolicyOutcome) (agents : List (DomainAgent α)) : Bool :=
  2 ≤ ((agents.filter fun agent => ¬ (agent.scopedOutcomes policyOutcomes).isEmpty).map
    (·.domain)).dedup.length

structure NegotiationOrchestrator (α : Type) where
  consensusEngine : ConsensusEngine α
  /-- `negotiation_arbiter_min_confidence` of its arbiter. -/
  minConfidence : α
  enqueue : TransactionPayload → String → List PolicyOutcome → CaseId

/-- One call of `negotiate`: its id and the times it notes. -/
structure NegotiationCall where
  negotiationId : String
  startedAt : DateTime
  completedAt : DateTime

namespace NegotiationOrchestrator

/-- A result that no arbiter and no reviewer has had a part in. -/
def consensusResult (call : NegotiationCall) (transaction : TransactionPayload)
    (rounds : List (NegotiationRound α)) (finalDecision : Decision) : NegotiationResult α :=
  { negotiationId := call.negotiationId
    transactionId := transaction.transactionId
    status := .consensus
    finalDecision := finalDecision
    rounds := rounds
    startedAt := call.startedAt
    completedAt := some call.completedAt }

/-- `_resolve_deadlock`. -/
def resolveDeadlock (O : NegotiationOrchestrator α) (call : NegotiationCall)
    (transaction : TransactionPayload) (policyOutcomes : List PolicyOutcome)
    (rounds : List (NegotiationRound α)) : Except NegotiationError (NegotiationResult α) :=
  if rounds.isEmpty then .ok (consensusResult call transaction [] .allow)
  else do
    let resolution ← arbitrate O.minConfidence rounds
    let reasoningTree := buildReasoningTree rounds
    match resolution with
    | some resolution =>
      .ok
        { negotiationId := call.negotiationId
          transactionId := transaction.transactionId
          status := .arbitrated
          finalDecision := resolution.resolvedDecision
          rounds := rounds
          arbiterResolution := some resolution
          reasoningTree := some reasoningTree
          startedAt := call.startedAt
          completedAt := some call.completedAt }
    | none =>
      let reason :=
        "Multi-agent negotiation deadlocked after " ++ toString rounds.length ++
          " round(s) and the Conflict Arbiter Agent could not confidently resolve it (no explicit " ++
          "clause-cited breach, and the leading decision's weighted share fell below the " ++
          "configured confidence bar). Routed to human review with the full negotiation transcript."
      .ok
        { negotiationId := call.negotiationId
          transactionId := transaction.transactionId
          status := .escalatedToHitl
          finalDecision := .flagged
          rounds := rounds
          reasoningTree := some reasoningTree
          hitlCaseId := some (O.enqueue transaction reason policyOutcomes)
          startedAt := call.startedAt
          completedAt := some call.completedAt }

/-- `negotiate`; after a round with consensus there is a last round. -/
def negotiate (O : NegotiationOrchestrator α) (call : NegotiationCall)
    (transaction : TransactionPayload) (policyOutcomes : List PolicyOutcome) :
    Except NegotiationError (NegotiationResult α) :=
  match O.consensusEngine.run transaction policyOutcomes with
  | (rounds, .consensusReached) =>
    match rounds.getLast? with
    | some finalRound =>
      .ok (consensusResult call transaction rounds finalRound.tally.leadingDecision)
    | none => .error (.valueError "list index out of range")
  | (rounds, _) => O.resolveDeadlock call transaction policyOutcomes rounds

end NegotiationOrchestrator

end RegEngine.Negotiation
