import Mathlib.Data.List.Dedup
import Mathlib.Data.List.Sort
import RegEngine.Lib.Binary64
import RegEngine.Execution.Evaluator

/-!
# Backtest summaries

`app/backtest/reporting.py`: the old and the new decision of each replayed transaction, and their counts,
in all and by broker. Decisions are texts, as a row of the data frame has them. The fresh run id is an
input; the financial amounts and the evaluation times are left out.
-/

namespace RegEngine.Backtest

open Lib Execution

inductive DeltaChangeType where
  | unchangedPass
  | unchangedFail
  | newFailure
  | newlyPassing
  | undefinedNow
  deriving DecidableEq, Repr

structure BacktestOutcome where
  transactionId : String
  brokerId : String
  oldDecision : String
  oldViolations : List String := []
  newDecision : String
  newViolations : List String := []
  changeType : DeltaChangeType

structure BrokerImpactBreakdown where
  brokerId : String
  totalTransactions : Nat
  newFailures : Nat
  newlyPassing : Nat
  projectedFailureRatePct : Binary64

structure BacktestSummary where
  runId : String
  candidateRuleId : String
  lookbackDays : Int
  totalTransactions : Nat
  oldFailCount : Nat
  newFailCount : Nat
  oldFailureRatePct : Binary64
  newFailureRatePct : Binary64
  deltaFailureRatePct : Binary64
  newFailures : Nat
  newlyPassing : Nat
  undefinedCount : Nat
  unchangedCount : Nat
  brokerBreakdown : List BrokerImpactBreakdown

def newFails (outcomes : List BacktestOutcome) : Nat :=
  outcomes.countP fun o => o.newDecision = Decision.deny.value

/-- The number of rows of a change type. -/
def changeCount (outcomes : List BacktestOutcome) (c : DeltaChangeType) : Nat :=
  outcomes.countP fun o => o.changeType = c

/-- `part / total * 100.0`. -/
def ratePct (part total : Nat) : Binary64 := (Binary64.ofRat (part / total)).mul (Binary64.ofRat 100)

def brokerImpact (brokerId : String) (group : List BacktestOutcome) : BrokerImpactBreakdown :=
  { brokerId := brokerId
    totalTransactions := group.length
    newFailures := changeCount group .newFailure
    newlyPassing := changeCount group .newlyPassing
    projectedFailureRatePct :=
      if group.length ≠ 0 then Binary64.round 2 (ratePct (newFails group) group.length) else Binary64.ofRat 0 }

/-- The groups of `df.groupby("broker_id")`: the brokers in order, each with its rows. -/
def brokerGroups (outcomes : List BacktestOutcome) : List (String × List BacktestOutcome) :=
  ((outcomes.map (·.brokerId)).dedup.insertionSort fun a b => a ≤ b).map fun b =>
    (b, outcomes.filter fun o => o.brokerId = b)

/-- The impact on each broker, from the highest rate on. -/
def brokerBreakdown (outcomes : List BacktestOutcome) : List BrokerImpactBreakdown :=
  ((brokerGroups outcomes).map fun g => brokerImpact g.1 g.2).insertionSort fun a b =>
    b.projectedFailureRatePct.le a.projectedFailureRatePct

end RegEngine.Backtest
