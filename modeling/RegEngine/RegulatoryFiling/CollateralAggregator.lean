import RegEngine.Ledger.Integration
import RegEngine.Lib.Moments
import RegEngine.Lib.Query

/-!
# The daily collateral filing

`collect_daily_collateral_filing` of `app/regulatory_filing/collateral_aggregator.py`, from the rows of the ledger
to the records. A date is its number of days, and margins are kept exact; the header, with a random id and a digest
of the records, is left out.
-/

namespace RegEngine.RegulatoryFiling

open Lib Lib.Calendar Lib.Python Execution Ledger

/-- `_MARGIN_VIOLATION_MARKER`. -/
def marginViolationMarker : String := "Margin"

structure CollateralMetricRecord where
  reportDate : Nat
  brokerId : String
  transactionsEvaluated : Nat
  transactionsPassed : Nat
  transactionsFailed : Nat
  transactionsFlaggedHitl : Nat
  avgUpfrontMarginPct : Option Rat
  minUpfrontMarginPct : Option Rat
  shortfallCount : Nat

/-- The counts of a broker. -/
structure BrokerBucket where
  evaluated : Nat := 0
  passed : Nat := 0
  failed : Nat := 0
  flagged : Nat := 0
  margins : List Rat := []
  shortfalls : Nat := 0

/-- The upfront margin among the facts of a row, if it is a number. -/
def rowMargin (row : Payload) : Option Rat :=
  (row.details.get? "facts").bind fun facts => (facts.get? "upfront_margin_pct").bind Json.pyNum?

/-- Whether a violation of the row mentions the margin. -/
def mentionsMargin (row : Payload) : Bool :=
  match row.details.get? "violations" with
  | some (.arr violations) => violations.any fun v => v.str?.any fun text => contains text marginViolationMarker
  | _ => false

/-- One row is counted. -/
def BrokerBucket.add (bucket : BrokerBucket) (row : Payload) : BrokerBucket where
  evaluated := bucket.evaluated + 1
  passed := bucket.passed + if row.evaluationResult = .pass then 1 else 0
  failed := bucket.failed + if row.evaluationResult = .fail then 1 else 0
  flagged := bucket.flagged + if row.evaluationResult = .hitlReview then 1 else 0
  margins := bucket.margins ++ (rowMargin row).toList
  shortfalls := bucket.shortfalls + if row.evaluationResult = .fail ∧ mentionsMargin row then 1 else 0

/-- The mean of the margins, if there are any. -/
def average (margins : List Rat) : Option Rat := if margins = [] then none else some (Moments.mean margins)

/-- The record of a broker. -/
def BrokerBucket.record (reportDate : Nat) (brokerId : String) (bucket : BrokerBucket) : CollateralMetricRecord where
  reportDate := reportDate
  brokerId := brokerId
  transactionsEvaluated := bucket.evaluated
  transactionsPassed := bucket.passed
  transactionsFailed := bucket.failed
  transactionsFlaggedHitl := bucket.flagged
  avgUpfrontMarginPct := average bucket.margins
  minUpfrontMarginPct := bucket.margins.min?
  shortfallCount := bucket.shortfalls

end RegEngine.RegulatoryFiling
