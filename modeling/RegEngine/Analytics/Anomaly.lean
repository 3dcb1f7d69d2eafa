import RegEngine.Lib.Moments

/-!
# Anomaly detection

`_detect_in_series` of `app/analytics/anomaly.py`, over exact rational values. A standard deviation is given by
its square and a z-score by its distance and the variance; descriptions, rounding and the time of detection are
left out.
-/

namespace RegEngine.Analytics

open Lib.Moments

inductive AnomalyType where
  | denialSpike
  | hitlSpike
  | passRateDrop
  | volumeSpike
  deriving DecidableEq

inductive AnomalySeverity where
  | low
  | high
  deriving DecidableEq

structure PeriodBucket where
  periodLabel : String
  totalTransactions : Nat
  passRatePct : Rat
  failRatePct : Rat
  hitlRatePct : Rat

/-- A z-score: the distance over the square root of the variance. -/
structure ZScore where
  distance : Rat
  variance : Rat

namespace ZScore

/-- `z ** 2`. -/
def square (z : ZScore) : Rat := z.distance ^ 2 / z.variance

/-- `z * abs(z)`, which determines the z-score. -/
def signedSquare (z : ZScore) : Rat := z.distance * |z.distance| / z.variance

end ZScore

structure AnomalyEvent where
  anomalyType : AnomalyType
  severity : AnomalySeverity
  brokerId : Option String
  periodLabel : String
  metricName : String
  observedValue : Rat
  baselineMean : Rat
  /-- The square of `baseline_std`. -/
  baselineVariance : Rat
  zScore : ZScore

/-- `_Z_HIGH`. -/
def zHigh : Rat := 3

/-- `_Z_LOW`. -/
def zLow : Rat := 2

/-- `_MIN_HISTORY`. -/
def minHistory : Nat := 3

/-- A z-score of zero, for a missing one. -/
def noScore : ZScore := ⟨0, 1⟩

/-- The value of `_zscore_series` at an index: the window holds the values up to it. -/
def zscoreAt (values : List Rat) (idx : Nat) (obs : Rat) : ZScore :=
  let window := values.take (idx + 1)
  if window.length < minHistory ∨ sampleVariance window = 0 then noScore
  else ⟨obs - mean window, sampleVariance window⟩

/-- `_classify_severity`. -/
def classifySeverity (z : ZScore) : Option AnomalySeverity :=
  if zHigh ^ 2 ≤ z.square then some .high
  else if zLow ^ 2 ≤ z.square then some .low
  else none

/-- The metrics, in the order of `_METRIC_TO_TYPE`. -/
inductive Metric where
  | failRatePct
  | hitlRatePct
  | passRatePct
  | totalTransactions
  deriving DecidableEq

namespace Metric

def all : List Metric := [failRatePct, hitlRatePct, passRatePct, totalTransactions]

/-- `_METRIC_TO_TYPE`. -/
def anomalyType : Metric → AnomalyType
  | failRatePct => .denialSpike
  | hitlRatePct => .hitlSpike
  | passRatePct => .passRateDrop
  | totalTransactions => .volumeSpike

/-- `_METRIC_HUMAN`. -/
def human : Metric → String
  | failRatePct => "Denial Rate (%)"
  | hitlRatePct => "HITL Review Rate (%)"
  | passRatePct => "Pass Rate (%)"
  | totalTransactions => "Transaction Volume"

/-- A column of the data frame. -/
def value : Metric → PeriodBucket → Rat
  | failRatePct, b => b.failRatePct
  | hitlRatePct, b => b.hitlRatePct
  | passRatePct, b => b.passRatePct
  | totalTransactions, b => b.totalTransactions

end Metric

/-- The event of a metric for the bucket at an index, if it has one. -/
def eventAt (buckets : List PeriodBucket) (brokerId : Option String) (metric : Metric) (idx : Nat)
    (bucket : PeriodBucket) : Option AnomalyEvent :=
  let series := buckets.map metric.value
  let z := zscoreAt series idx (metric.value bucket)
  (classifySeverity z).map fun severity =>
    let history := series.take (idx + 1)
    { anomalyType := metric.anomalyType
      severity := severity
      brokerId := brokerId
      periodLabel := bucket.periodLabel
      metricName := metric.human
      observedValue := metric.value bucket
      baselineMean := if 1 < history.length then mean history.dropLast else 0
      baselineVariance := if 1 < history.length then sampleVariance history.dropLast else 0
      zScore := z }

/-- `_detect_in_series`. -/
def detectInSeries (buckets : List PeriodBucket) (brokerId : Option String) : List AnomalyEvent :=
  if buckets.length < minHistory then []
  else
    Metric.all.flatMap fun metric =>
      buckets.zipIdx.filterMap fun b => eventAt buckets brokerId metric b.2 b.1

end RegEngine.Analytics
