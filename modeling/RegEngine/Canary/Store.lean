import RegEngine.Execution.Evaluator
import RegEngine.Lib.Binary64
import RegEngine.Lib.Programs

/-!
# Canary runs

`app/canary/models.py` and the decision of `app/canary/parity.py`: the outcome of one shadowed
transaction, the statistics of a run, and the run itself. Moments are microseconds.
-/

namespace RegEngine.Canary

open Lib Execution

inductive CanaryStatus where
  | running
  | promoted
  | rolledBack
  deriving DecidableEq, Repr

def CanaryStatus.value : CanaryStatus → String
  | running => "running"
  | promoted => "promoted"
  | rolledBack => "rolled_back"

/-- `ComparisonResult`. -/
structure ComparisonResult where
  transactionId : String
  productionDecision : Decision
  candidateDecision : Decision
  productionLatencyMs : Binary64
  candidateLatencyMs : Binary64
  productionError : Option String
  candidateError : Option String

def ComparisonResult.diverged (c : ComparisonResult) : Bool :=
  c.productionDecision ≠ c.candidateDecision

/-- `decision_from_opa_result`: the violations of a result, `none` for no result. -/
def decisionFromOpaResult : Option (List String) → Decision
  | none => .flagged
  | some violations => if violations.isEmpty then .allow else .deny

/-- `CanaryWindowStats`. -/
structure CanaryWindowStats where
  totalCompared : Nat
  matched : Nat
  diverged : Nat
  decisionBreakdown : List (String × Nat)
  productionLatencyMsSum : Binary64
  candidateLatencyMsSum : Binary64

def CanaryWindowStats.initial : CanaryWindowStats :=
  ⟨0, 0, 0, [], Binary64.ofRat 0, Binary64.ofRat 0⟩

/-- `divergence_pct`. -/
def CanaryWindowStats.divergencePct (s : CanaryWindowStats) : Binary64 :=
  Binary64.ofRat (if s.totalCompared = 0 then 0 else (s.diverged : Rat) / s.totalCompared)

/-- One more of a key. -/
def bump (key : String) : List (String × Nat) → List (String × Nat)
  | [] => [(key, 1)]
  | (k, n) :: rest => if k = key then (k, n + 1) :: rest else (k, n) :: bump key rest

/-- The statistics that `record_comparison` computes. -/
def CanaryWindowStats.record (s : CanaryWindowStats) (c : ComparisonResult) : CanaryWindowStats where
  totalCompared := s.totalCompared + 1
  matched := if c.diverged then s.matched else s.matched + 1
  diverged := if c.diverged then s.diverged + 1 else s.diverged
  decisionBreakdown :=
    bump (c.productionDecision.value ++ "|" ++ c.candidateDecision.value) s.decisionBreakdown
  productionLatencyMsSum := s.productionLatencyMsSum.add c.productionLatencyMs
  candidateLatencyMsSum := s.candidateLatencyMsSum.add c.candidateLatencyMs

/-- `CanaryRun`. -/
structure CanaryRun where
  canaryId : String
  ruleId : String
  tenantId : Option String
  productionPackage : String
  candidatePackage : String
  candidateOpaRuleId : String
  candidateCompiledRuleId : Int
  status : CanaryStatus
  stats : CanaryWindowStats
  startedAt : Int
  resolvedAt : Option Int
  resolutionReason : Option String

/-- `window_elapsed`: the seconds since the start are a double. -/
def CanaryRun.windowElapsed (r : CanaryRun) (windowSeconds : Nat) (now : Int) : Bool :=
  (Binary64.ofRat windowSeconds).le (Binary64.ofRat ((now - r.startedAt : Int) / 1000000))

inductive CanaryDecision where
  | continue
  | promote
  | rollback
  deriving DecidableEq, Repr

/-- The settings of `CanaryOrchestrator`. -/
structure CanarySettings where
  promotionMaxDivergencePct : Binary64
  rollbackDivergencePct : Binary64
  rollbackMinSampleSize : Nat
  evaluationWindowSeconds : Nat

/-- Enough comparisons, and a divergence at the rollback bar. -/
def CanarySettings.rollbackRule (S : CanarySettings) (stats : CanaryWindowStats) : Bool :=
  S.rollbackMinSampleSize ≤ stats.totalCompared && S.rollbackDivergencePct.le stats.divergencePct

/-- The divergence is within the promotion bar. -/
def CanarySettings.withinBar (S : CanarySettings) (stats : CanaryWindowStats) : Bool :=
  stats.divergencePct.le S.promotionMaxDivergencePct

/-- The decision of `evaluate_window` about a run it has read. -/
def CanarySettings.decide (S : CanarySettings) (now : Int) (run : CanaryRun) : CanaryDecision :=
  if run.status ≠ .running then .continue
  else if S.rollbackRule run.stats then .rollback
  else if run.windowElapsed S.evaluationWindowSeconds now && S.withinBar run.stats then .promote
  else .continue

/-- `check_rollback_spike` of a run it has read. -/
def CanarySettings.spike (S : CanarySettings) (run : CanaryRun) : CanaryDecision :=
  if S.rollbackRule run.stats then .rollback else .continue

end RegEngine.Canary

/-!
## Canary state in Redis

`app/canary/store.py` as programs over single commands: the value of a run is read and written whole,
the active set beside it, and between them come the commands that `app/canary/orchestrator.py` sends to
OPA, to the database and to the publisher of policies. A SET carries the run its sender has read, which
no other part of the model looks at but the conditions on interleavings.
-/

namespace RegEngine.Canary

open Lib.Programs

/-- One command; `clock` is `datetime.now`. -/
inductive Command where
  | get (canaryId : String)
  | set (canaryId : String) (read written : CanaryRun)
  | create (run : CanaryRun)
  | sadd (canaryId : String)
  | srem (canaryId : String)
  | smembers
  | clock
  | publishCandidate (opaRuleId : String)
  | removeCandidate (opaRuleId : String)
  | sessionGet (compiledRuleId : Int)
  | publishApproved (canaryId : String) (read : CanaryRun)
  | enqueuePromotion (canaryId : String)

/-- What a command is answered; those that others serve may fail. -/
def Reply : Command → Type
  | .get _ => Option CanaryRun
  | .smembers => List String
  | .clock => Int
  | .publishCandidate _ | .removeCandidate _ | .sessionGet _ | .publishApproved _ _ => Bool
  | _ => Unit

inductive CanaryError where
  | keyError (canaryId : String)
  | valueError (message : String)
  | external
  deriving DecidableEq, Repr

abbrev CanaryM (α : Type) : Type := Proc Command Reply CanaryError α

/-- The candidate of a canary goes live: what is stored of the canary at that moment, and the moment. -/
structure Publication where
  canaryId : String
  stored : Option CanaryRun
  moment : Int

/-- Redis, the promotions on their way in the task queue, the time, and what has been published. -/
structure Store where
  runs : String → Option CanaryRun
  active : List String
  queue : List String
  now : Int
  published : List Publication

def Store.status (s : Store) (canaryId : String) : Option CanaryStatus :=
  (s.runs canaryId).map CanaryRun.status

/-- What a command does. -/
inductive Exec : (c : Command) → Store → Reply c → Store → Prop where
  | get {s : Store} (id : String) : Exec (.get id) s (s.runs id) s
  | set {s : Store} (id : String) (read written : CanaryRun) :
      Exec (.set id read written) s () { s with runs := Function.update s.runs id (some written) }
  | create {s : Store} (run : CanaryRun) : s.runs run.canaryId = none →
      Exec (.create run) s () { s with runs := Function.update s.runs run.canaryId (some run) }
  | sadd {s : Store} (id : String) : Exec (.sadd id) s () { s with active := s.active.insert id }
  | srem {s : Store} (id : String) :
      Exec (.srem id) s () { s with active := s.active.filter (· ≠ id) }
  | smembers {s : Store} : Exec .smembers s s.active s
  | clock {s : Store} (now : Int) : s.now ≤ now → Exec .clock s now { s with now := now }
  | publishCandidate {s : Store} (id : String) (done : Bool) : Exec (.publishCandidate id) s done s
  | removeCandidate {s : Store} (id : String) (done : Bool) : Exec (.removeCandidate id) s done s
  | sessionGet {s : Store} (id : Int) (found : Bool) : Exec (.sessionGet id) s found s
  | publishApproved {s : Store} (id : String) (read : CanaryRun) :
      Exec (.publishApproved id read) s true
        { s with published := ⟨id, s.runs id, s.now⟩ :: s.published }
  | publishFailed {s : Store} (id : String) (read : CanaryRun) :
      Exec (.publishApproved id read) s false s
  | enqueuePromotion {s : Store} (id : String) :
      Exec (.enqueuePromotion id) s () { s with queue := s.queue ++ [id] }

/-- A command, with its reply in the error monad. -/
def send (c : Command) : CanaryM (Reply c) := Proc.send c

def get (canaryId : String) : CanaryM (Option CanaryRun) := send (.get canaryId)

def noRun (canaryId : String) : CanaryError :=
  .keyError s!"No canary run with id '{canaryId}'"

/-- `record_comparison`. -/
def recordComparison (canaryId : String) (comparison : ComparisonResult) : CanaryM CanaryRun := do
  match ← get canaryId with
  | none => throw (noRun canaryId)
  | some run =>
    let updated := { run with stats := run.stats.record comparison }
    let _ ← send (.set canaryId run updated)
    return updated

/-- `_resolve`. -/
def resolve (canaryId : String) (status : CanaryStatus) (reason : String) : CanaryM CanaryRun := do
  match ← get canaryId with
  | none => throw (noRun canaryId)
  | some run =>
    if run.status ≠ .running then
      throw (.valueError s!"Canary run '{canaryId}' was already resolved as '{run.status.value}'")
    else
      let now : Int ← send .clock
      let resolved := { run with
        status := status
        resolvedAt := some now
        resolutionReason := some reason }
      let _ ← send (.set canaryId run resolved)
      let _ ← send (.srem canaryId)
      return resolved

def markPromoted (canaryId reason : String) : CanaryM CanaryRun := resolve canaryId .promoted reason

def markRolledBack (canaryId reason : String) : CanaryM CanaryRun :=
  resolve canaryId .rolledBack reason

/-- `list_active`: the running canaries of the active set, first started first. -/
def listActive : CanaryM (List CanaryRun) := do
  let ids : List String ← send .smembers
  let runs ← ids.mapM get
  return ((runs.filterMap id).filter (·.status = .running)).insertionSort
    fun a b => a.startedAt ≤ b.startedAt

end RegEngine.Canary
