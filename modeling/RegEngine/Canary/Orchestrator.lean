import RegEngine.Canary.Store
import RegEngine.Compiler.Rego
import RegEngine.Execution.TenantRegistry

/-!
# The canary state machine

`app/canary/orchestrator.py`, the shadow evaluation of `app/canary/mirroring.py` from its comparison on,
and the sweep of `app/canary/tasks.py`. The reason a promotion records, a text with formatted numbers,
is a parameter.
-/

namespace RegEngine.Canary

open Lib.Programs

/-- `remove_candidate` of the OPA publisher. -/
def removeCandidate (opaRuleId : String) : CanaryM Unit := do
  let done : Bool ← send (.removeCandidate opaRuleId)
  if done then return () else throw .external

/-- `publish_approved` of the candidate. -/
def publishApproved (canaryId : String) (run : CanaryRun) : CanaryM Unit := do
  let done : Bool ← send (.publishApproved canaryId run)
  if done then return () else throw .external

/-- `start_canary`, for a run that is not yet created. -/
def startCanary (run : CanaryRun) : CanaryM Unit := do
  let done : Bool ← send (.publishCandidate run.candidateOpaRuleId)
  if done then
    let now : Int ← send .clock
    let _ ← send (.create { run with status := .running, stats := .initial, startedAt := now })
    let _ ← send (.sadd run.canaryId)
    return ()
  else throw .external

/-- `evaluate_window`. -/
def evaluateWindow (S : CanarySettings) (canaryId : String) : CanaryM CanaryDecision := do
  match ← get canaryId with
  | none => return .continue
  | some run =>
    let now : Int ← send .clock
    return S.decide now run

/-- `rollback`. -/
def rollback (canaryId reason : String) : CanaryM CanaryRun := do
  match ← get canaryId with
  | none => throw (noRun canaryId)
  | some run =>
    if run.status ≠ .running then return run
    else
      removeCandidate run.candidateOpaRuleId
      markRolledBack canaryId reason

/-- `promote`. -/
def promote (reason : CanaryRun → String) (canaryId : String) : CanaryM CanaryRun := do
  match ← get canaryId with
  | none => throw (noRun canaryId)
  | some run =>
    if run.status ≠ .running then return run
    else
      let found : Bool ← send (.sessionGet run.candidateCompiledRuleId)
      if found then
        publishApproved canaryId run
        removeCandidate run.candidateOpaRuleId
        markPromoted canaryId (reason run)
      else
        throw (.valueError (s!"CompiledRule {run.candidateCompiledRuleId} for canary {canaryId} " ++
          "no longer exists."))

/-- `_shadow_evaluate` from the comparison on. -/
def shadowEvaluate (S : CanarySettings) (canaryId : String) (comparison : ComparisonResult)
    (reason : String) : CanaryM Unit := do
  let _ ← recordComparison canaryId comparison
  match ← get canaryId with
  | none => return ()
  | some run =>
    if S.spike run = .rollback then
      let _ ← rollback canaryId reason
      return ()
    else return ()

/-- The body of the sweep's loop. -/
def sweepRun (S : CanarySettings) (reason : CanaryRun → String) (run : CanaryRun) : CanaryM Unit := do
  match ← evaluateWindow S run.canaryId with
  | .rollback =>
    let _ ← rollback run.canaryId (reason run)
    return ()
  | .promote =>
    let _ ← send (.enqueuePromotion run.canaryId)
    return ()
  | .continue => return ()

/-- `_evaluate_canary_windows`. -/
def evaluateCanaryWindows (S : CanarySettings) (reason : CanaryRun → String) : CanaryM Unit := do
  let runs ← listActive
  runs.forM (sweepRun S reason)

end RegEngine.Canary

/-!
## The publisher of canary policies

`app/canary/opa_publisher.py`: the policy that a candidate is published as.
-/

namespace RegEngine.Canary

open Lib.Python Compiler

def canaryOpaRuleId (canaryId ruleId : String) : String := "canary_" ++ canaryId ++ "_" ++ ruleId

def canaryPackage (canaryId package : String) : String := "canary." ++ (replace "-" "_" canaryId ++ "." ++ package)

/-- `_rewrite_package_declaration`, the same as that of a tenant's engine. -/
def rewritePackageDeclaration (regoCode newPackage : String) : String :=
  "\n".intercalate (Execution.rewritePackage newPackage regoCode)

/-- The policy that `publish_candidate` hands to OPA. -/
def namespaced (canaryId : String) (candidate : CompiledRego) : CompiledRego :=
  { candidate with
    ruleId := canaryOpaRuleId canaryId candidate.ruleId
    package := canaryPackage canaryId candidate.package
    regoCode := rewritePackageDeclaration candidate.regoCode (canaryPackage canaryId candidate.package) }

end RegEngine.Canary
