import RegEngine.Compiler.Models
import RegEngine.Lib.Python
import RegEngine.Execution.Registry
import RegEngine.Lib.Query

/-!
# `TenantOPAEngine`

`app/execution/tenant_policy_registry.py`: the policy ids and packages of a tenant in the OPA server
that all tenants share. OPA's policies are a function from policy ids to module sources; whether the
server accepts a request is its own answer, and a refused request raises and changes nothing.
-/

namespace RegEngine.Execution

open Lib.Python Compiler

/-- `_scoped_rule_id`. -/
def scopedRuleId (tenantId ruleId : String) : String :=
  let pre := "tenants_" ++ tenantId ++ "_"
  if startsWith ruleId pre then ruleId else pre ++ ruleId

/-- `_scoped_package`. -/
def scopedPackage (tenantId package : String) : String :=
  let ns := "tenants." ++ tenantId
  if startsWith package ns then package else ns ++ "." ++ package

/-- The source with its `package` lines rewritten. -/
def rewritePackage (package regoCode : String) : List String :=
  (splitLines regoCode).map fun line =>
    if startsWith (strip line) "package " then "package " ++ package else line

/-- The module that `publish_policy` sends. -/
def scopedModule (tenantId : String) (compiled : CompiledRego) : String :=
  "\n".intercalate (rewritePackage (scopedPackage tenantId compiled.package) compiled.regoCode)

/-- The path that `evaluate` queries. -/
def decisionPath (tenantId package : String) : String :=
  "/v1/data/" ++ replace "." "/" (scopedPackage tenantId package) ++ "/decision"

/-! ## The shared server -/

/-- The policies of the server, by policy id. -/
def OpaPolicies := String → Option String

/-- A request of a tenant's engine, with the server's answer: accepted or not. -/
inductive TenantOp
  | publish (tenantId : String) (compiled : CompiledRego) (accepted : Bool)
  | remove (tenantId ruleId : String) (accepted : Bool)

def TenantOp.tenantId : TenantOp → String
  | publish tenantId _ _ => tenantId
  | remove tenantId _ _ => tenantId

/-- `publish_policy` and `remove_policy`. -/
def OpaPolicies.applyOp (policies : OpaPolicies) : TenantOp → OpaPolicies
  | .publish tenantId compiled accepted => fun id =>
    if accepted ∧ id = scopedRuleId tenantId compiled.ruleId then some (scopedModule tenantId compiled)
    else policies id
  | .remove tenantId ruleId accepted => fun id =>
    if accepted ∧ id = scopedRuleId tenantId ruleId then none else policies id

end RegEngine.Execution

/-!
## `TenantPolicyRegistry`

`app/execution/tenant_policy_registry.py`: the policies of each tenant, in a Redis hash of its own,
and the lookup that puts the tenant's before those of the baseline tenant.
-/

namespace RegEngine.Execution

open Lib Compiler

def baselineTenant : String := "sebi_baseline"

/-- The entry that `register` stores. -/
structure TenantEntry where
  ruleId : String
  package : String
  deriving DecidableEq

/-- The hashes of all tenants: by tenant, then by entity type. -/
structure TenantHashes where
  hash : String → String → Option (List TenantEntry)

def TenantHashes.empty : TenantHashes := ⟨fun _ _ => none⟩

/-- The entries stored under a field of the tenant's hash. -/
def TenantHashes.entries (H : TenantHashes) (tenantId key : String) : List TenantEntry :=
  (H.hash tenantId key).getD []

/-- A registry of one tenant; its Redis is the one that all of them share. -/
structure TenantPolicyRegistry where
  tenantId : String

namespace TenantPolicyRegistry

/-- The loop body of `register`, for one field: the entry is appended if it is not there. -/
def registerKey (R : TenantPolicyRegistry) (c : CompiledRego) (H : TenantHashes) (key : String) :
    TenantHashes :=
  let entry : TenantEntry := ⟨c.ruleId, c.package⟩
  let entries := H.entries R.tenantId key
  let entries := if entry ∈ entries then entries else entries ++ [entry]
  ⟨fun t k => if t = R.tenantId ∧ k = key then some entries else H.hash t k⟩

def register (R : TenantPolicyRegistry) (c : CompiledRego) (entityTypes : List String)
    (H : TenantHashes) : TenantHashes :=
  (scopeOf entityTypes).foldl (R.registerKey c) H

/-- The filtered entries of each field, or no field when none is left. -/
def unregister (R : TenantPolicyRegistry) (ruleId : String) (H : TenantHashes) : TenantHashes :=
  ⟨fun t k => if t = R.tenantId then
      (H.hash t k).bind fun entries =>
        let filtered := entries.filter fun e => e.ruleId ≠ ruleId
        if filtered.isEmpty then none else some filtered
    else H.hash t k⟩

/-- The tenant's entries, then those of the baseline, each under the entity type and under `"*"`; of
each rule the first. -/
def policiesFor (R : TenantPolicyRegistry) (H : TenantHashes) (entityType : String) :
    List TenantEntry :=
  let own := H.entries R.tenantId entityType ++ H.entries R.tenantId "*"
  let baseline :=
    if R.tenantId ≠ baselineTenant then
      H.entries baselineTenant entityType ++ H.entries baselineTenant "*"
    else []
  firstHits (·.ruleId) [] (own ++ baseline)

end TenantPolicyRegistry

/-! ### Runs of the registries -/

/-- A call on the registry of a tenant. -/
inductive TenantRegistryOp
  | register (tenantId : String) (compiled : CompiledRego) (entityTypes : List String)
  | unregister (tenantId ruleId : String)

def TenantHashes.applyOp (H : TenantHashes) : TenantRegistryOp → TenantHashes
  | .register tenantId compiled entityTypes =>
    (TenantPolicyRegistry.mk tenantId).register compiled entityTypes H
  | .unregister tenantId ruleId => (TenantPolicyRegistry.mk tenantId).unregister ruleId H

/-- The hashes after these calls, from empty ones. -/
def TenantHashes.run (ops : List TenantRegistryOp) : TenantHashes :=
  ops.foldl TenantHashes.applyOp TenantHashes.empty

end RegEngine.Execution
