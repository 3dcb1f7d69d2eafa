import RegEngine.Execution.Registry
import RegEngine.Hitl.Models
import RegEngine.Lib.ReadThrough

/-!
# Policy events and the local policy cache

`app/execution/policy_cache.py`, `policy_events.py`, `policy_hot_reload.py` and
`policy_publisher.py`: one process with its cache in front of the registry. Calls of OPA, which
succeed, and the broadcast of an event on Redis leave the process as it is; a published event
reaches a process by `apply`. The clock of the cache is any type with a difference and an order.
-/

namespace RegEngine.Execution

open Lib Lib.Python Compiler

inductive PolicyEventType where
  | approved
  | amended
  | revoked
  deriving DecidableEq, Repr

structure PolicyEvent where
  eventType : PolicyEventType
  ruleId : String
  ruleVersion : Int
  package : String
  entityTypes : List String := ["*"]
  regoCode : Option String := none
  compiledRuleId : Nat
  approvedBy : Option String := none

/-- `PolicyCache`: the policies of the entity types looked up so far. -/
abbrev PolicyCache (T : Type) := ReadCache String (List PolicyEntry) T

/-- The registry and the local cache, as one process sees them. -/
structure Process (T : Type) where
  registry : PolicyRegistry
  cache : PolicyCache T

/-- What a `PolicyPublisher` is wired to beside the event channel. -/
structure PolicyPublisher where
  policyRegistry : Bool
  policyCache : Bool

/-- The module of an event, without the metadata an event does not carry. -/
def PolicyEvent.compiled (event : PolicyEvent) : CompiledRego :=
  { ruleId := event.ruleId
    package := event.package
    regoCode := event.regoCode.getD ""
    thresholdsCompiled := 0 }

/-- The module of a row of `compiled_rules`, as it is published. -/
def publishedRego (rule : Hitl.CompiledRule) : CompiledRego :=
  { ruleId := rule.ruleId
    package := orText rule.opaPackageName ""
    regoCode := rule.regoPolicy.getD ""
    thresholdsCompiled := 0 }

/-- The row has code and a package to publish. -/
def Publishable (rule : Hitl.CompiledRule) : Prop :=
  truthy rule.regoPolicy = true ∧ truthy rule.opaPackageName = true

instance (rule : Hitl.CompiledRule) : Decidable (Publishable rule) :=
  inferInstanceAs (Decidable (_ ∧ _))

inductive PublishError where
  | valueError (message : String)
  deriving DecidableEq

namespace Process

variable {T : Type}

/-- `PolicyCache.policies_for`. -/
def policiesFor [Sub T] [LT T] [DecidableLT T] (p : Process T) (ttl now : T)
    (entityType : String) : List PolicyEntry × Process T :=
  let (policies, cache) := p.cache.lookup p.registry.policiesFor ttl now entityType
  (policies, { p with cache })

/-- `PolicyCache.invalidate`, for each entity type of a list. -/
def invalidate (p : Process T) (entityTypes : List String) : Process T :=
  { p with cache := p.cache.evict entityTypes }

/-! ## `PolicyHotReloadSubscriber` -/

/-- `_apply_active`: an event without code registers nothing. -/
def applyActive (p : Process T) (event : PolicyEvent) : Process T :=
  if truthy event.regoCode then
    { p with registry := p.registry.register event.compiled event.entityTypes }
  else p

/-- `_apply_revoked`. -/
def applyRevoked (p : Process T) (event : PolicyEvent) : Process T :=
  { p with registry := p.registry.unregister event.ruleId }

def apply (p : Process T) (event : PolicyEvent) : Process T :=
  let applied :=
    match event.eventType with
    | .approved | .amended => p.applyActive event
    | .revoked => p.applyRevoked event
  applied.invalidate event.entityTypes

/-! ## `PolicyPublisher` -/

/-- The last steps of a publication: the registry, then the cache, where the publisher has them. -/
def publish (p : Process T) (P : PolicyPublisher) (change : PolicyRegistry → PolicyRegistry)
    (scope : List String) : Process T :=
  let registered := if P.policyRegistry then { p with registry := change p.registry } else p
  if P.policyCache then registered.invalidate scope else registered

/-- `_publish_active`: the event that is broadcast, and the process after it. -/
def publishActive (p : Process T) (P : PolicyPublisher) (eventType : PolicyEventType) (id : Nat)
    (rule : Hitl.CompiledRule) (entityTypes : Option (List String)) (approvedBy : Option String) :
    Except PublishError (PolicyEvent × Process T) :=
  if Publishable rule then
    let scope := scopeOf (entityTypes.getD [])
    let event : PolicyEvent :=
      { eventType := eventType
        ruleId := rule.ruleId
        ruleVersion := rule.ruleVersion
        package := rule.opaPackageName.getD ""
        regoCode := rule.regoPolicy
        compiledRuleId := id
        approvedBy := approvedBy
        entityTypes := scope }
    .ok (event, p.publish P (·.register (publishedRego rule) scope) scope)
  else .error (.valueError
    ("CompiledRule " ++ toString id ++ " has no compiled Rego/package to publish."))

def publishApproved (p : Process T) (P : PolicyPublisher) (id : Nat) (rule : Hitl.CompiledRule)
    (approvedBy : String) (entityTypes : Option (List String)) :
    Except PublishError (PolicyEvent × Process T) :=
  p.publishActive P .approved id rule entityTypes (some approvedBy)

def publishAmended (p : Process T) (P : PolicyPublisher) (id : Nat) (rule : Hitl.CompiledRule)
    (entityTypes : Option (List String)) : Except PublishError (PolicyEvent × Process T) :=
  p.publishActive P .amended id rule entityTypes none

def publishRevoked (p : Process T) (P : PolicyPublisher) (id : Nat) (rule : Hitl.CompiledRule)
    (entityTypes : Option (List String)) : PolicyEvent × Process T :=
  let scope := scopeOf (entityTypes.getD [])
  let event : PolicyEvent :=
    { eventType := .revoked
      ruleId := rule.ruleId
      ruleVersion := rule.ruleVersion
      package := orText rule.opaPackageName ""
      regoCode := none
      compiledRuleId := id
      entityTypes := scope }
  (event, p.publish P (·.unregister rule.ruleId) scope)

end Process

/-! ## Runs of one process -/

/-- One operation of a process. -/
inductive ProcessOp (T : Type) where
  | lookup (now : T) (entityType : String)
  | apply (event : PolicyEvent)
  | publishApproved (id : Nat) (rule : Hitl.CompiledRule) (approvedBy : String)
      (entityTypes : Option (List String))
  | publishAmended (id : Nat) (rule : Hitl.CompiledRule) (entityTypes : Option (List String))
  | publishRevoked (id : Nat) (rule : Hitl.CompiledRule) (entityTypes : Option (List String))

section
variable {T : Type}

/-- The process after a publication; one that raises leaves it as it was. -/
def Process.published (p : Process T) : Except PublishError (PolicyEvent × Process T) → Process T
  | .ok (_, p') => p'
  | .error _ => p

variable [Sub T] [LT T] [DecidableLT T]

/-- One operation, in a process whose cache has this time to live. -/
def Process.step (P : PolicyPublisher) (ttl : T) (p : Process T) : ProcessOp T → Process T
  | .lookup now entityType => (p.policiesFor ttl now entityType).2
  | .apply event => p.apply event
  | .publishApproved id rule approvedBy entityTypes =>
    p.published (p.publishApproved P id rule approvedBy entityTypes)
  | .publishAmended id rule entityTypes => p.published (p.publishAmended P id rule entityTypes)
  | .publishRevoked id rule entityTypes => (p.publishRevoked P id rule entityTypes).2

def Process.run (P : PolicyPublisher) (ttl : T) (p : Process T) (ops : List (ProcessOp T)) :
    Process T :=
  ops.foldl (Process.step P ttl) p

end

end RegEngine.Execution
