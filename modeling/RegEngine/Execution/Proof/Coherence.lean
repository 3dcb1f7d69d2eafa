import RegEngine.Execution.HotReload
import RegEngine.Execution.Proof.Latest

/-!
# When the policy cache agrees with the registry

An operation changes the registry in one way (`ProcessOp.change`) and evicts a list of entity types
from the cache (`ProcessOp.evicts`); `step_eq` says that it does nothing else. The policies of an
entity type also hold those under `"*"`, so the change reaches more entity types than the evicted
ones.

* `lookups_coherent`: a run whose operations evict every cached entity type they reach answers every
  lookup as the registry does.
* `lookup_after_approval`: an approval for every entity type that leaves a stale answer.
-/

namespace RegEngine.Execution

open Lib Lib.Python Compiler

/-! ## What an operation does -/

/-- What an operation does to the registry. -/
inductive RegistryChange where
  | keep
  | register (compiled : CompiledRego) (entityTypes : List String)
  | unregister (ruleId : String)

def RegistryChange.apply (R : PolicyRegistry) : RegistryChange → PolicyRegistry
  | keep => R
  | register compiled entityTypes => R.register compiled entityTypes
  | unregister ruleId => R.unregister ruleId

/-- The change leaves the policies of this entity type alone. A registration writes its field and
`"*"` at most with what is stored there, or its field lists the rule already; a removed rule is
listed under neither. -/
def RegistryChange.Spares (R : PolicyRegistry) (e : String) : RegistryChange → Prop
  | keep => True
  | register compiled entityTypes =>
    (e ∈ scopeOf entityTypes → R.Stored e compiled) ∧
      ("*" ∈ scopeOf entityTypes → R.Lists e compiled.ruleId ∨ R.Stored "*" compiled)
  | unregister ruleId => ¬ R.Lists e ruleId ∧ ¬ R.Lists "*" ruleId

theorem RegistryChange.policiesFor_apply {R : PolicyRegistry} {e : String} {ch : RegistryChange}
    (h : ch.Spares R e) : (ch.apply R).policiesFor e = R.policiesFor e := by
  cases ch with
  | keep => rfl
  | register compiled entityTypes => exact PolicyRegistry.policiesFor_register h.1 h.2
  | unregister ruleId => exact PolicyRegistry.policiesFor_unregister h.1 h.2

namespace ProcessOp

variable {T : Type}

/-- The registration of a published rule. -/
def publication (P : PolicyPublisher) (rule : Hitl.CompiledRule)
    (entityTypes : Option (List String)) : RegistryChange :=
  if Publishable rule ∧ P.policyRegistry = true then
    .register (publishedRego rule) (scopeOf (entityTypes.getD []))
  else .keep

def change (P : PolicyPublisher) : ProcessOp T → RegistryChange
  | lookup _ _ => .keep
  | apply event =>
    if event.eventType = .revoked then .unregister event.ruleId
    else if truthy event.regoCode then .register event.compiled event.entityTypes
    else .keep
  | publishApproved _ rule _ entityTypes | publishAmended _ rule entityTypes =>
    publication P rule entityTypes
  | publishRevoked _ rule _ => if P.policyRegistry then .unregister rule.ruleId else .keep

/-- The entity types an operation evicts from the cache. -/
def evicts (P : PolicyPublisher) : ProcessOp T → List String
  | lookup _ _ => []
  | apply event => event.entityTypes
  | publishApproved _ rule _ entityTypes | publishAmended _ rule entityTypes =>
    if Publishable rule ∧ P.policyCache = true then scopeOf (entityTypes.getD []) else []
  | publishRevoked _ _ entityTypes =>
    if P.policyCache then scopeOf (entityTypes.getD []) else []

/-- Every cached entity type that the operation does not evict is spared by its change. -/
def Scoped (P : PolicyPublisher) (p : Process T) (op : ProcessOp T) : Prop :=
  ∀ e, (p.cache.entries e).isSome = true → e ∉ op.evicts P → (op.change P).Spares p.registry e

end ProcessOp

section
variable {T : Type} {p : Process T} {P : PolicyPublisher}

theorem publish_eq (change : PolicyRegistry → PolicyRegistry) (scope : List String) :
    p.publish P change scope =
      { registry := if P.policyRegistry then change p.registry else p.registry
        cache := p.cache.evict (if P.policyCache then scope else []) } := by
  unfold Process.publish Process.invalidate
  by_cases hr : P.policyRegistry = true <;> by_cases hc : P.policyCache = true <;>
    simp [hr, hc]

theorem published_publishActive (eventType : PolicyEventType) (id : Nat) (rule : Hitl.CompiledRule)
    (entityTypes : Option (List String)) (approvedBy : Option String) :
    p.published (p.publishActive P eventType id rule entityTypes approvedBy) =
      { registry := (ProcessOp.publication P rule entityTypes).apply p.registry
        cache := p.cache.evict (if Publishable rule ∧ P.policyCache = true
          then scopeOf (entityTypes.getD []) else []) } := by
  unfold Process.publishActive ProcessOp.publication
  by_cases h : Publishable rule
  · rw [if_pos h, Process.published, publish_eq]
    by_cases hr : P.policyRegistry = true <;> simp [h, hr, RegistryChange.apply]
  · rw [if_neg h, Process.published]
    simp [h, RegistryChange.apply]

theorem apply_eq (event : PolicyEvent) :
    p.apply event =
      { registry := ((ProcessOp.apply event : ProcessOp T).change P).apply p.registry
        cache := p.cache.evict event.entityTypes } := by
  unfold Process.apply ProcessOp.change
  cases ht : event.eventType <;> by_cases h : truthy event.regoCode = true <;>
    simp [Process.applyActive, Process.applyRevoked, Process.invalidate, RegistryChange.apply, h, ht]

variable [Sub T] [LT T] [DecidableLT T] {ttl : T}

/-- **An operation other than a lookup** changes the registry and evicts entity types. -/
theorem step_eq {op : ProcessOp T} (h : ∀ now e, op ≠ .lookup now e) :
    p.step P ttl op =
      { registry := (op.change P).apply p.registry
        cache := p.cache.evict (op.evicts P) } := by
  cases op with
  | lookup now e => exact absurd rfl (h now e)
  | apply event => exact apply_eq event
  | publishApproved id rule approvedBy entityTypes => exact published_publishActive ..
  | publishAmended id rule entityTypes => exact published_publishActive ..
  | publishRevoked id rule entityTypes =>
    simp only [Process.step, Process.publishRevoked, publish_eq, ProcessOp.change,
      ProcessOp.evicts]
    by_cases hr : P.policyRegistry = true <;> simp [hr, RegistryChange.apply]

/-! ## Coherence -/

/-- The cache holds what the registry says. -/
def Process.Coherent (p : Process T) : Prop := ReadCache.Coherent p.registry.policiesFor p.cache

theorem coherent_step {op : ProcessOp T} (h : p.Coherent) (hs : op.Scoped P p) :
    (p.step P ttl op).Coherent := by
  by_cases hop : ∃ now e, op = .lookup now e
  · obtain ⟨now, e, rfl⟩ := hop
    exact ReadCache.coherent_lookup h
  · rw [step_eq fun now e heq => hop ⟨now, e, heq⟩]
    refine (ReadCache.coherent_evict_iff h _).2 fun e hcached hkept => ?_
    exact RegistryChange.policiesFor_apply (hs e hcached hkept)

/-- Every operation of the run evicts what it reaches, in the state it starts in. -/
def Process.ScopedRun (P : PolicyPublisher) (ttl : T) (p : Process T) : List (ProcessOp T) → Prop
  | [] => True
  | op :: ops => op.Scoped P p ∧ (p.step P ttl op).ScopedRun P ttl ops

theorem coherent_run : ∀ {ops : List (ProcessOp T)} {p : Process T}, p.Coherent →
    p.ScopedRun P ttl ops → ∀ done, done <+: ops → (p.run P ttl done).Coherent
  | _, _, h, _, [], _ => h
  | [], _, _, _, op :: done, hd => by simp at hd
  | op :: ops, p, h, hs, op' :: done, hd => by
    obtain ⟨rfl, hrest⟩ := List.cons_prefix_cons.1 hd
    exact coherent_run (coherent_step h hs.1) hs.2 done hrest

/-- **The cache answers as the registry** at every moment of a run that starts with an empty cache
and whose operations evict every cached entity type they reach. -/
theorem lookups_coherent (P : PolicyPublisher) (ttl : T) (R : PolicyRegistry)
    (ops : List (ProcessOp T))
    (hs : (Process.mk R ReadCache.empty).ScopedRun P ttl ops) (done : List (ProcessOp T))
    (hd : done <+: ops) (now : T) (e : String) :
    let p := (Process.mk R ReadCache.empty).run P ttl done
    (p.policiesFor ttl now e).1 = p.registry.policiesFor e :=
  ReadCache.lookup_value (coherent_run (p := ⟨R, _⟩) ReadCache.coherent_empty hs done hd)

end

/-! ## The default scope -/

/-- The row of an active rule on the upfront margin of stockbrokers. -/
def marginRow : Hitl.CompiledRule :=
  { clauseId := 1
    tenantId := "default"
    ruleId := "RULE-1"
    regoPolicy := some "package sebi.broking.circulars.c1.clause_1"
    opaPackageName := some "sebi.broking.circulars.c1.clause_1"
    jsonlogicAst := none
    isCompiled := true
    isActive := true
    hitlStatus := .resolved }

/-- Its approval, as it is broadcast for every entity type. -/
def marginApproval : PolicyEvent :=
  { eventType := .approved
    ruleId := "RULE-1"
    ruleVersion := 1
    package := "sebi.broking.circulars.c1.clause_1"
    regoCode := some "package sebi.broking.circulars.c1.clause_1"
    compiledRuleId := 1
    approvedBy := some "officer" }

/-- A lookup, an approval with the default scope and its event: the cached list lacks the rule. -/
theorem lookup_after_approval :
    let p := (Process.mk PolicyRegistry.empty ReadCache.empty).run ⟨true, true⟩ (30 : Int)
      [.lookup 0 "Stockbroker", .publishApproved 1 marginRow "officer" none,
        .apply marginApproval]
    (p.policiesFor 30 1 "Stockbroker").1 = [] ∧
    p.registry.policiesFor "Stockbroker" = [entry (publishedRego marginRow)] := by
  decide

/-- The same approval for stockbrokers only. -/
theorem lookups_coherent_scoped :
    let p := (Process.mk PolicyRegistry.empty ReadCache.empty).run ⟨true, true⟩ (30 : Int)
      [.lookup 0 "Stockbroker", .publishApproved 1 marginRow "officer" (some ["Stockbroker"])]
    (p.policiesFor 30 1 "Stockbroker").1 = p.registry.policiesFor "Stockbroker" ∧
    p.registry.policiesFor "Stockbroker" = [entry (publishedRego marginRow)] := by
  refine ⟨lookups_coherent _ _ _
    [.lookup 0 "Stockbroker", .publishApproved 1 marginRow "officer" (some ["Stockbroker"])]
    ⟨fun _ _ _ => trivial, fun e hcached hkept => ?_, trivial⟩ _ (List.prefix_refl _) _ _,
    by decide⟩
  -- the one cached entity type is the one the approval names
  have he : e ≠ "Stockbroker" := by
    rintro rfl
    exact hkept (by decide)
  simp [Process.step, Process.policiesFor, ReadCache.lookup, ReadCache.fresh?, ReadCache.empty, he]
    at hcached

end RegEngine.Execution
