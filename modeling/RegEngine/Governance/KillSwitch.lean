import Mathlib.Logic.Function.Basic
import RegEngine.Lib.Calendar
import RegEngine.Lib.Python

/-!
# The kill switch

`app/governance/kill_switch.py`, with the rows of `KillSwitchEvent` in `app/db/models.py`: the live
switches in Redis and the durable events in Postgres. What a call meets outside (the clocks, the id of
its event, the `tenants` table and the failures of the two stores) is `KillSwitchEnv`.
-/

namespace RegEngine.Governance

open Lib.Calendar Lib.Python

inductive KillSwitchScope where
  | global
  | tenant
  deriving DecidableEq, Repr

structure KillSwitchRedisState where
  reason : String
  activatedBy : String
  activatedAt : DateTime
  deriving DecidableEq

/-! ## `KillSwitchStore` -/

/-- The keys of the store: the state of an active switch, and the index of the active tenants. -/
structure KillSwitchStore where
  globalKey : Option KillSwitchRedisState := none
  tenantKey : String → Option KillSwitchRedisState := fun _ => none
  activeTenants : String → Bool := fun _ => false

namespace KillSwitchStore

def isGlobalActive (store : KillSwitchStore) : Bool := store.globalKey.isSome

def isTenantActive (store : KillSwitchStore) (tenantId : String) : Bool :=
  (store.tenantKey tenantId).isSome

def isActiveFor (store : KillSwitchStore) (tenantId : Option String) : Bool :=
  if store.isGlobalActive then true
  else match tenantId with
    | some t => store.isTenantActive t
    | none => false

def activateGlobal (store : KillSwitchStore) (reason actor : String) (now : DateTime) :
    KillSwitchStore :=
  { store with globalKey := some ⟨reason, actor, now⟩ }

def deactivateGlobal (store : KillSwitchStore) : KillSwitchStore := { store with globalKey := none }

def activateTenant (store : KillSwitchStore) (tenantId reason actor : String) (now : DateTime) :
    KillSwitchStore :=
  { store with
    tenantKey := Function.update store.tenantKey tenantId (some ⟨reason, actor, now⟩)
    activeTenants := Function.update store.activeTenants tenantId true }

def deactivateTenant (store : KillSwitchStore) (tenantId : String) : KillSwitchStore :=
  { store with
    tenantKey := Function.update store.tenantKey tenantId none
    activeTenants := Function.update store.activeTenants tenantId false }

/-- The state of a switch: the global one, or that of a tenant. -/
def live (store : KillSwitchStore) : Option String → Option KillSwitchRedisState
  | none => store.globalKey
  | some t => store.tenantKey t

end KillSwitchStore

/-! ## The events -/

inductive KillSwitchAction where
  | activated
  | deactivated
  deriving DecidableEq, Repr

structure KillSwitchEvent where
  eventId : String
  scope : KillSwitchScope
  tenantId : Option String
  action : KillSwitchAction
  reason : String
  actor : String
  isDrill : Bool
  occurredAt : DateTime
  deriving DecidableEq

/-- The switch that an event is about. -/
def KillSwitchEvent.switch (event : KillSwitchEvent) : Option String :=
  match event.scope with
  | .global => none
  | .tenant => event.tenantId

/-- A failure of a store: a Redis command that is not applied, an insert or commit that fails whatever
the row is, or the refresh after the commit. -/
inductive StoreFailure where
  | redis
  | insert
  | refresh
  deriving DecidableEq

structure KillSwitchEnv where
  now : DateTime
  eventId : String
  occurredAt : DateTime
  tenants : List String
  failure : Option StoreFailure := none

/-- The constraints of the table: the scope has a tenant or not, the tenant exists, the id is new and
the actor fits its column. -/
def KillSwitchEnv.accepts (env : KillSwitchEnv) (events : List KillSwitchEvent)
    (event : KillSwitchEvent) : Bool :=
  (event.scope = .global ↔ event.tenantId = none) ∧ (∀ t ∈ event.tenantId, t ∈ env.tenants) ∧
    event.eventId ∉ events.map (·.eventId) ∧ event.actor.length ≤ 200

/-! ## `kill_switch` -/

structure KillSwitchCall where
  scope : KillSwitchScope
  activate : Bool
  reason : String
  actor : String
  tenantId : Option String := none
  isDrill : Bool := false

inductive KillSwitchError where
  | valueError (message : String)
  | redisError
  | integrityError
  | databaseError
  deriving DecidableEq

structure KillSwitchActionResult where
  eventId : String
  scope : KillSwitchScope
  tenantId : Option String
  action : KillSwitchAction
  actor : String
  occurredAt : DateTime
  isDrill : Bool

/-- Both stores; the newest event is last. -/
structure KillSwitchState where
  redis : KillSwitchStore := {}
  events : List KillSwitchEvent := []

/-- The checks of the arguments. -/
def KillSwitchCall.refused (call : KillSwitchCall) : Option String :=
  if call.scope = .tenant ∧ ¬ truthy call.tenantId then
    some "tenant_id is required when scope='tenant'."
  else if call.scope = .global ∧ truthy call.tenantId then
    some "tenant_id must not be set when scope='global'."
  else none

/-- The flip of the live switch. -/
def KillSwitchCall.flip (call : KillSwitchCall) (now : DateTime) (store : KillSwitchStore) :
    KillSwitchStore :=
  match call.scope with
  | .global =>
    if call.activate then store.activateGlobal call.reason call.actor now else store.deactivateGlobal
  | .tenant =>
    let tenantId := call.tenantId.getD ""
    if call.activate then store.activateTenant tenantId call.reason call.actor now
    else store.deactivateTenant tenantId

def KillSwitchCall.event (call : KillSwitchCall) (env : KillSwitchEnv) : KillSwitchEvent where
  eventId := env.eventId
  scope := call.scope
  tenantId := call.tenantId
  action := if call.activate then .activated else .deactivated
  reason := call.reason
  actor := call.actor
  isDrill := call.isDrill
  occurredAt := env.occurredAt

/-- The call, and the stores after it. -/
def killSwitch (call : KillSwitchCall) (env : KillSwitchEnv) (S : KillSwitchState) :
    Except KillSwitchError KillSwitchActionResult × KillSwitchState :=
  match call.refused with
  | some message => (.error (.valueError message), S)
  | none =>
    if env.failure = some .redis then (.error .redisError, S)
    else
      -- the switch is flipped before its event is written
      let flipped := { S with redis := call.flip env.now S.redis }
      let event := call.event env
      if env.failure = some .insert then (.error .databaseError, flipped)
      else if ¬ env.accepts S.events event then (.error .integrityError, flipped)
      else
        let stored := { flipped with events := S.events ++ [event] }
        if env.failure = some .refresh then (.error .databaseError, stored)
        else
          (.ok ⟨event.eventId, event.scope, event.tenantId, event.action, event.actor,
            event.occurredAt, event.isDrill⟩, stored)

end RegEngine.Governance
