import RegEngine.Governance.KillSwitch

/-!
# The live switches and the durable events

A call flips the switch before it writes the event, so a failure in between leaves a flip that no event
records.

* `flip_eq_iff`: when a flip leaves Redis as it is.
* `killSwitch_keeps_iff`: when a call that raises does.
* `killSwitch_durable`: where all calls of a run do, the live switches are those of the latest events.
-/

namespace RegEngine.Governance

open Lib.Calendar Lib.Python

/-! ## Flips -/

/-- The switch already is as the call would have it. -/
def KillSwitchCall.Idle (call : KillSwitchCall) (now : DateTime) (store : KillSwitchStore) : Prop :=
  match call.scope with
  | .global => store.globalKey = if call.activate then some ⟨call.reason, call.actor, now⟩ else none
  | .tenant =>
    store.tenantKey (call.tenantId.getD "") =
        (if call.activate then some ⟨call.reason, call.actor, now⟩ else none) ∧
      store.activeTenants (call.tenantId.getD "") = call.activate

theorem flip_eq_iff {call : KillSwitchCall} {now : DateTime} {store : KillSwitchStore} :
    call.flip now store = store ↔ call.Idle now store := by
  obtain ⟨globalKey, tenantKey, activeTenants⟩ := store
  unfold KillSwitchCall.flip KillSwitchCall.Idle
  cases call.scope with
  | global =>
    cases call.activate with
    | true => simp [KillSwitchStore.activateGlobal, eq_comm]
    | false => simp [KillSwitchStore.deactivateGlobal, eq_comm]
  | tenant =>
    cases call.activate with
    | true =>
      simp only [KillSwitchStore.activateTenant, KillSwitchStore.mk.injEq, true_and,
        Function.update_eq_self_iff, if_true]
      exact and_congr eq_comm eq_comm
    | false =>
      simp only [KillSwitchStore.deactivateTenant, KillSwitchStore.mk.injEq, true_and,
        Function.update_eq_self_iff, Bool.false_eq_true, if_false]
      exact and_congr eq_comm eq_comm

/-! ## One call -/

/-- The call leaves Redis as it was, if it raises. -/
def KeepsRedis (call : KillSwitchCall) (env : KillSwitchEnv) (S : KillSwitchState) : Prop :=
  ∀ err, (killSwitch call env S).1 = .error err → (killSwitch call env S).2.redis = S.redis

/-- The call is refused before the flip, or its event is stored and read back, or the switch already is
as it would have it. -/
def Safe (call : KillSwitchCall) (env : KillSwitchEnv) (S : KillSwitchState) : Prop :=
  call.refused.isSome = true ∨ env.failure = some .redis ∨
    (env.failure = none ∧ env.accepts S.events (call.event env) = true) ∨ call.Idle env.now S.redis

/-- **When a call that raises leaves Redis as it was.** -/
theorem killSwitch_keeps_iff (call : KillSwitchCall) (env : KillSwitchEnv) (S : KillSwitchState) :
    KeepsRedis call env S ↔ Safe call env S := by
  unfold KeepsRedis Safe killSwitch
  cases hrefused : call.refused with
  | some message => simp
  | none =>
    cases hfailure : env.failure with
    | none =>
      by_cases haccepts : env.accepts S.events (call.event env) = true
      · simp [haccepts]
      · simp [haccepts, flip_eq_iff]
    | some failure =>
      cases failure with
      | redis => simp
      | insert => simp [flip_eq_iff]
      | refresh =>
        by_cases haccepts : env.accepts S.events (call.event env) = true
        · simp [haccepts, flip_eq_iff]
        · simp [haccepts, flip_eq_iff]

/-! ## Runs -/

/-- The state that the latest event of a switch gives: the reason and the actor of an activation. -/
def durable (events : List KillSwitchEvent) (switch : Option String) : Option (String × String) :=
  match (events.filter fun event => event.switch = switch).getLast? with
  | some event =>
    match event.action with
    | .activated => some (event.reason, event.actor)
    | .deactivated => none
  | none => none

/-- The live state of every switch is the one its latest event gives. -/
def LiveIsDurable (S : KillSwitchState) : Prop :=
  ∀ switch, (S.redis.live switch).map (fun state => (state.reason, state.activatedBy)) =
    durable S.events switch

/-- The states of the runs from empty stores all of whose calls are safe. -/
inductive Reachable : KillSwitchState → Prop where
  | initial : Reachable {}
  | call {S : KillSwitchState} (call : KillSwitchCall) (env : KillSwitchEnv) : Reachable S →
      Safe call env S → Reachable (killSwitch call env S).2

/-- **What a call does to the stores**: nothing, a flip that raises without its event, or both. -/
theorem killSwitch_cases (call : KillSwitchCall) (env : KillSwitchEnv) (S : KillSwitchState) :
    (killSwitch call env S).2 = S ∨
      ((∃ err, (killSwitch call env S).1 = .error err) ∧
        (killSwitch call env S).2 = ⟨call.flip env.now S.redis, S.events⟩) ∨
      (call.refused = none ∧
        (killSwitch call env S).2 = ⟨call.flip env.now S.redis, S.events ++ [call.event env]⟩) := by
  unfold killSwitch
  cases hrefused : call.refused with
  | some message => exact .inl rfl
  | none =>
    dsimp only
    split
    · exact .inl rfl
    · split
      · exact .inr (.inl ⟨⟨_, rfl⟩, rfl⟩)
      · split
        · exact .inr (.inl ⟨⟨_, rfl⟩, rfl⟩)
        · split
          · exact .inr (.inr ⟨rfl, rfl⟩)
          · exact .inr (.inr ⟨rfl, rfl⟩)

/-- The switch of a call that is not refused. -/
theorem switch_event {call : KillSwitchCall} (env : KillSwitchEnv) (h : call.refused = none) :
    (call.event env).switch =
      match call.scope with
      | .global => none
      | .tenant => some (call.tenantId.getD "") := by
  unfold KillSwitchEvent.switch KillSwitchCall.event
  cases hscope : call.scope with
  | global => rfl
  | tenant =>
    cases htenant : call.tenantId with
    | none => simp [KillSwitchCall.refused, hscope, htenant, truthy] at h
    | some t => rfl

/-- A flip changes the state of its own switch. -/
theorem live_flip {call : KillSwitchCall} (env : KillSwitchEnv) (h : call.refused = none)
    (store : KillSwitchStore) (switch : Option String) :
    (call.flip env.now store).live switch =
      if (call.event env).switch = switch then
        if call.activate then some ⟨call.reason, call.actor, env.now⟩ else none
      else store.live switch := by
  rw [switch_event env h]
  unfold KillSwitchCall.flip
  cases call.scope with
  | global =>
    cases switch <;> cases call.activate <;>
      simp [KillSwitchStore.activateGlobal, KillSwitchStore.deactivateGlobal, KillSwitchStore.live]
  | tenant =>
    cases switch with
    | none =>
      cases call.activate <;>
        simp [KillSwitchStore.activateTenant, KillSwitchStore.deactivateTenant, KillSwitchStore.live]
    | some t =>
      cases call.activate <;>
        simp [KillSwitchStore.activateTenant, KillSwitchStore.deactivateTenant, KillSwitchStore.live,
          Function.update_apply, eq_comm]

theorem durable_concat (events : List KillSwitchEvent) (event : KillSwitchEvent)
    (switch : Option String) :
    durable (events ++ [event]) switch =
      if event.switch = switch then
        match event.action with
        | .activated => some (event.reason, event.actor)
        | .deactivated => none
      else durable events switch := by
  by_cases h : event.switch = switch <;> simp [durable, List.filter_append, h]

/-- A flip with its event. -/
theorem LiveIsDurable.recorded {call : KillSwitchCall} {env : KillSwitchEnv} {S : KillSwitchState}
    (hrefused : call.refused = none) (h : LiveIsDurable S) :
    LiveIsDurable ⟨call.flip env.now S.redis, S.events ++ [call.event env]⟩ := by
  intro switch
  rw [durable_concat, live_flip env hrefused]
  split
  · unfold KillSwitchCall.event
    cases call.activate <;> rfl
  · exact h switch

theorem LiveIsDurable.call {call : KillSwitchCall} {env : KillSwitchEnv} {S : KillSwitchState}
    (hsafe : Safe call env S) (h : LiveIsDurable S) : LiveIsDurable (killSwitch call env S).2 := by
  rcases killSwitch_cases call env S with hsame | ⟨⟨err, herr⟩, hflip⟩ | ⟨hrefused, hrecorded⟩
  · rw [hsame]
    exact h
  · -- the flip is none, as the call keeps Redis
    have hkeeps := (killSwitch_keeps_iff call env S).2 hsafe err herr
    rw [hflip] at hkeeps ⊢
    change call.flip env.now S.redis = S.redis at hkeeps
    rw [hkeeps]
    exact h
  · rw [hrecorded]
    exact h.recorded hrefused

theorem liveIsDurable_of_reachable {S : KillSwitchState} (h : Reachable S) : LiveIsDurable S := by
  induction h with
  | initial => exact fun switch => by cases switch <;> rfl
  | call call env _ hsafe ih => exact ih.call hsafe

/-- **A call that raises leaves Redis as it was exactly when it is safe, and in a run of safe calls the
live switches are those of the latest durable events.** -/
theorem killSwitch_durable (call : KillSwitchCall) (env : KillSwitchEnv) (S : KillSwitchState) :
    (KeepsRedis call env S ↔ Safe call env S) ∧ (Reachable S → LiveIsDurable S) :=
  ⟨killSwitch_keeps_iff call env S, liveIsDurable_of_reachable⟩

/-! ## A switch without an event -/

def newYear : DateTime := ⟨63902908800000000, none, by decide⟩

/-- The switch of a broker that has no row in `tenants`. -/
def unknownBroker : KillSwitchCall where
  scope := .tenant
  activate := true
  reason := "anomaly detected"
  actor := "admin"
  tenantId := some "BRK-001"

def noTenants : KillSwitchEnv where
  now := newYear
  eventId := "e-1"
  occurredAt := newYear
  tenants := []

/-- The activation of a broker that has a row. -/
theorem liveIsDurable_knownBroker :
    LiveIsDurable (killSwitch unknownBroker { noTenants with tenants := ["BRK-001"] } {}).2 := by
  have haccepts : KillSwitchEnv.accepts { noTenants with tenants := ["BRK-001"] } []
      (unknownBroker.event { noTenants with tenants := ["BRK-001"] }) = true := by decide
  have hreachable := Reachable.call unknownBroker { noTenants with tenants := ["BRK-001"] } .initial
    (.inr (.inr (.inl ⟨rfl, haccepts⟩)))
  exact (killSwitch_durable unknownBroker noTenants _).2 hreachable

/-- The insert fails on the foreign key, and the switch stays on. -/
theorem killSwitch_unknownBroker :
    (∃ err, (killSwitch unknownBroker noTenants {}).1 = .error err) ∧
      (killSwitch unknownBroker noTenants {}).2.redis.isTenantActive "BRK-001" = true ∧
      (killSwitch unknownBroker noTenants {}).2.events = [] ∧
      ¬ KeepsRedis unknownBroker noTenants {} ∧
      ¬ LiveIsDurable (killSwitch unknownBroker noTenants {}).2 := by
  refine ⟨⟨.integrityError, rfl⟩, by decide, by decide, fun h => ?_, fun h => ?_⟩
  · have hredis := congrArg (fun store => store.isTenantActive "BRK-001") (h .integrityError rfl)
    revert hredis
    decide
  · have hlive := h (some "BRK-001")
    revert hlive
    decide

end RegEngine.Governance
