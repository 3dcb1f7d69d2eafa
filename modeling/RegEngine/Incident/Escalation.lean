import RegEngine.Lib.Programs

/-!
# Breach events and their escalation

`BreachEventStore` (`app/incident/store.py`), `build_escalation_policies` (`app/incident/escalation_policy.py`),
`raise_breach_event` and the escalation tasks (`app/incident/tasks.py`), as programs over single Redis
commands. Of an event's texts nothing is modelled; of the list of recent events neither, nor the dashboard.
A dispatch of a stage's channels is one command, which may raise.

`acknowledged`, `late` and `log` are looked at by nothing: which events `acknowledge` has written, whether
the event was one of them when a caller last read it, and the stages that were dispatched, newest first.
-/

namespace RegEngine.Incident

open Lib.Programs

inductive Severity where
  | critical
  | warning
  | info
  deriving DecidableEq, Repr

inductive AckStatus where
  | pending
  | acknowledged
  | resolved
  deriving DecidableEq, Repr

/-- `BreachEvent`; moments are microseconds. -/
structure BreachEvent where
  eventId : String
  severity : Severity
  ackStatus : AckStatus
  acknowledgedBy : Option String
  acknowledgedAt : Option Int
  escalationStage : Nat
  createdAt : Int

def BreachEvent.requiresAcknowledgment (event : BreachEvent) : Bool :=
  event.severity = .critical || event.severity = .warning

structure EscalationStage where
  stageIndex : Nat
  /-- After the previous stage. -/
  delaySeconds : Int
  channels : List String

structure Settings where
  incidentCriticalSmsStageSeconds : Int
  incidentCriticalAckDeadlineSeconds : Int
  incidentWarningAckDeadlineSeconds : Int

def buildEscalationPolicies (settings : Settings) : Severity → List EscalationStage
  | .critical => [
      ⟨0, 0, ["slack", "email"]⟩,
      ⟨1, settings.incidentCriticalSmsStageSeconds, ["sms"]⟩,
      ⟨2, settings.incidentCriticalAckDeadlineSeconds - settings.incidentCriticalSmsStageSeconds,
        ["pagerduty"]⟩]
  | .warning => [⟨0, 0, ["slack"]⟩, ⟨1, settings.incidentWarningAckDeadlineSeconds, ["email"]⟩]
  | .info => []

/-- Microseconds in a second. -/
def second : Int := 1000000

/-- A task of `process_escalation_stage_task`, to be run at `eta` or later. -/
structure StageTask where
  eventId : String
  stageIndex : Nat
  eta : Int
  deriving DecidableEq

/-- A dispatch of the channels of a stage. -/
structure Dispatch where
  eventId : String
  stageIndex : Nat
  moment : Int
  /-- It did not raise. -/
  completed : Bool
  /-- The caller had read the event after it was acknowledged. -/
  late : Bool

/-- One command, of the callers `ι`; `receive`, `applyAsync` and `sweepDelay` are those of the task queue. -/
inductive Command (ι : Type) where
  | get (client : ι) (eventId : String)
  | create (event : BreachEvent)
  | acknowledge (event : BreachEvent)
  | setStage (read written : BreachEvent)
  | zadd (eventId : String) (score : Int)
  | zrem (eventId : String)
  | zrangebyscore (max : Int)
  | clock
  | dispatchChannels (client : ι) (event : BreachEvent) (stage : EscalationStage) (stageIndex : Nat)
  | applyAsync (eventId : String) (stageIndex : Nat) (countdown : Int)
  | sweepDelay (event : BreachEvent)
  | receive

def Reply {ι : Type} : Command ι → Type
  | .get _ _ => Option BreachEvent
  | .zrangebyscore _ => List String
  | .clock => Int
  | .dispatchChannels _ _ _ _ => Bool
  | .receive => StageTask
  | _ => Unit

inductive IncidentError where
  | external
  deriving DecidableEq, Repr

abbrev IncidentM (ι α : Type) : Type := Proc (Command ι) Reply IncidentError α

structure Store (ι : Type) where
  events : String → Option BreachEvent
  pendingAck : String → Option Int
  tasks : List StageTask
  now : Int
  acknowledged : String → Bool
  late : ι → Bool
  log : List Dispatch

def Store.put {ι : Type} (s : Store ι) (event : BreachEvent) : Store ι :=
  { s with events := Function.update s.events event.eventId (some event) }

/-- What a command does. The ids of new events are new, time passes when a clock is read, and a task is
delivered when its time has come; it may be delivered again (a retry). -/
inductive Exec {ι : Type} [DecidableEq ι] : (c : Command ι) → Store ι → Reply c → Store ι → Prop where
  | get {s : Store ι} (client : ι) (id : String) :
      Exec (.get client id) s (s.events id)
        { s with late := Function.update s.late client (s.acknowledged id) }
  | create {s : Store ι} (event : BreachEvent) :
      s.events event.eventId = none → Exec (.create event) s () (s.put event)
  | acknowledge {s : Store ι} (event : BreachEvent) :
      Exec (.acknowledge event) s () { s.put event with
        acknowledged := Function.update s.acknowledged event.eventId true }
  | setStage {s : Store ι} (read written : BreachEvent) : Exec (.setStage read written) s () (s.put written)
  | zadd {s : Store ι} (id : String) (score : Int) :
      Exec (.zadd id score) s () { s with pendingAck := Function.update s.pendingAck id (some score) }
  | zrem {s : Store ι} (id : String) :
      Exec (.zrem id) s () { s with pendingAck := Function.update s.pendingAck id none }
  | zrangebyscore {s : Store ι} (max : Int) (ids : List String) :
      (∀ id, id ∈ ids ↔ ∃ score, s.pendingAck id = some score ∧ score ≤ max) →
      Exec (.zrangebyscore max) s ids s
  | clock {s : Store ι} (now : Int) : s.now ≤ now → Exec .clock s now { s with now := now }
  | dispatchChannels {s : Store ι} (client : ι) (event : BreachEvent) (stage : EscalationStage)
      (stageIndex : Nat) (done : Bool) :
      Exec (.dispatchChannels client event stage stageIndex) s done { s with
        log := ⟨event.eventId, stageIndex, s.now, done, s.late client⟩ :: s.log }
  | applyAsync {s : Store ι} (id : String) (stageIndex : Nat) (countdown : Int) :
      Exec (.applyAsync id stageIndex countdown) s () { s with
        tasks := ⟨id, stageIndex, s.now + second * countdown⟩ :: s.tasks }
  | sweepDelay {s : Store ι} (event : BreachEvent) :
      Exec (.sweepDelay event) s () { s with
        tasks := ⟨event.eventId, event.escalationStage + 1, s.now⟩ :: s.tasks }
  | receive {s : Store ι} (task : StageTask) (rest : List StageTask) :
      task ∈ s.tasks → task.eta ≤ s.now → rest = s.tasks ∨ rest = s.tasks.erase task →
      Exec .receive s task { s with tasks := rest }

section
variable {ι : Type} (client : ι)

def command (c : Command ι) : IncidentM ι (Reply c) := Proc.send c

/-! ## `BreachEventStore` -/

def save (event : BreachEvent) : IncidentM ι Unit := do
  let _ ← command (.create event)
  if event.requiresAcknowledgment = true ∧ event.ackStatus = .pending then
    let _ ← command (.zadd event.eventId event.createdAt)
    return ()
  else return ()

def get (eventId : String) : IncidentM ι (Option BreachEvent) := command (.get client eventId)

def listPendingAck (olderThanSeconds : Int) : IncidentM ι (List BreachEvent) := do
  let now : Int ← command .clock
  let eventIds : List String ← command (.zrangebyscore (now - second * olderThanSeconds))
  let events ← eventIds.mapM (get client)
  return (events.filterMap id).filter (·.ackStatus = .pending)

def acknowledge (eventId acknowledgedBy : String) : IncidentM ι (Option BreachEvent) := do
  match ← get client eventId with
  | none => return none
  | some event =>
    let now : Int ← command .clock
    let event := { event with
      ackStatus := .acknowledged
      acknowledgedBy := some acknowledgedBy
      acknowledgedAt := some now }
    let _ ← command (.acknowledge event)
    let _ ← command (.zrem eventId)
    return some event

def updateEscalationStage (eventId : String) (stageIndex : Nat) : IncidentM ι Unit := do
  match ← get client eventId with
  | none => return ()
  | some event =>
    let _ ← command (.setStage event { event with escalationStage := stageIndex })
    return ()

/-! ## Tasks -/

def raiseBreachEvent (event : BreachEvent) : IncidentM ι Unit := do
  save event
  if event.requiresAcknowledgment = true then
    let _ ← command (.applyAsync event.eventId 0 0)
    return ()
  else return ()

/-- `_process_stage`, from the policy of an event on that is PENDING. -/
def dispatchStage (stages : List EscalationStage) (event : BreachEvent) (eventId : String)
    (stageIndex : Nat) : IncidentM ι Unit := do
  match stages[stageIndex]? with
  | none => return ()
  | some stage =>
    let done : Bool ← command (.dispatchChannels client event stage stageIndex)
    if done = false then throw .external
    else
      updateEscalationStage client eventId stageIndex
      match stages[stageIndex + 1]? with
      | none => return ()
      | some nextStage =>
        let _ ← command (.applyAsync eventId (stageIndex + 1) nextStage.delaySeconds)
        return ()

/-- `_process_stage`. -/
def processStage (settings : Settings) (eventId : String) (stageIndex : Nat) : IncidentM ι Unit := do
  match ← get client eventId with
  | none => return ()
  | some event =>
    if event.ackStatus ≠ .pending then return ()
    else dispatchStage client (buildEscalationPolicies settings event.severity) event eventId stageIndex

/-- A worker takes a task: `process_escalation_stage_task`. -/
def processEscalationStageTask (settings : Settings) : IncidentM ι Unit := do
  let task : StageTask ← command .receive
  processStage client settings task.eventId task.stageIndex

/-- `_sweep`. -/
def sweep (settings : Settings) : IncidentM ι Unit := do
  let minDeadline := min settings.incidentCriticalSmsStageSeconds settings.incidentWarningAckDeadlineSeconds
  let overdue ← listPendingAck client minDeadline
  overdue.forM fun event => do
    let _ ← command (.sweepDelay event)
    return ()

end

end RegEngine.Incident
