import Mathlib.Data.List.Sort
import RegEngine.Lib.Programs

/-!
# Grievances and their queue

The records and `GrievanceQueue` of `app/grievance_escalation/queue.py`, as programs over single Redis
commands; `submit` and `queryStatus` stand for the SCORES client. A SET names what it is sent for, which
nothing but `claims` looks at: who has marked a grievance SUBMITTING and not yet written a result. Of a
grievance's request and dashboard notifications nothing is modelled.
-/

namespace RegEngine.GrievanceEscalation

open Lib.Programs

inductive GrievanceStatus where
  | drafted
  | pendingSubmission
  | submitting
  | submitted
  | resolved
  | rejected
  | submissionFailed
  deriving DecidableEq, Repr

def GrievanceStatus.value : GrievanceStatus → String
  | drafted => "drafted"
  | pendingSubmission => "pending_submission"
  | submitting => "submitting"
  | submitted => "submitted"
  | resolved => "resolved"
  | rejected => "rejected"
  | submissionFailed => "submission_failed"

/-- RESOLVED or REJECTED. -/
def GrievanceStatus.closed : GrievanceStatus → Bool
  | resolved | rejected => true
  | _ => false

inductive ScoresGrievanceStatus where
  | submitted
  | underReview
  | pendingWithRespondent
  | resolved
  | rejected
  | unknown
  deriving DecidableEq, Repr

/-- `GrievanceRecord`; moments are microseconds. -/
structure GrievanceRecord where
  grievanceId : String
  status : GrievanceStatus
  attemptCount : Nat
  maxRetries : Int
  lastError : Option String
  scoresReferenceNumber : Option String
  scoresStatus : Option ScoresGrievanceStatus
  resolutionSummary : Option String
  filedAt : Int
  submittedAt : Option Int
  lastPolledAt : Option Int
  resolvedAt : Option Int

/-- What the SCORES client raises: its text, and whether `is_transient` holds of it. -/
structure ScoresError where
  text : String
  transient : Bool

/-- What a poll answers with. -/
structure GrievanceStatusResponse where
  status : ScoresGrievanceStatus
  resolutionSummary : Option String

inductive SetKey where
  | pendingSubmission
  | «open»
  deriving DecidableEq

inductive Task where
  | submit (grievanceId : String)
  | poll (grievanceId : String)
  deriving DecidableEq

/-- One command, of the callers `ι`; `receive` and `dispatch` are those of the task queue. -/
inductive Command (ι : Type) where
  | get (grievanceId : String)
  | create (record : GrievanceRecord)
  | confirm (record : GrievanceRecord)
  | mark (client : ι) (record : GrievanceRecord)
  | update (record : GrievanceRecord)
  | sadd (key : SetKey) (grievanceId : String)
  | srem (key : SetKey) (grievanceId : String)
  | smembers (key : SetKey)
  | clock
  | submit (record : GrievanceRecord)
  | queryStatus (scoresReferenceNumber : String)
  | receive
  | dispatch (task : Task)

def Reply {ι : Type} : Command ι → Type
  | .get _ => Option GrievanceRecord
  | .smembers _ => List String
  | .clock => Int
  | .submit _ => Except ScoresError String
  | .queryStatus _ => Option GrievanceStatusResponse
  | .receive => Task
  | _ => Unit

inductive GrievanceError where
  | keyError (message : String)
  | valueError (message : String)
  deriving DecidableEq, Repr

abbrev GrievanceM (ι α : Type) : Type := Proc (Command ι) Reply GrievanceError α

/-- Redis, the tasks on their way, and how often SCORES has accepted each grievance. -/
structure Store (ι : Type) where
  grievances : String → Option GrievanceRecord
  sets : SetKey → List String
  tasks : List Task
  accepted : String → Nat
  claims : String → Option ι

def Store.put {ι : Type} (s : Store ι) (record : GrievanceRecord) (claim : Option ι) : Store ι :=
  { s with
    grievances := Function.update s.grievances record.grievanceId (some record)
    claims := Function.update s.claims record.grievanceId claim }

/-- SCORES has accepted a grievance once more. -/
def Store.accept {ι : Type} (s : Store ι) (grievanceId : String) : Store ι :=
  { s with accepted := Function.update s.accepted grievanceId (s.accepted grievanceId + 1) }

/-- What a command does. The ids of new grievances are new; a submission may be accepted although the
client raises, and a poll that raises answers nothing. -/
inductive Exec {ι : Type} : (c : Command ι) → Store ι → Reply c → Store ι → Prop where
  | get {s : Store ι} (id : String) : Exec (.get id) s (s.grievances id) s
  | create {s : Store ι} (record : GrievanceRecord) :
      s.grievances record.grievanceId = none → Exec (.create record) s () (s.put record none)
  | confirm {s : Store ι} (record : GrievanceRecord) : Exec (.confirm record) s () (s.put record none)
  | mark {s : Store ι} (client : ι) (record : GrievanceRecord) :
      Exec (.mark client record) s ()
        (s.put record (if record.status = .submitting then some client else none))
  | update {s : Store ι} (record : GrievanceRecord) :
      Exec (.update record) s () (s.put record (s.claims record.grievanceId))
  | sadd {s : Store ι} (key : SetKey) (id : String) :
      Exec (.sadd key id) s () { s with
        sets := Function.update s.sets key ((s.sets key).insert id) }
  | srem {s : Store ι} (key : SetKey) (id : String) :
      Exec (.srem key id) s () { s with
        sets := Function.update s.sets key ((s.sets key).filter (· ≠ id)) }
  | smembers {s : Store ι} (key : SetKey) (ids : List String) :
      ids.Perm (s.sets key) → Exec (.smembers key) s ids s
  | clock {s : Store ι} (now : Int) : Exec .clock s now s
  | acknowledged {s : Store ι} (record : GrievanceRecord) (reference : String) :
      Exec (.submit record) s (.ok reference) (s.accept record.grievanceId)
  | refused {s : Store ι} (record : GrievanceRecord) (e : ScoresError) :
      Exec (.submit record) s (.error e) s
  | lost {s : Store ι} (record : GrievanceRecord) (e : ScoresError) :
      Exec (.submit record) s (.error e) (s.accept record.grievanceId)
  | queryStatus {s : Store ι} (reference : String) (response : Option GrievanceStatusResponse) :
      Exec (.queryStatus reference) s response s
  | receive {s : Store ι} (earlier later : List Task) (task : Task) :
      s.tasks = earlier ++ task :: later → Exec .receive s task { s with tasks := earlier ++ later }
  | dispatch {s : Store ι} (task : Task) :
      Exec (.dispatch task) s () { s with tasks := s.tasks ++ [task] }

section
variable {ι : Type}

def command (c : Command ι) : GrievanceM ι (Reply c) := Proc.send c

/-! ## `GrievanceQueue` -/

def createDraft (record : GrievanceRecord) : GrievanceM ι GrievanceRecord := do
  let _ ← command (.create record)
  return record

def get (grievanceId : String) : GrievanceM ι (Option GrievanceRecord) := command (.get grievanceId)

/-- `_list_from_set`. -/
def listFromSet (key : SetKey) : GrievanceM ι (List GrievanceRecord) := do
  let ids : List String ← command (.smembers key)
  let records ← ids.mapM get
  return (records.filterMap id).insertionSort fun a b => a.filedAt ≤ b.filedAt

def listPendingSubmission : GrievanceM ι (List GrievanceRecord) := listFromSet .pendingSubmission

def listOpen : GrievanceM ι (List GrievanceRecord) := listFromSet .open

/-- `_require`. -/
def require (grievanceId : String) : GrievanceM ι GrievanceRecord := do
  match ← get grievanceId with
  | none => throw (.keyError s!"No grievance '{grievanceId}' in the queue.")
  | some record => return record

def confirmForSubmission (grievanceId : String) : GrievanceM ι GrievanceRecord := do
  let record ← require grievanceId
  if record.status ≠ .drafted then
    throw (.valueError
      s!"Grievance '{grievanceId}' is not DRAFTED (status={record.status.value}); cannot confirm.")
  else
    let updated := { record with status := .pendingSubmission }
    let _ ← command (.confirm updated)
    let _ ← command (.sadd .pendingSubmission grievanceId)
    return updated

def markSubmitting (client : ι) (grievanceId : String) : GrievanceM ι GrievanceRecord := do
  let record ← require grievanceId
  let updated := { record with status := .submitting, attemptCount := record.attemptCount + 1 }
  let _ ← command (.mark client updated)
  return updated

def markSubmitted (client : ι) (grievanceId scoresReferenceNumber : String) :
    GrievanceM ι GrievanceRecord := do
  let record ← require grievanceId
  let now : Int ← command .clock
  let updated := { record with
    status := .submitted
    scoresReferenceNumber := some scoresReferenceNumber
    scoresStatus := some .submitted
    submittedAt := some now
    lastError := none }
  let _ ← command (.mark client updated)
  let _ ← command (.srem .pendingSubmission grievanceId)
  let _ ← command (.sadd .open grievanceId)
  return updated

def markRetry (client : ι) (grievanceId error : String) : GrievanceM ι GrievanceRecord := do
  let record ← require grievanceId
  let updated := { record with status := .pendingSubmission, lastError := some error }
  let _ ← command (.mark client updated)
  return updated

def markSubmissionFailed (client : ι) (grievanceId error : String) : GrievanceM ι GrievanceRecord := do
  let record ← require grievanceId
  let updated := { record with status := .submissionFailed, lastError := some error }
  let _ ← command (.mark client updated)
  let _ ← command (.srem .pendingSubmission grievanceId)
  return updated

/-- What a polled status makes of a record. -/
def polled (record : GrievanceRecord) (response : GrievanceStatusResponse) (polledAt resolvedAt : Int) :
    GrievanceRecord :=
  let record := { record with
    scoresStatus := some response.status
    resolutionSummary := response.resolutionSummary
    lastPolledAt := some polledAt }
  match response.status with
  | .resolved => { record with status := .resolved, resolvedAt := some resolvedAt }
  | .rejected => { record with status := .rejected, resolvedAt := some resolvedAt }
  | _ => record

/-- `update_status`; the second moment is only used for a grievance that is closed. -/
def updateStatus (grievanceId : String) (response : GrievanceStatusResponse) :
    GrievanceM ι GrievanceRecord := do
  let record ← require grievanceId
  let polledAt : Int ← command .clock
  let resolvedAt : Int ← command .clock
  let updated := polled record response polledAt resolvedAt
  let _ ← command (.update updated)
  if updated.status.closed then
    let _ ← command (.srem .open grievanceId)
    return updated
  else return updated

end

/-!
## The grievance tasks

`app/grievance_escalation/tasks.py`, and the end of `evaluate_and_trigger_grievance_escalation`, where a
grievance is drafted and, when `grievance_escalation_auto_submit_enabled`, confirmed and dispatched at once.
-/

section
variable {ι : Type} (client : ι)

/-- The branch of `_submit_one` for a client that raises. -/
def submissionFailed (record : GrievanceRecord) (grievanceId : String) (e : ScoresError) :
    GrievanceM ι Unit := do
  if e.transient = true ∧ (record.attemptCount : Int) < record.maxRetries then
    let _ ← markRetry client grievanceId e.text
    return ()
  else
    let _ ← markSubmissionFailed client grievanceId e.text
    return ()

/-- `_submit_one`. -/
def submitOne (grievanceId : String) : GrievanceM ι Unit := do
  match ← get grievanceId with
  | none => return ()
  | some _ =>
    let record ← markSubmitting client grievanceId
    match ← (command (.submit record) : GrievanceM ι (Except ScoresError String)) with
    | .error e => submissionFailed client record grievanceId e
    | .ok reference =>
      let _ ← markSubmitted client grievanceId reference
      return ()

end

section
variable {ι : Type}

/-- `_submit_pending`. -/
def submitPending : GrievanceM ι Nat := do
  let pending ← listPendingSubmission
  pending.forM fun record => do
    let _ ← command (.dispatch (.submit record.grievanceId))
    return ()
  return pending.length

def pollGrievanceStatusNow (grievanceId : String) : GrievanceM ι Unit := do
  match ← get grievanceId with
  | none => return ()
  | some record =>
    match record.scoresReferenceNumber with
    | none => return ()
    | some reference =>
      match ← (command (.queryStatus reference) : GrievanceM ι (Option GrievanceStatusResponse)) with
      | none => return ()
      | some response =>
        if some response.status = record.scoresStatus ∧
            response.resolutionSummary = record.resolutionSummary then return ()
        else
          let _ ← updateStatus grievanceId response
          return ()

/-- `_poll_pending`. -/
def pollPending : GrievanceM ι Nat := do
  let openGrievances ← listOpen
  openGrievances.forM fun record => do
    let _ ← command (.dispatch (.poll record.grievanceId))
    return ()
  return openGrievances.length

/-- A worker takes a task: `submit_grievance_task` or `poll_grievance_status_task`. -/
def runTask (client : ι) : GrievanceM ι Unit := do
  match ← (command .receive : GrievanceM ι Task) with
  | .submit grievanceId => submitOne client grievanceId
  | .poll grievanceId => pollGrievanceStatusNow grievanceId

/-- The end of `evaluate_and_trigger_grievance_escalation`. -/
def triggerGrievance (autoSubmitEnabled : Bool) (record : GrievanceRecord) :
    GrievanceM ι GrievanceRecord := do
  let record ← createDraft record
  if autoSubmitEnabled = true then
    let record ← confirmForSubmission record.grievanceId
    let _ ← command (.dispatch (.submit record.grievanceId))
    return record
  else return record

end

end RegEngine.GrievanceEscalation
