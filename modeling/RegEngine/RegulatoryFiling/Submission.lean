import Mathlib.Data.List.Sort
import RegEngine.Lib.Programs

/-!
# Filings and their queue

The records and `FilingQueue` of `app/regulatory_filing/submission.py`, as programs over single Redis
commands; `submit` stands for the submitter of the record's channel. A SET names the client that sends it,
which nothing but `claims` looks at: who has created a filing and not yet added it to the pending set, or
has marked it SUBMITTING and not yet written a result. Payload and signature are left to the submitters.
-/

namespace RegEngine.RegulatoryFiling

open Lib.Programs

inductive SubmissionChannel where
  | sftp
  | portalApi
  deriving DecidableEq, Repr

def SubmissionChannel.value : SubmissionChannel → String
  | sftp => "sftp"
  | portalApi => "portal_api"

inductive FilingType where
  | complianceLog
  | dailyCollateral
  deriving DecidableEq, Repr

def FilingType.value : FilingType → String
  | complianceLog => "compliance_log"
  | dailyCollateral => "daily_collateral"

inductive FilingStatus where
  | pending
  | submitting
  | acknowledged
  | failed
  deriving DecidableEq, Repr

def FilingStatus.value : FilingStatus → String
  | pending => "pending"
  | submitting => "submitting"
  | acknowledged => "acknowledged"
  | failed => "failed"

/-- ACKNOWLEDGED or FAILED. -/
def FilingStatus.final : FilingStatus → Bool
  | acknowledged | failed => true
  | pending | submitting => false

structure FilingAcknowledgment where
  acknowledgmentReference : String
  acknowledgedAt : Int
  rawDetail : Option String

/-- `FilingSubmissionRecord`; moments are microseconds. -/
structure FilingSubmissionRecord where
  filingId : String
  filingType : FilingType
  target : String
  channel : SubmissionChannel
  filename : String
  contentType : String
  status : FilingStatus
  attemptCount : Nat
  maxRetries : Int
  lastError : Option String
  submittedAt : Option Int
  acknowledgment : Option FilingAcknowledgment
  createdAt : Int

/-- What a submitter raises: its text, and whether `is_transient` holds of it. -/
structure SubmitError where
  text : String
  transient : Bool

/-- `filing_submission_failed_event`. -/
structure FilingSubmissionFailed where
  filingId : String
  filingType : String
  destination : String
  attemptCount : Nat
  lastError : String

/-- One command, of the clients `ι`; `receive` and `dispatch` are those of the task queue. -/
inductive Command (ι : Type) where
  | get (filingId : String)
  | create (client : ι) (record : FilingSubmissionRecord)
  | save (client : ι) (record : FilingSubmissionRecord)
  | sadd (filingId : String)
  | srem (filingId : String)
  | smembers
  | clock
  | submit (record : FilingSubmissionRecord)
  | raiseBreachEvent (event : FilingSubmissionFailed)
  | receive
  | dispatch (filingId : String)

def Reply {ι : Type} : Command ι → Type
  | .get _ => Option FilingSubmissionRecord
  | .smembers => List String
  | .clock => Int
  | .submit _ => Except SubmitError FilingAcknowledgment
  | .raiseBreachEvent _ => Bool
  | .receive => String
  | _ => Unit

inductive FilingError where
  | keyError (message : String)
  | external
  deriving DecidableEq, Repr

abbrev FilingM (ι α : Type) : Type := Proc (Command ι) Reply FilingError α

/-- Redis, the tasks on their way, and how often the destination has accepted each filing. -/
structure Store (ι : Type) where
  filings : String → Option FilingSubmissionRecord
  pending : List String
  tasks : List String
  accepted : String → Nat
  claims : String → Option ι

def Store.put {ι : Type} (s : Store ι) (record : FilingSubmissionRecord) (claim : Option ι) : Store ι :=
  { s with
    filings := Function.update s.filings record.filingId (some record)
    claims := Function.update s.claims record.filingId claim }

/-- The destination has accepted a filing once more. -/
def Store.accept {ι : Type} (s : Store ι) (filingId : String) : Store ι :=
  { s with accepted := Function.update s.accepted filingId (s.accepted filingId + 1) }

/-- What a command does. The ids of new filings are new; a submission may be accepted although the
submitter raises. -/
inductive Exec {ι : Type} : (c : Command ι) → Store ι → Reply c → Store ι → Prop where
  | get {s : Store ι} (id : String) : Exec (.get id) s (s.filings id) s
  | create {s : Store ι} (client : ι) (record : FilingSubmissionRecord) :
      s.filings record.filingId = none → Exec (.create client record) s () (s.put record (some client))
  | save {s : Store ι} (client : ι) (record : FilingSubmissionRecord) :
      Exec (.save client record) s ()
        (s.put record (if record.status = .submitting then some client else none))
  | sadd {s : Store ι} (id : String) :
      Exec (.sadd id) s () { s with
        pending := s.pending.insert id
        claims := Function.update s.claims id none }
  | srem {s : Store ι} (id : String) :
      Exec (.srem id) s () { s with pending := s.pending.filter (· ≠ id) }
  | smembers {s : Store ι} (ids : List String) : ids.Perm s.pending → Exec .smembers s ids s
  | clock {s : Store ι} (now : Int) : Exec .clock s now s
  | acknowledged {s : Store ι} (record : FilingSubmissionRecord) (ack : FilingAcknowledgment) :
      Exec (.submit record) s (.ok ack) (s.accept record.filingId)
  | refused {s : Store ι} (record : FilingSubmissionRecord) (e : SubmitError) :
      Exec (.submit record) s (.error e) s
  | lost {s : Store ι} (record : FilingSubmissionRecord) (e : SubmitError) :
      Exec (.submit record) s (.error e) (s.accept record.filingId)
  | raiseBreachEvent {s : Store ι} (event : FilingSubmissionFailed) (done : Bool) :
      Exec (.raiseBreachEvent event) s done s
  | receive {s : Store ι} (earlier later : List String) (id : String) :
      s.tasks = earlier ++ id :: later → Exec .receive s id { s with tasks := earlier ++ later }
  | dispatch {s : Store ι} (id : String) :
      Exec (.dispatch id) s () { s with tasks := s.tasks ++ [id] }

section
variable {ι : Type}

def command (c : Command ι) : FilingM ι (Reply c) := Proc.send c

/-! ## `FilingQueue` -/

def enqueue (client : ι) (record : FilingSubmissionRecord) : FilingM ι Unit := do
  let _ ← command (.create client record)
  let _ ← command (.sadd record.filingId)
  return ()

def get (filingId : String) : FilingM ι (Option FilingSubmissionRecord) := command (.get filingId)

def listPending : FilingM ι (List FilingSubmissionRecord) := do
  let filingIds : List String ← command .smembers
  let records ← filingIds.mapM get
  return (records.filterMap id).insertionSort fun a b => a.createdAt ≤ b.createdAt

def noFiling (filingId : String) : FilingError := .keyError s!"No filing '{filingId}' in the queue."

def markSubmitting (client : ι) (filingId : String) : FilingM ι FilingSubmissionRecord := do
  match ← get filingId with
  | none => throw (noFiling filingId)
  | some record =>
    let updated := { record with status := .submitting, attemptCount := record.attemptCount + 1 }
    let _ ← command (.save client updated)
    return updated

def markAcknowledged (client : ι) (filingId : String) (ack : FilingAcknowledgment) :
    FilingM ι FilingSubmissionRecord := do
  match ← get filingId with
  | none => throw (noFiling filingId)
  | some record =>
    let now : Int ← command .clock
    let updated := { record with
      status := .acknowledged
      submittedAt := some now
      acknowledgment := some ack
      lastError := none }
    let _ ← command (.save client updated)
    let _ ← command (.srem filingId)
    return updated

def markRetry (client : ι) (filingId error : String) : FilingM ι FilingSubmissionRecord := do
  match ← get filingId with
  | none => throw (noFiling filingId)
  | some record =>
    let updated := { record with status := .pending, lastError := some error }
    let _ ← command (.save client updated)
    return updated

def markFailed (client : ι) (filingId error : String) : FilingM ι FilingSubmissionRecord := do
  match ← get filingId with
  | none => throw (noFiling filingId)
  | some record =>
    let updated := { record with status := .failed, lastError := some error }
    let _ ← command (.save client updated)
    let _ ← command (.srem filingId)
    return updated

end

/-!
## The filing tasks

`app/regulatory_filing/tasks.py`: a worker takes a task from the queue and makes one attempt, a sweep
dispatches one task for every filing that it finds PENDING.
-/

structure Settings where
  regulatoryFilingEnabled : Bool

section
variable {ι : Type} (client : ι)

/-- The branch of `_submit_one` for a submitter that raises. -/
def submissionFailed (record : FilingSubmissionRecord) (filingId : String) (e : SubmitError) :
    FilingM ι Unit := do
  if record.maxRetries ≤ record.attemptCount ∨ e.transient = false then
    let _ ← markFailed client filingId e.text
    let done : Bool ← command (.raiseBreachEvent {
      filingId := filingId
      filingType := record.filingType.value
      destination := record.channel.value ++ ":" ++ record.target
      attemptCount := record.attemptCount
      lastError := e.text })
    if done then return () else throw .external
  else
    let _ ← markRetry client filingId e.text
    return ()

/-- `_submit_one`. -/
def submitOne (filingId : String) : FilingM ι Unit := do
  match ← get filingId with
  | none => return ()
  | some record =>
    if record.status = .acknowledged then return ()
    else
      let record ← markSubmitting client filingId
      match ← (command (.submit record) : FilingM ι (Except SubmitError FilingAcknowledgment)) with
      | .error e => submissionFailed client record filingId e
      | .ok ack =>
        let _ ← markAcknowledged client filingId ack
        return ()

/-- A worker takes a task: `submit_filing_task`. -/
def submitFilingTask (settings : Settings) : FilingM ι Unit := do
  let filingId : String ← command .receive
  if settings.regulatoryFilingEnabled = false then return ()
  else submitOne client filingId

end

section
variable {ι : Type}

/-- `_sweep_pending`. -/
def sweepPending : FilingM ι (List String) := do
  let pending ← listPending
  return (pending.filter (·.status = .pending)).map FilingSubmissionRecord.filingId

/-- `submit_pending_filings_task`. -/
def submitPendingFilingsTask (settings : Settings) : FilingM ι Nat := do
  if settings.regulatoryFilingEnabled = false then return 0
  else
    let filingIds ← sweepPending
    filingIds.forM fun filingId => do
      let _ ← command (.dispatch filingId)
      return ()
    return filingIds.length

end

end RegEngine.RegulatoryFiling
