import RegEngine.Lib.Json
import RegEngine.Lib.Binary64
import RegEngine.Lib.Programs
import RegEngine.Lib.StableSort

/-!
# Dead letters

`app/resilience/models.py`. Moments are microseconds.
-/

namespace RegEngine.Resilience

open Lib

inductive FailureCategory where
  | pdfParsing
  | llmExtraction
  | malformedAst
  | vectorIngestion
  | rssPolling
  | policySelfHealExhausted
  | other
  deriving DecidableEq, Repr

def FailureCategory.value : FailureCategory → String
  | pdfParsing => "pdf_parsing"
  | llmExtraction => "llm_extraction"
  | malformedAst => "malformed_ast"
  | vectorIngestion => "vector_ingestion"
  | rssPolling => "rss_polling"
  | policySelfHealExhausted => "policy_self_heal_exhausted"
  | other => "other"

/-- The members, in the order of the enumeration. -/
def FailureCategory.all : List FailureCategory :=
  [pdfParsing, llmExtraction, malformedAst, vectorIngestion, rssPolling, policySelfHealExhausted, other]

inductive DLQStatus where
  | pending
  | requeued
  | resolved
  | discarded
  deriving DecidableEq, Repr

def DLQStatus.value : DLQStatus → String
  | pending => "pending"
  | requeued => "requeued"
  | resolved => "resolved"
  | discarded => "discarded"

def DLQStatus.all : List DLQStatus := [pending, requeued, resolved, discarded]

/-- RESOLVED or DISCARDED. -/
def DLQStatus.terminal : DLQStatus → Bool
  | resolved | discarded => true
  | pending | requeued => false

/-- A dict that is sent as JSON. -/
abbrev Payload : Type := List (String × Json)

structure DLQEntry where
  entryId : String
  category : FailureCategory
  taskName : String
  originalTaskId : Option String
  payload : Payload
  errorType : String
  errorMessage : String
  traceback : Option String
  attemptCount : Nat
  firstFailedAt : Int
  lastFailedAt : Int
  status : DLQStatus
  requeuedAt : Option Int
  requeuedBy : Option String
  requeuedTaskId : Option String
  resolutionNotes : Option String
  resolvedBy : Option String
  resolvedAt : Option Int

structure DLQStats where
  total : Nat
  byCategory : List (String × Nat)
  byStatus : List (String × Nat)
  deriving DecidableEq, Repr

end RegEngine.Resilience

/-!
## The dead-letter queue

`app/resilience/dead_letter_queue.py` as programs over Redis steps: a GET of an entry, a pipeline, a
ZREVRANGE or a ZCARD. A pipeline carries what its sender has read beside what it writes. The names of the
keys are left to the types: an entry key holds an entry, an index key a sorted set.
-/

namespace RegEngine.Resilience

open Lib Lib.Programs

/-- The sorted sets. -/
inductive Index where
  | all
  | category (c : FailureCategory)
  | status (s : DLQStatus)
  deriving DecidableEq, Repr

/-- One step; `sendTask` is `celery_app.send_task`, answered by the id of the task. -/
inductive Command where
  | get (entryId : String)
  | persistNew (entry : DLQEntry)
  | set (entryId : String) (read written : DLQEntry)
  | moveStatus (oldStatus : DLQStatus) (entry : DLQEntry)
  | zrevrange (index : Index)
  | zcard (index : Index)
  | clock
  | sendTask (taskName : String) (kwargs : Payload)

def Reply : Command → Type
  | .get _ => Option DLQEntry
  | .zrevrange _ => List String
  | .zcard _ => Nat
  | .clock => Int
  | .sendTask _ _ => String
  | _ => Unit

inductive DLQError where
  | notFound (entryId : String)
  | invalidTransition (message : String)
  deriving DecidableEq, Repr

abbrev DLQM (α : Type) : Type := Proc Command Reply DLQError α

/-- Redis, and the tasks that were dispatched. -/
structure Store where
  entries : String → Option DLQEntry
  index : Index → SortedSet String Int
  dispatched : List (String × Payload)

/-- `_score`: the seconds as a double, by their place among the doubles. -/
def score (moment : Int) : Int := (Binary64.ofRat (moment / 1000000)).rank

def Store.put (s : Store) (entry : DLQEntry) : Store :=
  { s with entries := Function.update s.entries entry.entryId (some entry) }

def Store.zadd (s : Store) (i : Index) (entry : DLQEntry) : Store :=
  { s with
    index := Function.update s.index i ((s.index i).zadd entry.entryId (score entry.lastFailedAt)) }

def Store.zrem (s : Store) (i : Index) (entryId : String) : Store :=
  { s with index := Function.update s.index i ((s.index i).zrem entryId) }

/-- The pipeline of `_persist_new`. -/
def Store.persistNew (s : Store) (entry : DLQEntry) : Store :=
  (((s.put entry).zadd .all entry).zadd (.category entry.category) entry).zadd (.status entry.status)
    entry

/-- The pipeline of `_move_status`. -/
def Store.moveStatus (s : Store) (oldStatus : DLQStatus) (entry : DLQEntry) : Store :=
  ((s.put entry).zrem (.status oldStatus) entry.entryId).zadd (.status entry.status) entry

/-- What a step does. The ids of new entries are new; the clock is the caller's own. -/
inductive Exec : (c : Command) → Store → Reply c → Store → Prop where
  | get {s : Store} (id : String) : Exec (.get id) s (s.entries id) s
  | persistNew {s : Store} (entry : DLQEntry) : s.entries entry.entryId = none →
      Exec (.persistNew entry) s () (s.persistNew entry)
  | set {s : Store} (id : String) (read written : DLQEntry) :
      Exec (.set id read written) s ()
        { s with entries := Function.update s.entries id (some written) }
  | moveStatus {s : Store} (old : DLQStatus) (entry : DLQEntry) :
      Exec (.moveStatus old entry) s () (s.moveStatus old entry)
  | zrevrange {s : Store} (i : Index) : Exec (.zrevrange i) s (s.index i).zrevrange s
  | zcard {s : Store} (i : Index) : Exec (.zcard i) s (s.index i).zcard s
  | clock {s : Store} (now : Int) : Exec .clock s now s
  | sendTask {s : Store} (name : String) (kwargs : Payload) (taskId : String) :
      Exec (.sendTask name kwargs) s taskId { s with dispatched := (name, kwargs) :: s.dispatched }

def command (c : Command) : DLQM (Reply c) := Proc.send c

/-! ### The operations -/

/-- What a failed item is sent with; the id is the `uuid4` of the new entry. -/
structure Failure where
  entryId : String
  category : FailureCategory
  taskName : String
  payload : Payload
  errorType : String
  errorMessage : String
  traceback : Option String
  originalTaskId : Option String
  attemptCount : Nat

def send (f : Failure) : DLQM DLQEntry := do
  let now : Int ← command .clock
  let entry : DLQEntry := {
    entryId := f.entryId
    category := f.category
    taskName := f.taskName
    originalTaskId := f.originalTaskId
    payload := f.payload
    errorType := f.errorType
    errorMessage := f.errorMessage
    traceback := f.traceback
    attemptCount := f.attemptCount
    firstFailedAt := now
    lastFailedAt := now
    status := .pending
    requeuedAt := none
    requeuedBy := none
    requeuedTaskId := none
    resolutionNotes := none
    resolvedBy := none
    resolvedAt := none }
  let _ ← command (.persistNew entry)
  return entry

def get (entryId : String) : DLQM DLQEntry := do
  match ← (command (.get entryId) : DLQM (Option DLQEntry)) with
  | none => throw (.notFound entryId)
  | some entry => return entry

/-- The loop of `list`. -/
def collect (keep : DLQEntry → Bool) (bound : Nat) : List String → List DLQEntry → DLQM (List DLQEntry)
  | [], entries => return entries
  | id :: ids, entries => do
    match ← (command (.get id) : DLQM (Option DLQEntry)) with
    | none => collect keep bound ids entries
    | some entry =>
      if keep entry then
        if bound ≤ (entries ++ [entry]).length then return entries ++ [entry]
        else collect keep bound ids (entries ++ [entry])
      else collect keep bound ids entries

def list (category : Option FailureCategory) (status : Option DLQStatus) (limit offset : Nat) :
    DLQM (List DLQEntry) := do
  let index : Index := match category, status with
    | some c, _ => .category c
    | none, some s => .status s
    | none, none => .all
  let keep (entry : DLQEntry) : Bool := match category, status with
    | some _, some s => entry.status = s
    | _, _ => true
  let ids : List String ← command (.zrevrange index)
  let entries ← collect keep (offset + limit) ids []
  return (entries.drop offset).take limit

def count (index : Index) : DLQM Nat := command (.zcard index)

def stats : DLQM DLQStats := do
  let total ← count .all
  let byCategory ← FailureCategory.all.mapM fun c => do
    let n ← count (.category c)
    return (c.value, n)
  let byStatus ← DLQStatus.all.mapM fun s => do
    let n ← count (.status s)
    return (s.value, n)
  return { total, byCategory, byStatus }

def updatePayload (entryId : String) (newPayload : Payload) : DLQM DLQEntry := do
  let entry ← get entryId
  if entry.status ≠ .pending ∧ entry.status ≠ .requeued then
    throw (.invalidTransition
      s!"Cannot edit entry '{entryId}' in terminal status '{entry.status.value}'.")
  else
    let edited := { entry with payload := newPayload }
    let _ ← command (.set entryId entry edited)
    return edited

def markRequeued (entryId requeuedBy requeuedTaskId : String) : DLQM DLQEntry := do
  let entry ← get entryId
  if entry.status ≠ .pending ∧ entry.status ≠ .requeued then
    throw (.invalidTransition
      s!"Cannot requeue entry '{entryId}' in terminal status '{entry.status.value}'.")
  else
    let now : Int ← command .clock
    let updated := { entry with
      status := .requeued
      requeuedAt := some now
      requeuedBy := some requeuedBy
      requeuedTaskId := some requeuedTaskId }
    let _ ← command (.moveStatus entry.status updated)
    return updated

def markResolved (entryId resolvedBy : String) (notes : Option String) : DLQM DLQEntry := do
  let entry ← get entryId
  let now : Int ← command .clock
  let updated := { entry with
    status := .resolved
    resolvedBy := some resolvedBy
    resolutionNotes := notes
    resolvedAt := some now }
  let _ ← command (.moveStatus entry.status updated)
  return updated

def discard (entryId discardedBy : String) (notes : Option String) : DLQM DLQEntry := do
  let entry ← get entryId
  if entry.status = .resolved ∨ entry.status = .discarded then
    throw (.invalidTransition s!"Entry '{entryId}' is already terminal ('{entry.status.value}').")
  else
    let now : Int ← command .clock
    let updated := { entry with
      status := .discarded
      resolvedBy := some discardedBy
      resolutionNotes := notes
      resolvedAt := some now }
    let _ ← command (.moveStatus entry.status updated)
    return updated

/-!
## The admin routes of the dead-letter queue

The routes of `app/api/dlq_routes.py` that change something, behind their role check.
-/

/-- How a route fails: an `HTTPException`, or an error that it does not catch. -/
inductive RouteError where
  | http (statusCode : Nat) (detail : String)
  | uncaught (e : DLQError)
  deriving DecidableEq, Repr

abbrev RouteM (α : Type) : Type := Proc Command Reply RouteError α

/-- `try` with the errors that the route turns into its own. -/
def handle {α : Type} (p : DLQM α) (f : DLQError → RouteError) : RouteM α :=
  ExceptT.mk do
    match ← p.run with
    | .ok a => return .ok a
    | .error e => return .error (f e)

/-- `except DLQEntryNotFoundError`. -/
def notFound (entryId : String) : DLQError → RouteError
  | .notFound _ => .http 404 s!"No DLQ entry '{entryId}'."
  | e => .uncaught e

/-- `except DLQInvalidTransitionError`. -/
def conflict : DLQError → RouteError
  | .invalidTransition message => .http 409 message
  | e => .uncaught e

/-- Both. -/
def notFoundOrConflict (entryId : String) : DLQError → RouteError
  | .notFound _ => .http 404 s!"No DLQ entry '{entryId}'."
  | .invalidTransition message => .http 409 message

structure DLQRequeueResponse where
  entry : DLQEntry
  dispatchedTaskId : String

def editDlqEntryPayload (entryId : String) (payload : Payload) : RouteM DLQEntry :=
  handle (updatePayload entryId payload) (notFoundOrConflict entryId)

def requeueDlqEntry (entryId subject : String) : RouteM DLQRequeueResponse := do
  let entry ← handle (get entryId) (notFound entryId)
  let taskId : String ← Proc.send (Command.sendTask entry.taskName entry.payload)
  let updated ← handle (markRequeued entryId subject taskId) conflict
  return { entry := updated, dispatchedTaskId := taskId }

def discardDlqEntry (entryId subject : String) (notes : Option String) : RouteM DLQEntry :=
  handle (discard entryId subject notes) (notFoundOrConflict entryId)

def resolveDlqEntry (entryId subject : String) (notes : Option String) : RouteM DLQEntry :=
  handle (markResolved entryId subject notes) (notFound entryId)

end RegEngine.Resilience
