import RegEngine.Execution.Evaluator
import RegEngine.Governance.KillSwitch
import RegEngine.Lib.CheckedCopy

/-!
# The channels of the evaluator

`app/execution/dependencies.py`, `app/execution/tasks.py` and the route of
`app/api/execution_routes.py`: how the synchronous API, the batch task and the CDC task build an
evaluator and what they evaluate with it. Webhooks, the batch record and the ledger are left out.
-/

namespace RegEngine.Execution

open Lib Lib.Calendar Lib.Python Governance

/-- What the entry points of one deployment share. -/
structure Services where
  opa : String → Json → OPAReply
  policyRegistry : String → List PolicyEntry
  policyCache : String → List PolicyEntry
  hitlQueue : TransactionPayload → String → List PolicyOutcome → CaseId
  killSwitchStore : KillSwitchStore
  utcnow : DateTime

/-- The evaluator of the API. -/
def getEvaluator (services : Services) : Evaluator where
  opa := services.opa
  policiesFor := services.policyCache
  enqueue := services.hitlQueue
  killSwitch := some services.killSwitchStore.isActiveFor
  utcnow := services.utcnow

/-- `_build_evaluator`: that of the tasks, without a kill switch. -/
def buildEvaluator (services : Services) : Evaluator where
  opa := services.opa
  policiesFor := services.policyRegistry
  enqueue := services.hitlQueue
  killSwitch := none
  utcnow := services.utcnow

/-- The packages and documents that an evaluation sends to OPA. -/
def Evaluator.opaRequests (E : Evaluator) (tx : TransactionPayload) : List (String × Json) :=
  if E.halted tx then []
  else (E.policiesFor tx.entityType).map fun entry => (entry.package, inputDoc tx)

/-! ## What arrives -/

structure Principal where
  isAdmin : Bool
  tenantId : Option String

inductive CDCOperation where
  | insert
  | update
  | delete
  | snapshot
  deriving DecidableEq

structure CDCEvent where
  operation : CDCOperation
  after : Option (List (String × Json)) := none

/-- `str` of a value. -/
def str (v : Json) : String :=
  match v with
  | .str s => s
  | _ => v.pyRepr

/-- `_cdc_row_to_transaction`; none where the payload is not valid: the entity type and the broker have
to be texts. -/
def cdcRowToTransaction (event : CDCEvent) : Option TransactionPayload :=
  let row := Json.obj (event.after.getD [])
  let facts := (event.after.getD []).filter fun f =>
    f.1 ∉ ["transaction_id", "entity_type", "broker_id"]
  let transactionId := str ((row.get? "transaction_id").getD ((row.get? "id").getD (.str "")))
  match (row.get? "entity_type").getD (.str "Stockbroker"), row.get? "broker_id" with
  | .str entityType, none | .str entityType, some .null =>
    some ⟨transactionId, entityType, facts, none⟩
  | .str entityType, some (.str brokerId) => some ⟨transactionId, entityType, facts, some brokerId⟩
  | _, _ => none

/-- What comes in on one channel. -/
inductive Arrival where
  | api (principal : Principal) (transaction : TransactionPayload)
  | batch (transactions : List TransactionPayload)
  | cdc (event : CDCEvent)

/-- The transactions that the channel is given to evaluate. -/
def Arrival.transactions : Arrival → List TransactionPayload
  | api _ transaction => [transaction]
  | batch transactions => transactions
  | cdc event => if event.operation = .delete then [] else (cdcRowToTransaction event).toList

/-! ## What is evaluated -/

/-- One evaluation: its transaction, what it sent to OPA, and its result. -/
structure Evaluation where
  transaction : TransactionPayload
  opaRequests : List (String × Json)
  result : EvaluationResult

def Evaluator.evaluation (E : Evaluator) (tx : TransactionPayload) : Evaluation :=
  ⟨tx, E.opaRequests tx, E.evaluateTransaction tx⟩

/-- The route of the API: a broker's token is for its own transactions. -/
def apiEvaluate (services : Services) (principal : Principal) (tx : TransactionPayload) :
    List Evaluation :=
  if ¬ principal.isAdmin ∧ truthy tx.brokerId ∧ tx.brokerId ≠ principal.tenantId then []
  else [(getEvaluator services).evaluation tx]

/-- `process_batch_task`. -/
def processBatchTask (services : Services) (transactions : List TransactionPayload) :
    List Evaluation :=
  transactions.map (buildEvaluator services).evaluation

/-- `process_cdc_event_task`: a deletion is not evaluated. -/
def processCdcEventTask (services : Services) (event : CDCEvent) : List Evaluation :=
  if event.operation = .delete then []
  else
    match cdcRowToTransaction event with
    | some tx => [(buildEvaluator services).evaluation tx]
    | none => []

def Arrival.evaluations (services : Services) : Arrival → List Evaluation
  | api principal transaction => apiEvaluate services principal transaction
  | batch transactions => processBatchTask services transactions
  | cdc event => processCdcEventTask services event

end RegEngine.Execution

/-!
## `HITLQueue`

`app/execution/hitl_queue.py`, with the resolve route of `app/api/execution_routes.py`: the cases of
held transactions in Redis, one key each, and the set of the pending ones. `resolve` is given as one
call and, for calls that run at the same time, by its commands.
-/

namespace RegEngine.Execution

open Lib Lib.Calendar

inductive HITLStatus where
  | pending
  | approved
  | rejected
  deriving DecidableEq, Repr

def HITLStatus.value : HITLStatus → String
  | pending => "pending"
  | approved => "approved"
  | rejected => "rejected"

structure HITLCase where
  caseId : String
  transaction : TransactionPayload
  reason : String
  matchedPolicies : List PolicyOutcome := []
  status : HITLStatus := .pending
  createdAt : DateTime
  resolvedAt : Option DateTime := none
  resolvedBy : Option String := none
  resolutionNotes : Option String := none

/-- The keys of the cases and the set of the pending ones. -/
structure HITLQueue where
  cases : String → Option HITLCase := fun _ => none
  pending : String → Bool := fun _ => false

inductive ResolveError where
  | keyError (message : String)
  | valueError (message : String)
  deriving DecidableEq

/-- The status of a resolution, as the route gives it: it refuses to flag a case again. -/
def statusMap : Decision → Option HITLStatus
  | .allow => some .approved
  | .deny => some .rejected
  | .flagged => none

/-- The arguments of a call that the route makes. -/
structure ResolveCall where
  decision : Decision
  status : HITLStatus
  mapped : statusMap decision = some status
  resolvedBy : String
  notes : Option String
  now : DateTime

/-- The case that the call stores, made from its copy. -/
def ResolveCall.resolved (call : ResolveCall) (case : HITLCase) : HITLCase :=
  { case with
    status := call.status
    resolvedBy := some call.resolvedBy
    resolutionNotes := call.notes
    resolvedAt := some call.now }

namespace HITLQueue

def enqueue (queue : HITLQueue) (case : HITLCase) : HITLQueue where
  cases := Function.update queue.cases case.caseId (some case)
  pending := Function.update queue.pending case.caseId true

/-- A call that nobody interrupts. -/
def resolve (queue : HITLQueue) (caseId : String) (call : ResolveCall) :
    Except ResolveError (HITLCase × HITLQueue) :=
  match queue.cases caseId with
  | none => .error (.keyError ("No HITL case with id '" ++ caseId ++ "'"))
  | some case =>
    if case.status ≠ .pending then
      .error (.valueError ("HITL case '" ++ caseId ++ "' was already resolved as '" ++
        case.status.value ++ "'"))
    else
      .ok (call.resolved case,
        { cases := Function.update queue.cases caseId (some (call.resolved case))
          pending := Function.update queue.pending caseId false })

end HITLQueue

/-- The commands of these calls on one case: a `GET` and its check, and a `SET` of the copy that was
read. Nothing is locked or watched in between. -/
def resolveCalls {ι : Type} (calls : ι → ResolveCall) :
    CheckedCopy.Protocol ι Empty Empty HITLCase where
  Ready copy := copy.status = .pending
  scope _ _ := none
  row _ := none
  write i _ copy := (calls i).resolved copy

end RegEngine.Execution
