import RegEngine.Hitl.Models
import RegEngine.Lib.Query
import RegEngine.Execution.HotReload
import RegEngine.Hitl.System

/-!
# The status of circulars

`get_circular_status` and `get_circular_statuses_batch` of `app/services/orchestrator.py`: the first
reads the rows of one circular, the second asks for all circulars of a page with grouped queries. A
row of `circulars` stands with its key. The columns of a circular's source are left out.
-/

namespace RegEngine.Hitl

open Lib

/-- The status shown for a circular. -/
inductive LegacyStatus where
  | deployed
  | approved
  | failed
  | reviewRequired
  | processing
  deriving DecidableEq, Repr

/-- The status of a circular by its state, by whether a review was rejected, and by its counts. -/
def legacyStatus (state : ProcessingState) (rejected : Bool)
    (pendingReviews activeRules resolvedReviews : Nat) : LegacyStatus :=
  if state = .deployed then .deployed
  else if state = .approved then .approved
  else if state = .failed ∨ rejected then .failed
  else if state = .awaitingHitl ∨ 0 < pendingReviews then .reviewRequired
  else if 0 < activeRules then .deployed
  else if 0 < resolvedReviews then .approved
  else .processing

structure CircularStatusResult where
  circularId : Nat
  circularNumber : String
  status : LegacyStatus
  processingState : ProcessingState
  sourceDocumentSha256 : Option String
  rawTextDigest : String
  clauseCount : Nat
  compiledRuleCount : Nat
  hitlReviewCount : Nat
  pendingReviews : Nat
  resolvedReviews : Nat
  activeRules : Nat
  errorMessage : Option String
  reviews : List (String × ReviewStatus × Severity)
  rules : List (String × Bool × HitlStatus)
  stateTransitions : List CircularStateTransition
  clauseStatusCounts : List (ClauseStatus × Nat)

/-- The clauses of a circular. -/
def Store.clausesOf (s : Store) (circularId : Nat) : List (Nat × Clause) :=
  s.clauses.select fun c => c.circularId = circularId

/-- `CompiledRule.clause_id IN (…)`. -/
def Store.rulesIn (s : Store) (clauseIds : List Nat) : List (Nat × CompiledRule) :=
  s.rules.select fun r => r.clauseId ∈ clauseIds

/-- `HITLReview.clause_id IN (…)`. -/
def Store.reviewsIn (s : Store) (clauseIds : List Nat) : List (Nat × HITLReview) :=
  s.reviews.select fun r => r.clauseId ∈ clauseIds

/-- `r.status in ("PENDING", "IN_REVIEW")`. -/
def isPending (r : Nat × HITLReview) : Bool := r.2.status = .pending ∨ r.2.status = .inReview

def isResolved (r : Nat × HITLReview) : Bool := r.2.status = .resolved

def isRejected (r : Nat × HITLReview) : Bool := r.2.status = .rejected

def getCircularStatus (s : Store) (circularId : Nat) : Option CircularStatusResult :=
  (s.circulars.get? circularId).map fun circular =>
    let clauses := s.clausesOf circularId
    let clauseIds := clauses.map (·.1)
    let rules := if clauseIds = [] then [] else s.rulesIn clauseIds
    let reviews := if clauseIds = [] then [] else s.reviewsIn clauseIds
    let pendingReviews := reviews.countP isPending
    let resolvedReviews := reviews.countP isResolved
    let activeRules := rules.countP fun r => r.2.isActive
    { circularId := circularId
      circularNumber := circular.circularNumber
      status := legacyStatus circular.processingState (reviews.any isRejected) pendingReviews
        activeRules resolvedReviews
      processingState := circular.processingState
      sourceDocumentSha256 := circular.sourceDocumentSha256
      rawTextDigest := circular.rawTextDigest
      clauseCount := clauses.length
      compiledRuleCount := rules.length
      hitlReviewCount := reviews.length
      pendingReviews := pendingReviews
      resolvedReviews := resolvedReviews
      activeRules := activeRules
      errorMessage := circular.errorMessage
      reviews := reviews.map fun r => (r.2.reviewId, r.2.status, r.2.severity)
      rules := rules.map fun r => (r.2.ruleId, r.2.isActive, r.2.hitlStatus)
      stateTransitions := s.transitions.filter fun t => t.circularId = circularId
      clauseStatusCounts := Query.groupBy (fun c => c.2.processingStatus) List.length clauses }

/-! ## Many circulars -/

structure CircularSummary where
  status : LegacyStatus
  clauseCount : Nat
  activeRules : Nat
  pendingReviews : Nat

/-- The active rules and all rules among joined rows. -/
def ruleCounts (rows : List ((Nat × Clause) × (Nat × CompiledRule))) : Nat × Nat :=
  (rows.countP fun x => x.2.2.isActive, rows.length)

/-- The pending, resolved and rejected reviews among joined rows. -/
def reviewCounts (rows : List ((Nat × Clause) × (Nat × HITLReview))) : Nat × Nat × Nat :=
  (rows.countP fun x => isPending x.2, rows.countP fun x => isResolved x.2,
    rows.countP fun x => isRejected x.2)

/-- `SELECT circular_id, … FROM clauses JOIN … ON clause_id = clauses.id WHERE circular_id IN (…) GROUP
BY circular_id`. -/
def groupedJoin {α γ : Type} (s : Store) (circularIds : List Nat) (rows : List (Nat × α))
    (clauseId : α → Nat) (counts : List ((Nat × Clause) × (Nat × α)) → γ) : List (Nat × γ) :=
  Query.groupBy (fun x => x.1.2.circularId) counts
    ((Query.join s.clauses.rows rows fun c r => clauseId r.2 = c.1).filter fun x =>
      x.1.2.circularId ∈ circularIds)

def getCircularStatusesBatch (s : Store) (circulars : List (Nat × Circular)) :
    List (Nat × CircularSummary) :=
  let circularIds := circulars.map (·.1)
  let clauseCounts := Query.groupBy (fun c => c.2.circularId) List.length
    (s.clauses.select fun c => c.circularId ∈ circularIds)
  let rules := groupedJoin s circularIds s.rules.rows (·.clauseId) ruleCounts
  let reviews := groupedJoin s circularIds s.reviews.rows (·.clauseId) reviewCounts
  circulars.map fun c =>
    let (activeRules, _) := (Query.dict rules c.1).getD (0, 0)
    let (pendingReviews, resolvedReviews, rejectedReviews) :=
      (Query.dict reviews c.1).getD (0, 0, 0)
    (c.1,
      { status := legacyStatus c.2.processingState (0 < rejectedReviews) pendingReviews activeRules
          resolvedReviews
        clauseCount := (Query.dict clauseCounts c.1).getD 0
        activeRules := activeRules
        pendingReviews := pendingReviews })

end RegEngine.Hitl

/-!
## The deployed policies

The store together with what executes its rules: the modules in OPA and the policy registry. After its
commit `approve_review` publishes a rule that it activated, and the event of the publication reaches
the subscriber before the next operation; the calls of OPA and Redis succeed. No other operation of
the review service or of the orchestrator calls the publisher.
-/

namespace RegEngine.Hitl

open Lib Lib.Python Compiler Execution

structure Deployment (T : Type) where
  store : Store
  /-- The modules in OPA, by their policy id. -/
  opa : String → Option String
  process : Process T

/-- `OPAEngine.publish_policy`: the module is put under its `rule_id`. -/
def publishPolicy (opa : String → Option String) (c : CompiledRego) : String → Option String :=
  fun id => if id = c.ruleId then some c.regoCode else opa id

namespace Deployment

variable {T : Type}

/-- `publish_approved` of a row, and what the subscriber does with its event. -/
def publish (P : PolicyPublisher) (d : Deployment T) (id : Nat) (rule : CompiledRule)
    (approvedBy : String) : Deployment T :=
  match d.process.publishApproved P id rule approvedBy none with
  | .ok (event, process) =>
    { d with
      opa := publishPolicy (publishPolicy d.opa (publishedRego rule)) event.compiled
      process := process.apply event }
  | .error _ => d

/-- The rule that a call activated and that has a Rego text, after the commit. -/
def activated (s s' : Store) (c : ReviewCall) : Option (Nat × CompiledRule) :=
  (c.activates s).bind fun k =>
    ((s'.rules.get? k).filter fun r => truthy r.regoPolicy).map fun r => (k, r)

def step (P : PolicyPublisher) (d : Deployment T) (op : Op) : Deployment T :=
  let after := { d with store := Hitl.step d.store op }
  match op with
  | .review c =>
    match activated d.store after.store c with
    | some (k, rule) => after.publish P k rule c.officer
    | none => after
  | .compileAndPersistRules .. | .persistFailedClauseRule .. => after

def run (P : PolicyPublisher) (d : Deployment T) (ops : List Op) : Deployment T :=
  ops.foldl (step P) d

end Deployment

/-- Nothing is served yet. -/
def undeployed (T : Type) (s : Store) : Deployment T where
  store := s
  opa _ := none
  process := ⟨.empty, ReadCache.empty⟩

end RegEngine.Hitl
