import RegEngine.Hitl.Orchestrator
import RegEngine.Hitl.Service

/-!
# Runs of the review system

The operations on the store as one step function: an operation that raises leaves the store as it
was. `run` is any sequence of whole operations.
-/

namespace RegEngine.Hitl

open Lib Lib.Calendar

/-- What an officer does with a review. -/
inductive Verdict where
  | approve
  | reject
  | requestRevision
  deriving DecidableEq

/-- One call of the review service. -/
structure ReviewCall where
  verdict : Verdict
  reviewId : String
  officer : String
  notes : Option String
  now : DateTime

/-- The store after a call, or what it raises. -/
def ReviewCall.result (c : ReviewCall) (s : Store) : Except Error Store :=
  match c.verdict with
  | .approve => (approveReview s c.reviewId c.officer c.notes c.now).map (·.store)
  | .reject => rejectReview s c.reviewId c.officer c.notes c.now
  | .requestRevision => requestRevision s c.reviewId c.officer c.notes c.now

/-- The operations of the system. -/
inductive Op where
  | review (call : ReviewCall)
  | compileAndPersistRules (clauseId : Nat) (ruleId tenantId : String)
      (compilation : CompilationResult) (uuids : List String)
  | persistFailedClauseRule (clauseId : Nat) (chunkId : String) (error : Option String)
      (tenantId uuid : String)

/-- The store after an operation, or what it raises; the two pipeline operations act on a clause of
the store. -/
def Op.result (s : Store) : Op → Except Error Store
  | .review c => c.result s
  | .compileAndPersistRules clauseId ruleId tenantId compilation uuids =>
    match s.clauses.get? clauseId with
    | some clause =>
      (Hitl.compileAndPersistRules s clauseId clause ruleId tenantId compilation uuids).map (·.2)
    | none => .error (.integrityError "compiled_rules_clause_id_fkey")
  | .persistFailedClauseRule clauseId chunkId error tenantId uuid =>
    match s.clauses.get? clauseId with
    | some clause =>
      (Hitl.persistFailedClauseRule s clauseId clause chunkId error tenantId uuid).map (·.2)
    | none => .error (.integrityError "compiled_rules_clause_id_fkey")

/-- The store after the commit or the rollback of `x`. -/
def commit (s : Store) (x : Except Error Store) : Store :=
  match x with
  | .ok s' => s'
  | .error _ => s

def step (s : Store) (op : Op) : Store := commit s (op.result s)

def run (s : Store) (ops : List Op) : Store := ops.foldl step s

def reviewRun (s : Store) (calls : List ReviewCall) : Store :=
  calls.foldl (fun s c => commit s (c.result s)) s

/-- The rule that a call activates: `rule_activated` is `True` in what `approve_review` returns. -/
def ReviewCall.activates (c : ReviewCall) (s : Store) : Option Nat :=
  match c.verdict with
  | .approve =>
    match approveReview s c.reviewId c.officer c.notes c.now with
    | .ok a => if a.ruleActivated then a.compiledRule else none
    | .error _ => none
  | .reject | .requestRevision => none

/-! ## A circular with two clauses -/

def sampleFlag (flagId : String) (reasonCode : ReasonCode) : HITLFlag where
  flagId := flagId
  reasonCode := reasonCode
  severity := .advisory
  description := "needs a second look"

def sampleCompilation (flags : List HITLFlag) : CompilationResult where
  compiled := true
  rego := some
    { ruleId := "RULE-1"
      package := "sebi.broking.clause"
      regoCode := "package sebi.broking.clause"
      thresholdsCompiled := 1 }
  jsonLogic := none
  hitlFlags := flags

/-- A digest of the right length. -/
def sampleDigest (c : Char) : String := String.ofList (List.replicate 64 c)

def sampleCircular (processingState : ProcessingState) : Circular where
  circularNumber := "SEBI/HO/1"
  rawTextDigest := sampleDigest 'e'
  processingState := processingState

def sampleClause (number : String) (digest : Char) : Clause where
  circularId := 1
  clauseNumber := some number
  text := "Every stock broker shall collect the margin."
  sha256 := sampleDigest digest

/-- A circular under review and its two clauses, before the pipeline compiled them. -/
def sampleClauses : Store where
  circulars := Table.empty.insert (sampleCircular .awaitingHitl)
  clauses := (Table.empty.insert (sampleClause "1" 'a')).insert (sampleClause "2" 'b')
  rules := Table.empty
  reviews := Table.empty
  transitions := []

def sampleCall (verdict : Verdict) (reviewId : String) : ReviewCall where
  verdict := verdict
  reviewId := reviewId
  officer := "officer"
  notes := none
  now := DateTime.ofInstant (738885 * dayMicros) (by decide)

end RegEngine.Hitl
