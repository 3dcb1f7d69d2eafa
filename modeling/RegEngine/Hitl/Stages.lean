import RegEngine.Hitl.Ingestion
import RegEngine.Hitl.Pipeline
import RegEngine.Hitl.Status
import RegEngine.Hitl.System

/-!
# Processing a circular

`_execute_processing_stages`, `process_circular_pdf` and `resume_circular` of
`app/services/orchestrator.py`. What the extraction gives for a chunk, the drawn ids, the time and the
texts of exceptions come from outside. A clause is named by its key. Each stage ends with a commit: an
exception rolls the last stage back and sets the circular to `FAILED`.
-/

namespace RegEngine.Hitl

open Lib Lib.Python Lib.Calendar Parsing

/-- What an extraction raises: the name of the exception's type, and its text. -/
structure ExtractionError where
  typeName : String
  message : String

/-- What `extract_and_audit` gives for a chunk. -/
abbrev Extraction := Except ExtractionError AuditedComplianceRule

inductive StageError where
  | raised (e : Error)
  | compilation (e : PipelineError)
  | valueError (message : String)

/-- What one execution reads from outside; the ids are those of the clauses in the order in which they
are compiled. -/
structure Outside where
  extract : ClauseChunk → Extraction
  now : DateTime
  flagIds : Nat → Nat → String
  reviewIds : Nat → String
  text : StageError → String

/-! ## `transition_circular_state` -/

/-- The state of a circular changes, and the transition is recorded. -/
def transitionCircularState (s : Store) (circularId : Nat) (toState : ProcessingState)
    (errorMessage : Option String) (details : Json) : Store :=
  match s.circulars.get? circularId with
  | none => s
  | some circular =>
    { s with
      circulars := s.circulars.update circularId fun c =>
        { c with
          processingState := toState
          errorMessage :=
            if errorMessage ≠ none then errorMessage
            else if toState ≠ .failed then none else c.errorMessage }
      transitions := s.transitions ++ [{
        circularId := circularId
        fromState := circular.processingState
        toState := toState
        triggeredBy := "orchestrator"
        errorMessage := errorMessage
        details := details }] }

/-- The status of a clause, with its error message where one is written. -/
def setClauseStatus (s : Store) (k : Nat) (status : ClauseStatus)
    (errorMessage : Option (Option String)) : Store :=
  { s with clauses := s.clauses.update k fun c =>
      { c with processingStatus := status, errorMessage := errorMessage.getD c.errorMessage } }

/-! ## `_build_process_result` -/

structure ProcessE2EResult where
  circularId : Nat
  circularNumber : String
  sourceDocumentSha256 : String
  extractedTextSha256 : String
  documentHash : String
  clauseCount : Nat
  rulesCompiled : Nat
  reviewCount : Nat
  status : LegacyStatus
  processingState : ProcessingState
  reviews : List String
  compiledRuleIds : List String

/-- A rule that is compiled and no placeholder. -/
def isCompiledRule (r : CompiledRule) : Bool := r.isCompiled && !isFailedRuleId r.ruleId

def buildProcessResult (s : Store) (circularId : Nat) (circular : Circular) (clauseIds : List Nat) :
    ProcessE2EResult :=
  let rules := s.rulesIn clauseIds
  let reviews := s.reviewsIn clauseIds
  { circularId := circularId
    circularNumber := circular.circularNumber
    sourceDocumentSha256 := orText circular.sourceDocumentSha256 ""
    extractedTextSha256 := circular.rawTextDigest
    documentHash := orText circular.sourceDocumentSha256 circular.rawTextDigest
    clauseCount := clauseIds.length
    rulesCompiled := rules.countP fun r => isCompiledRule r.2
    reviewCount := reviews.length
    status :=
      if circular.processingState = .deployed then .deployed
      else if circular.processingState = .failed then .failed
      else if reviews ≠ [] then .reviewRequired else .approved
    processingState := circular.processingState
    reviews := reviews.map (·.2.reviewId)
    compiledRuleIds := rules.map (·.2.ruleId) }

/-! ## `_execute_processing_stages` -/

/-- The clauses that have a compiled rule already. -/
def completedClauseIds (s : Store) (clauseIds : List Nat) : List Nat :=
  clauseIds.filter fun k => (s.rulesIn clauseIds).any fun r => r.2.clauseId = k ∧ isCompiledRule r.2

/-- The chunks whose clause is not completed, with its key. -/
def toExtract (clauseIds completed : List Nat) (chunks : List ClauseChunk) :
    List (ClauseChunk × Option Nat) :=
  (chunks.zipIdx.map fun c => (c.1, clauseIds[c.2]?)).filter fun c => c.2.all fun k => k ∉ completed

/-- The first clause to extract that has the number or the digest of the chunk. -/
def clauseOfChunk (s : Store) (clauseIds : List Nat) (chunk : ClauseChunk) : Option Nat :=
  clauseIds.find? fun k => (s.clauses.get? k).any fun c =>
    c.clauseNumber = chunk.clauseNumber ∨ c.sha256 = chunk.sha256

/-- The status of a clause after its extraction. -/
def extracted (clauseIds : List Nat) (s : Store) (result : ClauseChunk × Extraction) : Store :=
  match clauseOfChunk s clauseIds result.1, result.2 with
  | some k, .error e => setClauseStatus s k .failed (some (some e.message))
  | some k, .ok _ => setClauseStatus s k .extracted (some none)
  | none, _ => s

/-- The result for a clause: that of its digest, else that of its number. -/
def extractionOf (results : List (ClauseChunk × Extraction)) (clause : Clause) : Extraction :=
  let byDigest := Query.dict (results.map fun r => (r.1.sha256, r.2)) clause.sha256
  let byNumber := Query.dict ((results.filter fun r => truthy r.1.clauseNumber).map fun r =>
    (r.1.clauseNumber, r.2)) clause.clauseNumber
  (byDigest.or byNumber).getD (.error ⟨"RuntimeError", "Missing extraction result"⟩)

/-- The id of the chunk of a clause, or one made of its key. -/
def chunkIdOf (chunks : List ClauseChunk) (k : Nat) (clause : Clause) : String :=
  match chunks.find? fun c => c.sha256 = clause.sha256 ∨ c.clauseNumber = clause.clauseNumber with
  | some c => c.chunkId
  | none => "chk-" ++ toString k

/-- One clause, the `i`-th that is compiled: its rule, or the placeholder of its failure. -/
def compileClause (o : Outside) (tenantId : String) (chunks : List ClauseChunk)
    (results : List (ClauseChunk × Extraction)) (i : Nat) (s : Store) (k : Nat) :
    Except StageError Store := do
  match s.clauses.get? k with
  | none => throw (.raised (.integrityError "compiled_rules_clause_id_fkey"))
  | some clause =>
    match extractionOf results clause with
    | .error e =>
      let s ← ((Op.persistFailedClauseRule k (chunkIdOf chunks k clause)
        (some (e.typeName ++ ": " ++ e.message)) tenantId (o.reviewIds i)).result s).mapError .raised
      pure (setClauseStatus s k .failed (some (some e.message)))
    | .ok audited =>
      let compilation ← (compileAuditedRule audited 1 o.now (o.flagIds i)).mapError .compilation
      let s ← ((Op.compileAndPersistRules k audited.rule.ruleId tenantId compilation
        [o.reviewIds i]).result s).mapError .raised
      pure (setClauseStatus s k .compiled (some none))

/-- The loop over the clauses; those that are completed are kept as they are. -/
def compileClauses (o : Outside) (tenantId : String) (chunks : List ClauseChunk)
    (results : List (ClauseChunk × Extraction)) (completed : List Nat) :
    Nat → Store → List Nat → Except StageError Store
  | _, s, [] => .ok s
  | i, s, k :: ks =>
    if k ∈ completed then compileClauses o tenantId chunks results completed i s ks
    else do
      let s ← compileClause o tenantId chunks results i s k
      compileClauses o tenantId chunks results completed (i + 1) s ks

/-- `pending_or_blocking`. -/
def pendingOrBlocking (s : Store) (clauseIds : List Nat) : List (Nat × HITLReview) :=
  (s.reviewsIn clauseIds).filter fun r => isPending r ∨ r.2.severity = .blocking

/-- The last stage: the final state of the circular, by the reviews of its clauses. -/
def settleStages (s : Store) (circularId : Nat) (clauseIds : List Nat) : Store :=
  let unsettled := pendingOrBlocking s clauseIds
  transitionCircularState s circularId (if unsettled ≠ [] then .awaitingHitl else .approved) none
    (.obj [("total_clauses", .int clauseIds.length),
      ("compiled_rules", .int ((s.rulesIn clauseIds).countP fun r => r.2.isCompiled)),
      ("pending_reviews", .int unsettled.length)])

/-- What one execution works on. -/
structure StageCall where
  circularId : Nat
  clauseIds : List Nat
  chunks : List ClauseChunk
  tenantId : String
  outside : Outside

namespace StageCall

variable (c : StageCall) (s : Store)

def completed : List Nat := completedClauseIds s c.clauseIds

/-- The results of the extraction. -/
def results : List (ClauseChunk × Extraction) :=
  (toExtract c.clauseIds (c.completed s) c.chunks).map fun x => (x.1, c.outside.extract x.1)

/-- The store after the stage of the extraction, with `COMPILING` committed. -/
def extractionStage : Store :=
  let pending := toExtract c.clauseIds (c.completed s) c.chunks
  let keys := pending.filterMap (·.2)
  let marked := (c.completed s).foldl (fun s k => setClauseStatus s k .compiled none) s
  let started := keys.foldl (fun s k => setClauseStatus s k .extracting none) marked
  let extracting := transitionCircularState started c.circularId .extracting none
    (.obj [("total_clauses", .int c.clauseIds.length),
      ("extracting_clauses", .int pending.length),
      ("already_compiled", .int (c.completed s).dedup.length)])
  let done := (c.results s).foldl (extracted keys) extracting
  let finished := transitionCircularState done c.circularId .extracted none
    (.obj [("extracted_count", .int (c.results s).length)])
  transitionCircularState finished c.circularId .compiling none .null

/-- `str(exc)[:4000]`. -/
def errorText (e : StageError) : String := String.ofList ((c.outside.text e).toList.take 4000)

/-- The store after the execution, and what it raises. -/
def execute : Store × Except StageError Unit :=
  let compiling := c.extractionStage s
  match compileClauses c.outside c.tenantId c.chunks (c.results s) (c.completed s) 0 compiling
      c.clauseIds with
  | .ok s' => (settleStages s' c.circularId c.clauseIds, .ok ())
  | .error e =>
    (transitionCircularState compiling c.circularId .failed (some (c.errorText e)) .null, .error e)

/-- `_execute_processing_stages`. -/
def executeProcessingStages : Store × Except StageError (Option ProcessE2EResult) :=
  let (s', outcome) := c.execute s
  (s', outcome.map fun _ => (s'.circulars.get? c.circularId).map fun circular =>
    buildProcessResult s' c.circularId circular c.clauseIds)

end StageCall

/-! ## `process_circular_pdf` -/

/-- What a call returns, if it does not raise, beside the store. -/
abbrev Processed := Store × Except StageError (Option ProcessE2EResult)

/-- After a rollback a circular that is still there becomes `FAILED`. -/
def failCircularOnce (s : Store) (circularId : Nat) (message : String) : Store :=
  match s.circulars.get? circularId with
  | some circular =>
    if circular.processingState ≠ .failed then
      transitionCircularState s circularId .failed (some message) .null
    else s
  | none => s

/-- The store at the end of stage 1: a circular that is new, or failed before, is `INGESTED`. -/
def ingested (s : Store) (circularId : Nat) (circular : Circular) (clauseIds : List Nat) : Store :=
  if circular.processingState = .ingested ∨ circular.processingState = .failed then
    transitionCircularState s circularId .ingested none
      (.obj [("clause_count", .int clauseIds.length)])
  else s

/-- The call with which the stages of a document are executed. -/
def stageCallOf (circularId : Nat) (clauseIds : List Nat) (parsed : ParseResult) (tenantId : String)
    (o : Outside) : StageCall where
  circularId := circularId
  clauseIds := clauseIds
  chunks := parsed.chunks
  tenantId := tenantId
  outside := o

/-- `process_circular_pdf`, given what its file is parsed to. -/
def processCircularPdf (nfkc : String → String) (decode : List UInt8 → String) (s : Store)
    (parsed : ParseResult) (fileBytes : List UInt8) (tenantId : String) (o : Outside) : Processed :=
  match persistCircular nfkc decode s parsed fileBytes with
  | .error e => (s, .error (.raised e))
  | .ok (circularId, s₁) =>
    match persistClauses circularId s₁ parsed.chunks with
    | .error e =>
      (failCircularOnce s circularId (String.ofList ((o.text (.raised e)).toList.take 4000)),
        .error (.raised e))
    | .ok (clauseIds, s₂) =>
      match s₂.circulars.get? circularId with
      | none => (s₂, .ok none)
      | some circular =>
        if circular.processingState = .deployed then
          (s₂, .ok (some (buildProcessResult s₂ circularId circular clauseIds)))
        else
          (stageCallOf circularId clauseIds parsed tenantId o).executeProcessingStages
            (ingested s₂ circularId circular clauseIds)

/-! ## `resume_circular` -/

/-- `f"{k:03d}"`. -/
def pad3 (k : Nat) : String :=
  (if k < 10 then "00" else if k < 100 then "0" else "") ++ toString k

/-- The chunk of a stored clause. -/
def chunkOfClause (c : Nat × Clause) : ClauseChunk where
  chunkId := "chk-" ++ pad3 c.1
  sha256 := c.2.sha256
  text := c.2.text
  clauseNumber := c.2.clauseNumber

def resumeCircular (s : Store) (circularId : Nat) (tenantId : String) (o : Outside) : Processed :=
  match s.circulars.get? circularId with
  | none => (s, .error (.valueError ("Circular with id " ++ toString circularId ++ " not found")))
  | some _ =>
    let clauses := (s.clausesOf circularId).insertionSort fun a b => a.1 ≤ b.1
    if clauses = [] then
      (s, .error (.valueError
        ("Circular " ++ toString circularId ++ " has no persisted clauses to resume")))
    else
      { circularId := circularId
        clauseIds := clauses.map (·.1)
        chunks := clauses.map chunkOfClause
        tenantId := tenantId
        outside := o : StageCall }.executeProcessingStages s

/-! ## Runs of the whole system -/

/-- A document is processed, a circular is resumed, or an officer decides a review. -/
inductive Event where
  | process (parsed : ParseResult) (fileBytes : List UInt8) (tenantId : String) (o : Outside)
  | resume (circularId : Nat) (tenantId : String) (o : Outside)
  | review (call : ReviewCall)

section
variable (nfkc : String → String) (decode : List UInt8 → String)

/-- The store after an event, whether it raises or not. -/
def Event.step (s : Store) : Event → Store
  | .process parsed fileBytes tenantId o =>
    (processCircularPdf nfkc decode s parsed fileBytes tenantId o).1
  | .resume circularId tenantId o => (resumeCircular s circularId tenantId o).1
  | .review call => commit s (call.result s)

def eventRun (s : Store) (events : List Event) : Store := events.foldl (Event.step nfkc decode) s

/-- The execution of the stages that an event comes to, and the store it starts from. -/
def Event.stages (s : Store) : Event → Option (StageCall × Store)
  | .process parsed fileBytes tenantId o =>
    match persistCircular nfkc decode s parsed fileBytes with
    | .error _ => none
    | .ok (circularId, s₁) =>
      match persistClauses circularId s₁ parsed.chunks with
      | .error _ => none
      | .ok (clauseIds, s₂) =>
        (s₂.circulars.get? circularId).bind fun circular =>
          if circular.processingState = .deployed then none
          else some (stageCallOf circularId clauseIds parsed tenantId o,
            ingested s₂ circularId circular clauseIds)
  | .resume circularId tenantId o =>
    let clauses := (s.clausesOf circularId).insertionSort fun a b => a.1 ≤ b.1
    if s.circulars.get? circularId = none ∨ clauses = [] then none
    else some (
      { circularId := circularId
        clauseIds := clauses.map (·.1)
        chunks := clauses.map chunkOfClause
        tenantId := tenantId
        outside := o }, s)
  | .review _ => none

end

end RegEngine.Hitl
