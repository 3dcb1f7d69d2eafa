import RegEngine.Compiler.Models
import RegEngine.Lib.Sha256
import RegEngine.Hitl.Models

/-!
# Persisting compiled and failed rules

`compile_and_persist_rules` and `_persist_failed_clause_rule` of `app/services/orchestrator.py`. The
result of `compile_audited_rule` and the random review ids are inputs. A broken unique or check
constraint raises, and the orchestrator then rolls back.
-/

namespace RegEngine.Hitl

open Lib Lib.Sha256 Compiler

structure HITLFlag where
  flagId : String
  reasonCode : ReasonCode
  severity : Severity
  description : String
  sourceExcerpt : Option String := none
  fieldPath : Option String := none

structure CompilationResult where
  compiled : Bool
  rego : Option CompiledRego := none
  jsonLogic : Option Json := none
  hitlFlags : List HITLFlag := []

def hasBlockingFlags (flags : List HITLFlag) : Bool := flags.any fun f => f.severity = .blocking

/-- `scalar_one_or_none` of the rules with a rule id and a clause. -/
def existingRule (s : Store) (ruleId : String) (clauseId : Nat) : Except Error (Option Nat) :=
  match s.rules.select fun r => r.ruleId = ruleId ∧ r.clauseId = clauseId with
  | [] => .ok none
  | [r] => .ok (some r.1)
  | _ => .error .multipleResultsFound

/-- `INSERT INTO compiled_rules`. -/
def insertRule (s : Store) (rule : CompiledRule) : Except Error (Nat × Store) :=
  if (s.rules.select fun r => r.ruleId = rule.ruleId ∧ r.tenantId = rule.tenantId ∧
      r.ruleVersion = rule.ruleVersion) ≠ [] then
    .error (.integrityError "uq_compiled_rules_rule_id_rule_version")
  else .ok (s.rules.next, { s with rules := s.rules.insert rule })

/-- `INSERT INTO hitl_reviews`. -/
def insertReview (s : Store) (review : HITLReview) : Except Error Store :=
  if review.reasonCode = .selfHealedRequiresReview then .error (.integrityError "reason_code")
  else if (s.reviews.select fun r => r.reviewId = review.reviewId) ≠ [] then
    .error (.integrityError "uq_hitl_reviews_review_id")
  else .ok { s with reviews := s.reviews.insert review }

/-- `clause.text[:200] if clause.text else None`. -/
def excerpt (text : String) : Option String :=
  if text = "" then none else some (String.ofList (text.toList.take 200))

/-! ## `_persist_failed_clause_rule` -/

/-- The id of the placeholder rule of a clause. -/
def failedRuleId (clauseId : Nat) (clause : Clause) (chunkId : String) : String :=
  let name := match clause.clauseNumber with
    | some n => n
    | none => ""
  "RULE-FAILED-" ++
    (if name ≠ "" then name else if chunkId ≠ "" then chunkId else toString clauseId)

/-- The rule is found and switched off, or inserted as an uncompiled placeholder. -/
def failedRule (s : Store) (clauseId : Nat) (clause : Clause) (chunkId tenantId : String) :
    Except Error (Nat × Store) := do
  let ruleId := failedRuleId clauseId clause chunkId
  match ← existingRule s ruleId clauseId with
  | some k =>
    pure (k, { s with rules := s.rules.update k fun r =>
      { r with isActive := false, isCompiled := false, hitlStatus := .blocking } })
  | none =>
    insertRule s {
      clauseId := clauseId
      tenantId := tenantId
      ruleId := ruleId
      regoPolicy := none
      opaPackageName := none
      jsonlogicAst := none
      isCompiled := false
      isActive := false
      hitlStatus := .blocking }

/-- `error` is the text of the extraction error, with its type. -/
def persistFailedClauseRule (s : Store) (clauseId : Nat) (clause : Clause) (chunkId : String)
    (error : Option String) (tenantId uuid : String) : Except Error (Nat × Store) := do
  let (k, s) ← failedRule s clauseId clause chunkId tenantId
  let description := "Automated clause extraction failed: " ++ error.getD "Extraction failed" ++
    ". Manual compliance review required."
  match s.reviews.select fun r => r.clauseId = clauseId ∧ r.compiledRuleId = some k ∧
      r.reasonCode = .auditNotApproved with
  | [] =>
    let s ← insertReview s {
      reviewId := uuid
      clauseId := clauseId
      compiledRuleId := some k
      tenantId := tenantId
      reasonCode := .auditNotApproved
      severity := .blocking
      description := description
      sourceExcerpt := excerpt clause.text
      fieldPath := some "deterministic_logic" }
    pure (k, s)
  | [r] =>
    pure (k, { s with reviews := s.reviews.update r.1 fun r => { r with description := description } })
  | _ => throw .multipleResultsFound

/-! ## `compile_and_persist_rules` -/

/-- `rule_id LIKE 'RULE-FAILED-%'`. -/
def isFailedRuleId (ruleId : String) : Bool := "RULE-FAILED-".toList.isPrefixOf ruleId.toList

/-- The placeholder rules of a clause removed; their reviews stay, unlinked. -/
def deleteFailedRules (s : Store) (clauseId : Nat) : Store :=
  let failed := s.rules.select fun r => r.clauseId = clauseId ∧ isFailedRuleId r.ruleId
  { s with
    rules := s.rules.delete fun r => r.clauseId = clauseId ∧ isFailedRuleId r.ruleId
    reviews := s.reviews.modify fun _ r =>
      if r.compiledRuleId ∈ failed.map (fun f => some f.1) then { r with compiledRuleId := none }
      else r }

def flagStatus (flags : List HITLFlag) : HitlStatus :=
  if hasBlockingFlags flags then .blocking else if flags ≠ [] then .advisory else .none

/-- The SHA-256 of the Rego text, where there is one. -/
def regoSha256 (compilation : CompilationResult) : Option String :=
  match compilation.rego with
  | some rego => if rego.regoCode = "" then none else some (hexdigest rego.regoCode)
  | none => none

/-- The rule is found and overwritten, or inserted; it is not active. -/
def compiledRule (s : Store) (clauseId : Nat) (ruleId tenantId : String)
    (compilation : CompilationResult) : Except Error (Nat × Store) := do
  match ← existingRule s ruleId clauseId with
  | some k =>
    pure (k, { s with rules := s.rules.update k fun r =>
      { r with
        regoPolicy := compilation.rego.map (·.regoCode)
        opaPackageName := compilation.rego.map (·.package)
        jsonlogicAst := compilation.jsonLogic
        isCompiled := compilation.compiled
        isActive := false
        hitlStatus := flagStatus compilation.hitlFlags
        policySha256 := regoSha256 compilation } })
  | none =>
    insertRule s {
      clauseId := clauseId
      tenantId := tenantId
      ruleId := ruleId
      regoPolicy := compilation.rego.map (·.regoCode)
      opaPackageName := compilation.rego.map (·.package)
      jsonlogicAst := compilation.jsonLogic
      isCompiled := compilation.compiled
      isActive := false
      hitlStatus := flagStatus compilation.hitlFlags
      policySha256 := regoSha256 compilation }

/-- One review for each flag whose reason has none yet; `uuids` are the ids of flags without one. -/
def flagReviews (clauseId k : Nat) (tenantId : String) :
    List HITLFlag → List String → Store → List ReasonCode → Except Error Store
  | [], _, s, _ => .ok s
  | flag :: flags, uuids, s, reasons =>
    if flag.reasonCode ∈ reasons then flagReviews clauseId k tenantId flags uuids s reasons
    else do
      let s ← insertReview s {
        reviewId := if flag.flagId ≠ "" then flag.flagId else uuids.headD ""
        clauseId := clauseId
        compiledRuleId := some k
        tenantId := tenantId
        reasonCode := flag.reasonCode
        severity := flag.severity
        description := flag.description
        sourceExcerpt := flag.sourceExcerpt
        fieldPath := flag.fieldPath }
      flagReviews clauseId k tenantId flags (if flag.flagId ≠ "" then uuids else uuids.tail) s
        (reasons ++ [flag.reasonCode])

/-- The sign-off review of a rule without flags and without reviews. -/
def signOffReview (clauseId k : Nat) (clause : Clause) (ruleId tenantId uuid : String) : HITLReview where
  reviewId := uuid
  clauseId := clauseId
  compiledRuleId := some k
  tenantId := tenantId
  reasonCode := .lowExtractionConfidence
  severity := .blocking
  description := "Initial compliance sign-off required for compiled rule " ++ ruleId
  sourceExcerpt := excerpt clause.text
  fieldPath := some "deterministic_logic"

/-- The `hitl_status` of a rule by its flags and reviews. -/
def finalStatus (flags : List HITLFlag) (reviews : List HITLReview) : HitlStatus :=
  if hasBlockingFlags flags ∨ reviews.any (fun r => r.severity = .blocking ∧ r.status ≠ .resolved) then
    .blocking
  else if flags ≠ [] ∨ reviews.any (fun r => r.severity = .advisory ∧ r.status ≠ .resolved) then
    .advisory
  else if reviews.any (fun r => r.status = .resolved) then .resolved
  else .none

/-- The reviews of the compiled rule `k`: those of its flags, or the sign-off. -/
def addReviews (s : Store) (clauseId k : Nat) (clause : Clause) (ruleId tenantId : String)
    (compilation : CompilationResult) (uuids : List String) : Except Error Store :=
  let existing := (s.reviewsOf k).map (·.2)
  if compilation.hitlFlags ≠ [] then
    flagReviews clauseId k tenantId compilation.hitlFlags uuids s (existing.map (·.reasonCode))
  else if existing = [] then
    insertReview s (signOffReview clauseId k clause ruleId tenantId (uuids.headD ""))
  else .ok s

def compileAndPersistRules (s : Store) (clauseId : Nat) (clause : Clause) (ruleId tenantId : String)
    (compilation : CompilationResult) (uuids : List String) : Except Error (Nat × Store) := do
  let (k, s) ← compiledRule (deleteFailedRules s clauseId) clauseId ruleId tenantId compilation
  let s ← addReviews s clauseId k clause ruleId tenantId compilation uuids
  let status := finalStatus compilation.hitlFlags ((s.reviewsOf k).map (·.2))
  pure (k, { s with rules := s.rules.update k fun r => { r with hitlStatus := status } })

end RegEngine.Hitl
