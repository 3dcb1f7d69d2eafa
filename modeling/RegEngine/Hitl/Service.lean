import RegEngine.Lib.Python
import RegEngine.Lib.Sha256
import RegEngine.Hitl.Models

/-!
# `HITLReviewService`

`app/services/hitl_service.py`: the gate over the reviews of a rule, and the three operations on a
pending review. An operation that raises leaves the store as it was. Publishing to OPA and the
case-law index, which run after the commit and change no table, are left out.
-/

namespace RegEngine.Hitl

open Lib Lib.Calendar Lib.Python Lib.Sha256

/-- `evaluate_rule_hitl_gate`: whether the rule may be active, its `hitl_status`, and why not. -/
def evaluateRuleHitlGate (reviews : List HITLReview) : Bool × HitlStatus × Option String :=
  match reviews.find? fun r => r.status = .rejected ∨ r.status = .revisionRequired with
  | some r =>
    if r.status = .rejected then
      (false, .blocking, some ("Review '" ++ r.reviewId ++ "' was REJECTED."))
    else (false, .blocking, some ("Review '" ++ r.reviewId ++ "' requires revision."))
  | none =>
    let unresolvedBlocking := reviews.filter fun r => r.severity = .blocking ∧ r.status ≠ .resolved
    if unresolvedBlocking ≠ [] then
      (false, .blocking, some ("Blocking review(s) remaining unresolved: " ++
        reprList (unresolvedBlocking.map (·.reviewId)) ++ "."))
    else
      let unresolvedAdvisory := reviews.filter fun r => r.status = .pending ∨ r.status = .inReview
      if unresolvedAdvisory ≠ [] then
        (false, .advisory, some ("Advisory review(s) remaining unresolved: " ++
          reprList (unresolvedAdvisory.map (·.reviewId)) ++ "."))
      else
        let nonApproved := reviews.filter fun r => r.status ≠ .resolved
        if nonApproved ≠ [] then
          (false, .blocking, some ("Review(s) not approved: " ++
            reprList (nonApproved.map (·.reviewId)) ++ "."))
        else (true, .resolved, none)

/-- `get_review_or_404`. -/
def getReviewOr404 (s : Store) (reviewId : String) : Except Error (Nat × HITLReview) :=
  match s.reviews.select fun r => r.reviewId = reviewId with
  | [] => .error (.httpException 404 ("No HITL review '" ++ reviewId ++ "'."))
  | [r] => .ok r
  | _ => .error .multipleResultsFound

/-- The review an operation acts on: it must be `PENDING`. -/
def pendingReview (s : Store) (reviewId cannot : String) : Except Error (Nat × HITLReview) := do
  let r ← getReviewOr404 s reviewId
  if r.2.status ≠ .pending then
    throw (.httpException 409 ("Review '" ++ reviewId ++ "' is already '" ++ r.2.status.value ++
      "'; cannot " ++ cannot ++ "."))
  pure r

/-- A review closed by an officer. -/
def HITLReview.close (r : HITLReview) (status : ReviewStatus) (officer : String)
    (notes : Option String) (now : DateTime) : HITLReview :=
  { r with
    status := status
    complianceOfficerId := some officer
    resolutionNotes := notes
    resolvedAt := some now }

/-! ## `approve_review` -/

/-- The digest recorded on approval, computed from the Rego text where the rule has none. -/
def policyHash (rule : CompiledRule) : Option String :=
  if truthy rule.policySha256 then rule.policySha256
  else match rule.regoPolicy with
    | some code => if code = "" then rule.policySha256 else some (hexdigest code)
    | none => rule.policySha256

/-- The rules after the gate passed for rule `k`: it is active, other versions of it are not. -/
def activate (rules : Table CompiledRule) (k : Nat) (rule : CompiledRule) : Table CompiledRule :=
  rules.modify fun i r =>
    if i = k then { r with isActive := true, hitlStatus := .resolved, policySha256 := policyHash rule }
    else if r.ruleId = rule.ruleId then { r with isActive := false }
    else r

/-- The parent circular after review `k` was approved: it is approved when none of its reviews is
open or refused. -/
def settleCircular (s : Store) (k : Nat) (review : HITLReview) (officer : String) : Store :=
  match s.circularOf review with
  | some (circularId, circular) =>
    if circular.processingState = .awaitingHitl then
      let clauseIds := (s.clauses.select fun c => c.circularId = circularId).map (·.1)
      let reviews := s.reviews.select fun r => r.clauseId ∈ clauseIds
      let unresolved := reviews.filter fun r =>
        (r.1 = k ∧ review.status ≠ .resolved) ∨
          (r.1 ≠ k ∧ (r.2.status = .pending ∨ r.2.status = .inReview))
      let disqualified := reviews.filter fun r =>
        r.2.status = .rejected ∨ r.2.status = .revisionRequired
      if clauseIds ≠ [] ∧ unresolved = [] ∧ disqualified = [] then
        { s with
          circulars := s.circulars.update circularId fun c => { c with processingState := .approved }
          transitions := s.transitions ++ [{
            circularId := circularId
            fromState := .awaitingHitl
            toState := .approved
            triggeredBy := officer
            details := .obj [("review_id", .str review.reviewId),
              ("reason", .str "All HITL reviews approved")] }] }
      else s
    else s
  | none => s

/-- What `approve_review` returns, and the store after its commit. -/
structure Approval where
  store : Store
  review : Nat
  ruleActivated : Bool
  compiledRule : Option Nat

/-- The approval of review `k` of rule `ruleKey`: the gate is evaluated over all reviews of the rule,
with this one resolved. -/
def approveLinked (s : Store) (k : Nat) (review : HITLReview) (ruleKey : Nat) (rule : CompiledRule)
    (officer : String) (notes : Option String) (now : DateTime) : Approval :=
  let closed := { review.close .resolved officer notes now with
    approvedRuleVersion := some rule.ruleVersion
    approvedPolicySha256 := policyHash rule }
  let resolved := { s with reviews := s.reviews.update k fun _ => closed }
  let gate := evaluateRuleHitlGate ((resolved.reviewsOf ruleKey).map (·.2))
  let rules := if gate.1 then activate s.rules ruleKey rule
    else s.rules.update ruleKey fun r =>
      { r with isActive := false, hitlStatus := gate.2.1, policySha256 := policyHash rule }
  { store := settleCircular { resolved with rules := rules } k closed officer
    review := k
    ruleActivated := gate.1
    compiledRule := some ruleKey }

/-- The approval of a review without a rule. -/
def approveUnlinked (s : Store) (k : Nat) (review : HITLReview) (officer : String)
    (notes : Option String) (now : DateTime) : Approval :=
  let closed := review.close .resolved officer notes now
  { store := settleCircular { s with reviews := s.reviews.update k fun _ => closed } k closed officer
    review := k
    ruleActivated := false
    compiledRule := none }

def approveReview (s : Store) (reviewId officer : String) (notes : Option String) (now : DateTime) :
    Except Error Approval := do
  let (k, review) ← pendingReview s reviewId "re-approve"
  match review.compiledRuleId with
  | some ruleKey =>
    match s.rules.get? ruleKey with
    | none => throw (.httpException 404 "Associated compiled_rules row no longer exists.")
    | some rule => pure (approveLinked s k review ruleKey rule officer notes now)
  | none => pure (approveUnlinked s k review officer notes now)

/-! ## `reject_review` -/

/-- The parent circular after a rejection fails. -/
def failCircular (s : Store) (review : HITLReview) (officer : String) : Store :=
  match s.circularOf review with
  | some (circularId, circular) =>
    if circular.processingState ≠ .failed then
      let message := "HITL review '" ++ review.reviewId ++ "' rejected by " ++ officer
      { s with
        circulars := s.circulars.update circularId fun c =>
          { c with processingState := .failed, errorMessage := some message }
        transitions := s.transitions ++ [{
          circularId := circularId
          fromState := circular.processingState
          toState := .failed
          triggeredBy := officer
          errorMessage := some message
          details := .obj [("review_id", .str review.reviewId)] }] }
    else s
  | none => s

/-- The rule of a review changed by `f`, where the review has one. -/
def updateRuleOf (s : Store) (review : HITLReview) (f : CompiledRule → CompiledRule) :
    Table CompiledRule :=
  match review.compiledRuleId with
  | some ruleKey => s.rules.update ruleKey f
  | none => s.rules

/-- The review is rejected, and its rule and its circular with it. -/
def refuse (s : Store) (k : Nat) (review : HITLReview) (officer : String) (notes : Option String)
    (now : DateTime) : Store :=
  let closed := review.close .rejected officer notes now
  failCircular
    { s with
      rules := updateRuleOf s review fun r => { r with isActive := false, hitlStatus := .blocking }
      reviews := s.reviews.update k fun _ => closed }
    closed officer

def rejectReview (s : Store) (reviewId officer : String) (notes : Option String) (now : DateTime) :
    Except Error Store := do
  let (k, review) ← pendingReview s reviewId "re-reject"
  pure (refuse s k review officer notes now)

/-! ## `request_revision` -/

/-- The review is closed and unlinked from its rule, and the rule is marked stale. -/
def revise (s : Store) (k : Nat) (review : HITLReview) (officer : String) (notes : Option String)
    (now : DateTime) : Store :=
  { s with
    rules := updateRuleOf s review fun r =>
      { r with isActive := false, hitlStatus := .blocking, isCompiled := false }
    reviews := s.reviews.update k fun _ =>
      { review.close .revisionRequired officer notes now with compiledRuleId := none } }

/-- A circular that is `AWAITING_HITL` or `APPROVED` would go back to `EXTRACTING`, but
`ClauseProcessingState` is not a name of the module: the operation raises and is rolled back. -/
def requestRevision (s : Store) (reviewId officer : String) (notes : Option String) (now : DateTime) :
    Except Error Store := do
  let (k, review) ← pendingReview s reviewId "request revision"
  match s.circularOf review with
  | some (_, circular) =>
    if circular.processingState = .awaitingHitl ∨ circular.processingState = .approved then
      throw (.nameError "ClauseProcessingState")
    else pure (revise s k review officer notes now)
  | none => pure (revise s k review officer notes now)

end RegEngine.Hitl
