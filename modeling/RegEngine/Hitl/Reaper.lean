import RegEngine.Lib.CheckedCopy
import RegEngine.Hitl.System

/-!
# Review calls in their own sessions

The statements of `approve_review`, `reject_review` and `request_revision` on one review, each call in
a session of its own (`app/db/session.py`): the first load and its check, `_rule_scope_lock` of the
process, the load and the check inside it, `SELECT … FOR UPDATE` of the rule, the write and the commit.
The session's identity map keeps the copy of the first load. What a call does to rules and circulars
is that of `Service`; here only the row of the review is followed.
-/

namespace RegEngine.Hitl

open Lib

/-- One call, with the process it runs in and the rule row that it locks. -/
structure SessionCall where
  call : ReviewCall
  process : Nat
  rule : CompiledRule

/-- The copy after the call has set its attributes. -/
def SessionCall.written (c : SessionCall) (copy : HITLReview) : HITLReview :=
  match c.call.verdict with
  | .approve =>
    let closed := copy.close .resolved c.call.officer c.call.notes c.call.now
    if copy.compiledRuleId = none then closed
    else
      { closed with
        approvedRuleVersion := some c.rule.ruleVersion
        approvedPolicySha256 := policyHash c.rule }
  | .reject => copy.close .rejected c.call.officer c.call.notes c.call.now
  | .requestRevision =>
    { copy.close .revisionRequired c.call.officer c.call.notes c.call.now with compiledRuleId := none }

/-- An attribute is part of the `UPDATE` where it differs from what was loaded. -/
def flushColumn {α : Type} [DecidableEq α] (stored copy written : α) : α :=
  if written = copy then stored else written

/-- The row after the `UPDATE` of a copy. -/
def flush (stored copy written : HITLReview) : HITLReview :=
  { stored with
    compiledRuleId := flushColumn stored.compiledRuleId copy.compiledRuleId written.compiledRuleId
    status := flushColumn stored.status copy.status written.status
    complianceOfficerId :=
      flushColumn stored.complianceOfficerId copy.complianceOfficerId written.complianceOfficerId
    resolutionNotes := flushColumn stored.resolutionNotes copy.resolutionNotes written.resolutionNotes
    resolvedAt := flushColumn stored.resolvedAt copy.resolvedAt written.resolvedAt
    approvedRuleVersion :=
      flushColumn stored.approvedRuleVersion copy.approvedRuleVersion written.approvedRuleVersion
    approvedPolicySha256 :=
      flushColumn stored.approvedPolicySha256 copy.approvedPolicySha256 written.approvedPolicySha256 }

/-- The sessions of these calls: a copy must be `PENDING`, and the rule it names is locked in the
process (`_RULE_LOCKS`) and in the database. -/
def reviewSessions {ι : Type} (calls : ι → SessionCall) :
    CheckedCopy.Protocol ι (Nat × Nat) Nat HITLReview where
  Ready copy := copy.status = .pending
  scope i copy := copy.compiledRuleId.map fun rule => ((calls i).process, rule)
  row copy := copy.compiledRuleId
  write i stored copy := flush stored copy ((calls i).written copy)

/-!
## The stale-state reaper

`_sweep_once` of `app/services/stale_state_reaper.py` beside the sessions that process circulars, one
statement at a time. A processing session keeps the copy of the circular that it loaded
(`transition_circular_state` reads the state from it), and a transition is committed as a whole. Other
sessions wait for the rows that the sweep has written until it commits.
-/

/-- A circular with its `updated_at`, in microseconds. -/
structure CircularRow where
  processingState : ProcessingState
  errorMessage : Option String
  updatedAt : Int
  deriving DecidableEq

/-- `_STALE_STATES`. -/
def staleStates : List ProcessingState := [.extracting, .compiling]

/-- `_SWEEP_MESSAGE`. -/
def sweepMessage : String :=
  "Processing stalled in an intermediate state (EXTRACTING/COMPILING) and was not updated for a long " ++
    "period; marked FAILED by the stale-state reaper. Re-upload the document to retry."

/-- The query of the sweep. -/
def CircularRow.stale (cutoff : Int) (row : CircularRow) : Bool :=
  row.processingState ∈ staleStates ∧ row.updatedAt < cutoff

/-- The victims of a sweep: their keys, and the states they are found in. -/
def staleCirculars (rows : Table CircularRow) (cutoff : Int) : List (Nat × ProcessingState) :=
  (rows.select (·.stale cutoff)).map fun r => (r.1, r.2.processingState)

/-- What the sweep leaves of a victim. -/
def CircularRow.swept (now : Int) (_ : CircularRow) : CircularRow where
  processingState := .failed
  errorMessage := some sweepMessage
  updatedAt := now

/-- The entry for a victim. -/
def sweptEntry (victim : Nat × ProcessingState) : CircularStateTransition where
  circularId := victim.1
  fromState := victim.2
  toState := .failed
  triggeredBy := "system:stale-state-reaper"
  errorMessage := some sweepMessage
  details := .null

/-- Where the sweep is. -/
inductive Sweep where
  | idle
  | selected (cutoff : Int) (victims : List (Nat × ProcessingState))
  | written (cutoff : Int) (victims : List (Nat × ProcessingState))
  | done

/-- The committed rows and entries, the sweep, and the circular and copy of each session. -/
structure ReaperState (ι : Type) where
  rows : Table CircularRow
  history : List CircularStateTransition
  sweep : Sweep
  session : ι → Option (Nat × CircularRow)

/-- A circular after `transition_circular_state`. -/
def CircularRow.moved (row : CircularRow) (toState : ProcessingState) (errorMessage : Option String) :
    CircularRow :=
  { row with
    processingState := toState
    errorMessage :=
      if errorMessage ≠ none then errorMessage
      else if toState ≠ .failed then none else row.errorMessage }

/-- Whether there is anything to update. -/
def CircularRow.differs (written copy : CircularRow) : Prop :=
  written.processingState ≠ copy.processingState ∨ written.errorMessage ≠ copy.errorMessage

instance (written copy : CircularRow) : Decidable (written.differs copy) :=
  inferInstanceAs (Decidable (_ ∨ _))

/-- The row after the `UPDATE` of a copy; without a changed attribute there is none. -/
def CircularRow.flush (stored copy written : CircularRow) (now : Int) : CircularRow where
  processingState :=
    flushColumn stored.processingState copy.processingState written.processingState
  errorMessage := flushColumn stored.errorMessage copy.errorMessage written.errorMessage
  updatedAt := if written.differs copy then now else stored.updatedAt

def transitionEntry (circularId : Nat) (copy : CircularRow) (toState : ProcessingState)
    (errorMessage : Option String) (details : Json) : CircularStateTransition where
  circularId := circularId
  fromState := copy.processingState
  toState := toState
  triggeredBy := "orchestrator"
  errorMessage := errorMessage
  details := details

section
variable {ι : Type} [DecidableEq ι]

/-- Session `i` works with this circular and copy. -/
def ReaperState.load (s : ReaperState ι) (i : ι) (k : Nat) (copy : CircularRow) : ReaperState ι :=
  { s with session := Function.update s.session i (some (k, copy)) }

/-- Session `i` commits a transition of its circular. -/
def ReaperState.transition (s : ReaperState ι) (i : ι) (k : Nat) (copy : CircularRow)
    (toState : ProcessingState) (errorMessage : Option String) (details : Json) (now : Int) :
    ReaperState ι :=
  { s with
    rows := s.rows.update k fun row => row.flush copy (copy.moved toState errorMessage) now
    history := s.history ++ [transitionEntry k copy toState errorMessage details]
    session := Function.update s.session i (some (k, copy.moved toState errorMessage)) }

/-- The circular is one of the victims whose rows are locked. -/
def ReaperState.locked (s : ReaperState ι) (k : Nat) : Prop :=
  ∃ cutoff victims, s.sweep = .written cutoff victims ∧ k ∈ victims.map (·.1)

/-- One statement of the sweep, or of a processing session. `Ok` is what is asked of a transition. -/
inductive ReaperStep (staleAfter : Int) (Ok : ReaperState ι → Nat → CircularRow → Prop) :
    ReaperState ι → ReaperState ι → Prop where
  | select {s : ReaperState ι} (now : Int) : s.sweep = .idle →
      ReaperStep staleAfter Ok s
        { s with sweep := .selected (now - staleAfter) (staleCirculars s.rows (now - staleAfter)) }
  | write {s : ReaperState ι} {cutoff : Int} {victims : List (Nat × ProcessingState)} :
      s.sweep = .selected cutoff victims →
      ReaperStep staleAfter Ok s { s with sweep := .written cutoff victims }
  | commit {s : ReaperState ι} (now : Int) {cutoff : Int} {victims : List (Nat × ProcessingState)} :
      s.sweep = .written cutoff victims →
      ReaperStep staleAfter Ok s
        { s with
          rows := s.rows.modify fun k row => if k ∈ victims.map (·.1) then row.swept now else row
          history := s.history ++ victims.map sweptEntry
          sweep := .done }
  | rollback {s : ReaperState ι} : ReaperStep staleAfter Ok s { s with sweep := .done }
  | load {s : ReaperState ι} (i : ι) {k : Nat} {row : CircularRow} : s.rows.get? k = some row →
      ReaperStep staleAfter Ok s (s.load i k row)
  | transition {s : ReaperState ι} (i : ι) {k : Nat} {copy : CircularRow} (toState : ProcessingState)
      (errorMessage : Option String) (details : Json) (now : Int) :
      s.session i = some (k, copy) →
      (s.locked k → ¬ (copy.moved toState errorMessage).differs copy) → Ok s k copy →
      ReaperStep staleAfter Ok s (s.transition i k copy toState errorMessage details now)

end

end RegEngine.Hitl
