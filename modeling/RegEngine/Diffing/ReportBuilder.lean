import RegEngine.Lib.Query
import RegEngine.Lib.Binary64
import RegEngine.Compiler.JsonLogic

/-!
# Thresholds of a compiled rule

`app/diffing/threshold_extraction.py`: the thresholds that are read off a JSON-Logic tree. A float is the
number it holds; an integer that no float holds, for which `float` raises, is not considered.
-/

namespace RegEngine.Diffing

open Lib

def comparisonOperators : List String := [">=", ">", "<=", "<", "=="]

structure ExtractedThreshold where
  field : String
  operator : String
  value : Rat
  valueUpper : Option Rat := none
  deriving DecidableEq

/-- `_var_path`. -/
def varPath (node : Json) : Option String := (node.get? "var").bind Json.str?

mutual

/-- `_flatten_and_leaves`. -/
def flattenAndLeaves : Json → List Json
  | .obj fields => (flattenAnd fields).getD [.obj fields]
  | _ => []

/-- The leaves under the key `and`, if a list is there. -/
def flattenAnd : List (String × Json) → Option (List Json)
  | [] => none
  | (key, value) :: fields =>
    if key = "and" then
      match value with
      | .arr children => some (flattenChildren children)
      | _ => none
    else flattenAnd fields

def flattenChildren : List Json → List Json
  | [] => []
  | child :: children => flattenAndLeaves child ++ flattenChildren children

end

/-- `_single_comparisons`, which finds one comparison or none. -/
def singleComparison : Json → Option (String × Json)
  | .obj [(op, operands)] => if op ∈ comparisonOperators then some (op, operands) else none
  | _ => none

/-- `float` of a number; none for any other value. -/
def pyFloat : Json → Option Rat
  | .float x => (Json.float x).pyNum?
  | .int n => some (Binary64.ofRat n).toRat
  | .bool b => some (if b then 1 else 0)
  | _ => none

/-- A comparison of a field with a number. -/
structure FieldComparison where
  field : String
  operator : String
  value : Rat

/-- What the loop keeps of a leaf. -/
def fieldComparison (leaf : Json) : Option FieldComparison :=
  match singleComparison leaf with
  | some (op, .arr [operand, constant]) =>
    match varPath operand, pyFloat constant with
    | some field, some value => if field = "entity_type" then none else some ⟨field, op, value⟩
    | _, _ => none
  | _ => none

/-- The thresholds of one field: a lower and an upper bound make a range. -/
def foldRange (field : String) : List FieldComparison → List ExtractedThreshold
  | [c, d] =>
    if c.operator = ">=" ∧ d.operator = "<=" then [⟨field, "range", c.value, some d.value⟩]
    else if c.operator = "<=" ∧ d.operator = ">=" then [⟨field, "range", d.value, some c.value⟩]
    else [⟨field, c.operator, c.value, none⟩, ⟨field, d.operator, d.value, none⟩]
  | cs => cs.map fun c => ⟨field, c.operator, c.value, none⟩

/-- The comparisons by field, in the order in which the fields first occur. -/
def thresholdsByField (cs : List FieldComparison) : List ExtractedThreshold :=
  ((firstHits FieldComparison.field [] cs).map (·.field)).flatMap fun field =>
    foldRange field (cs.filter fun c => c.field = field)

def extractThresholdsFromJsonlogic (ast : Json) : List ExtractedThreshold :=
  thresholdsByField ((flattenAndLeaves ast).filterMap fieldComparison)

end RegEngine.Diffing

/-!
## What a new circular changes

`diff_thresholds` of `app/diffing/semantic_diff.py`, and the diff of one clause in
`app/diffing/report_builder.py`. The match in the vector index, the row of the compiled rule and the language
model are parameters; the narrative and the services of a result are left out.
-/

namespace RegEngine.Diffing

open Lib Compiler

inductive MatchConfidence where
  | identical
  | nearDuplicate
  | likelyAmendment
  | weakMatch
  | noMatch
  deriving DecidableEq

inductive ChangeType where
  | thresholdShift
  | deadlineAmendment
  | newObligation
  | obligationRemoved
  | entityScopeChange
  | wordingOnly
  | unchanged
  deriving DecidableEq

inductive ImpactSeverity where
  | low
  | medium
  | high
  | critical
  deriving DecidableEq

structure ThresholdDelta where
  field : String
  metric : String
  unit : String
  oldOperator : String
  oldValue : Rat
  newOperator : String
  newValue : Rat
  deltaAbsolute : Option Rat
  deltaPct : Option Rat
  tightened : Option Bool

/-! ## `semantic_diff.py` -/

/-- The similarity bands. -/
def confidenceBands : List (Binary64 × MatchConfidence) :=
  [(.ofRat 0.995, .identical), (.ofRat 0.92, .nearDuplicate), (.ofRat 0.75, .likelyAmendment),
    (.ofRat 0.55, .weakMatch)]

def classifyMatchConfidence (similarity : Binary64) : MatchConfidence :=
  ((confidenceBands.find? fun band => band.1.le similarity).map (·.2)).getD .noMatch

structure HistoricalMatch where
  chunkId : String
  sha256 : Option String
  circularNumber : Option String
  clauseNumber : Option String
  text : String
  similarity : Binary64

def HistoricalMatch.confidence (m : HistoricalMatch) : MatchConfidence := classifyMatchConfidence m.similarity

/-- The number that a float operation gives. -/
def rounded (q : Rat) : Rat := (Binary64.ofRat q).toRat

/-- The number that a bound of a threshold is. -/
def number (d : Decimal) : Rat := ((Json.float d).pyNum?).getD 0

/-- `_is_tightened`. -/
def isTightened (oldThreshold : ExtractedThreshold) (newThreshold : NumericalThreshold) : Option Bool :=
  let op := newThreshold.operator.value
  if oldThreshold.operator ≠ op then none
  else if op = ">=" ∨ op = ">" then some (oldThreshold.value < number newThreshold.value)
  else if op = "<=" ∨ op = "<" then some (number newThreshold.value < oldThreshold.value)
  else none

def thresholdDelta (field : String) (newThreshold : NumericalThreshold) (oldThreshold : ExtractedThreshold) :
    ThresholdDelta :=
  let deltaAbs := rounded (number newThreshold.value - oldThreshold.value)
  { field := "facts." ++ field
    metric := newThreshold.metric
    unit := newThreshold.unit
    oldOperator := oldThreshold.operator
    oldValue := oldThreshold.value
    newOperator := newThreshold.operator.value
    newValue := number newThreshold.value
    deltaAbsolute := if oldThreshold.value = 0 then none else some deltaAbs
    deltaPct :=
      if oldThreshold.value = 0 then none else some (rounded (rounded (deltaAbs / oldThreshold.value) * 100))
    tightened := isTightened oldThreshold newThreshold }

/-- `field.removeprefix("facts.")`. -/
def withoutFacts (field : String) : String :=
  if Python.startsWith field "facts." then String.ofList (field.toList.drop 6) else field

/-- The keys of a dictionary made of pairs, with their last values. -/
def items {α : Type} (pairs : List (String × α)) : List (String × α) :=
  (firstHits Prod.fst [] pairs).map fun p => (p.1, (Query.dict pairs p.1).getD p.2)

/-- The names of the fields of thresholds. -/
def newFields (newThresholds : List NumericalThreshold) : Except CompileError (List String) :=
  newThresholds.mapM fun t => metricFieldName t.metric t.unit

/-- `diff_thresholds`: the deltas, the fields that only the new rule has, and those that it no longer has. -/
def diffThresholds (newThresholds : List NumericalThreshold) (oldThresholds : List ExtractedThreshold) :
    Except CompileError (List ThresholdDelta × List String × List String) := do
  let fields ← newFields newThresholds
  let newByField := fields.zip newThresholds
  let oldByField := oldThresholds.map fun t => (withoutFacts t.field, t)
  let deltas := (items newByField).filterMap fun (field, newThreshold) =>
    (Query.dict oldByField field).map (thresholdDelta field newThreshold)
  let newOnly := ((items newByField).map (·.1)).filter fun f => Query.dict oldByField f = none
  let removed := ((items oldByField).map (·.1)).filter fun f => Query.dict newByField f = none
  pure (deltas, newOnly, removed)

def deadlineUnitHints : List String := ["days", "day", "hours", "hour", "months", "month", "years", "year"]

def deadlineMetricHints : List String :=
  ["settlement", "deadline", "window", "timeline", "notice period", "cure period", "reporting"]

def looksLikeDeadline (metric unit : String) : Bool :=
  Python.lower (Python.strip unit) ∈ deadlineUnitHints ||
    deadlineMetricHints.any (Python.contains (Python.lower metric))

/-! ## `report_builder.py` -/

structure ClauseDiffResult where
  newRuleId : String
  newClauseNumber : Option String
  newCircularNumber : Option String
  matched : Option HistoricalMatch := none
  changeType : ChangeType
  severity : ImpactSeverity
  classificationMethod : String
  classificationConfidence : Binary64
  thresholdDeltas : List ThresholdDelta := []
  requiresHitlReview : Bool

/-- `_LARGE_DELTA_PCT_THRESHOLD`. -/
def largeDeltaPctThreshold : Rat := 15

/-- `_severity_for`. -/
def severityFor (changeType : ChangeType) (deltas : List ThresholdDelta) : ImpactSeverity :=
  match changeType with
  | .newObligation | .obligationRemoved => .critical
  | .deadlineAmendment => .high
  | .thresholdShift =>
    if deltas.any fun d => d.deltaPct.any fun pct => largeDeltaPctThreshold ≤ |pct| then .high else .medium
  | .entityScopeChange => .medium
  | .wordingOnly | .unchanged => .low

/-- `severity in (HIGH, CRITICAL)`. -/
def ImpactSeverity.isSevere (s : ImpactSeverity) : Bool := s = .high || s = .critical

/-- The change, its severity and whether it needs a review. -/
def structuralChange (deltas : List ThresholdDelta) (newOnly removed : List String)
    (confidence : MatchConfidence) : ChangeType × ImpactSeverity × Bool :=
  if deltas ≠ [] then
    let isDeadline := deltas.any fun d => looksLikeDeadline d.metric d.unit
    let changeType := if isDeadline then .deadlineAmendment else .thresholdShift
    let severity := severityFor changeType deltas
    (changeType, severity, severity.isSevere)
  else if newOnly ≠ [] then (.newObligation, .critical, true)
  else if removed ≠ [] then (.obligationRemoved, .critical, true)
  else if confidence = .identical ∨ confidence = .nearDuplicate then (.unchanged, .low, false)
  else (.wordingOnly, .low, false)

/-- `_classify_structurally`. -/
def classifyStructurally (rule : ExtractedComplianceRule) (m : HistoricalMatch) (deltas : List ThresholdDelta)
    (newOnly removed : List String) : ClauseDiffResult :=
  let (changeType, severity, requiresHitl) := structuralChange deltas newOnly removed m.confidence
  { newRuleId := rule.ruleId
    newClauseNumber := rule.clauseNumber
    newCircularNumber := rule.circularNumber
    matched := some m
    changeType := changeType
    severity := severity
    classificationMethod := "structural"
    classificationConfidence := .ofRat 0.95
    thresholdDeltas := deltas
    requiresHitlReview := requiresHitl }

/-- What the language model says of two clauses. -/
structure LlmChange where
  changeType : ChangeType
  confidence : Binary64

/-- `_lookup_historical_compiled_rule`: the tree of the active rule compiled from the clause of a digest. -/
def lookupHistoricalCompiledRule (compiledRules : String → Option Json) (sha256 : Option String) : Option Json :=
  sha256.bind fun sha => if sha = "" then none else compiledRules sha

/-- `_diff_one_clause`: the result, and the digest of the clause that was matched. -/
def diffOneClause (compiledRules : String → Option Json) (llm : String → HistoricalMatch → LlmChange)
    (text : String) (rule : ExtractedComplianceRule) (matched : Option HistoricalMatch) :
    Except CompileError (ClauseDiffResult × Option String) :=
  match matched.filter fun m => m.confidence ≠ .noMatch with
  | none => do
    -- the fields whose services are named
    let _ ← newFields rule.deterministicLogic
    pure
      ({ newRuleId := rule.ruleId
         newClauseNumber := rule.clauseNumber
         newCircularNumber := rule.circularNumber
         changeType := .newObligation
         severity := .critical
         classificationMethod := "structural"
         classificationConfidence := .ofRat 1
         requiresHitlReview := true }, none)
  | some m => do
    let historicalSha256 := if m.confidence = .weakMatch then none else m.sha256
    let oldThresholds :=
      match (lookupHistoricalCompiledRule compiledRules historicalSha256).filter Json.truthy with
      | some ast => extractThresholdsFromJsonlogic ast
      | none => []
    if oldThresholds ≠ [] ∨ rule.deterministicLogic ≠ [] then
      let (deltas, newOnly, removed) ← diffThresholds rule.deterministicLogic oldThresholds
      pure (classifyStructurally rule m deltas newOnly removed, historicalSha256)
    else
      let change := llm text m
      let severity := severityFor change.changeType []
      pure
        ({ newRuleId := rule.ruleId
           newClauseNumber := rule.clauseNumber
           newCircularNumber := rule.circularNumber
           matched := some m
           changeType := change.changeType
           severity := severity
           classificationMethod := "llm"
           classificationConfidence := change.confidence
           requiresHitlReview := change.confidence.lt (.ofRat 0.7) || severity.isSevere }, historicalSha256)

end RegEngine.Diffing
