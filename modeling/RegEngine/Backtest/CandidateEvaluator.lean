import RegEngine.Lib.Json
import RegEngine.Lib.Python
import RegEngine.Execution.Registry

/-!
# `evaluate_jsonlogic`

`app/backtest/jsonlogic_evaluator.py`: the value of a JSON-Logic tree on an input document, with
Python's truth values, equality and order.
-/

namespace RegEngine.Backtest

open Lib Lib.Python

/-- What the evaluation raises; `typeError` stands for the errors of Python's own operations. -/
inductive EvalError where
  | unsupportedNode (message : String)
  | missingFact (path : String)
  | typeError
  deriving DecidableEq

/-- The loop of `_resolve_var` over the parts of a path. -/
def resolveParts (path : String) : List String → Json → Except EvalError Json
  | [], value => .ok value
  | part :: parts, value =>
    match value.get? part with
    | some v => resolveParts path parts v
    | none => .error (.missingFact path)

def resolveVar (path : String) (data : Json) : Except EvalError Json :=
  resolveParts path (split '.' path) data

/-- `_COMPARISON_OPS`; none where the operation raises a `TypeError`. -/
def comparison : String → Option (Json → Json → Option Bool)
  | "==" => some fun a b => some (a.pyEq b)
  | ">=" => some fun a b => (a.pyCmp b).map (· ≠ .lt)
  | ">" => some fun a b => (a.pyCmp b).map (· = .gt)
  | "<=" => some fun a b => (a.pyCmp b).map (· ≠ .gt)
  | "<" => some fun a b => (a.pyCmp b).map (· = .lt)
  | _ => none

/-- The value of a Python operation. -/
def pyResult : Option Bool → Except EvalError Json
  | some b => .ok (.bool b)
  | none => .error .typeError

mutual

def evaluateJsonlogic (data : Json) : Json → Except EvalError Json
  | .arr items => (evaluateItems data items).map .arr
  | .obj fields => evaluateNode data fields
  | value => .ok value

def evaluateItems (data : Json) : List Json → Except EvalError (List Json)
  | [] => .ok []
  | item :: items => do
    let v ← evaluateJsonlogic data item
    let vs ← evaluateItems data items
    pure (v :: vs)

/-- An operator object. -/
def evaluateNode (data : Json) : List (String × Json) → Except EvalError Json
  | [(operator, operands)] =>
    if operator = "var" then
      match operands with
      | .str path => resolveVar path data
      | _ => .error .typeError
    else if operator = "and" then evaluateAnd data operands
    else if operator = "in" then do
      let (needle, haystack) ← evaluateTwo data
        "'in' requires exactly two operands: [needle, haystack]." operands
      pyResult (needle.pyIn haystack)
    else
      match comparison operator with
      | some op => do
        let (left, right) ← evaluateTwo data
          ("'" ++ operator ++ "' requires exactly two operands.") operands
        pyResult (op left right)
      | none => .error (.unsupportedNode ("Unsupported JSON-Logic operator: " ++ reprText operator))
  | fields =>
    .error (.unsupportedNode ("Expected exactly one operator key, got: " ++
      reprList (fields.map (·.1))))

def evaluateAnd (data : Json) : Json → Except EvalError Json
  | .arr items => (evaluateAll data items).map .bool
  | _ => .error (.unsupportedNode "'and' operands must be a list.")

/-- `all(…)`: up to the first value that is not true. -/
def evaluateAll (data : Json) : List Json → Except EvalError Bool
  | [] => .ok true
  | child :: children => do
    let v ← evaluateJsonlogic data child
    if v.truthy then evaluateAll data children else pure false

/-- The two operands of an operator. -/
def evaluateTwo (data : Json) (message : String) : Json → Except EvalError (Json × Json)
  | .arr items => evaluatePair data message items
  | _ => .error (.unsupportedNode message)

def evaluatePair (data : Json) (message : String) : List Json → Except EvalError (Json × Json)
  | [a, b] => do
    let left ← evaluateJsonlogic data a
    let right ← evaluateJsonlogic data b
    pure (left, right)
  | _ => .error (.unsupportedNode message)

end

end RegEngine.Backtest

/-!
## Candidate evaluators

`app/backtest/candidate_evaluator.py`: one historical transaction against a candidate policy, by its
JSON-Logic tree or by an OPA that holds its module. `str.format`, which renders the message template,
is an input.
-/

namespace RegEngine.Backtest

open Lib Lib.Python Lib.Calendar Lib.Rego Compiler Execution

/-- The document a candidate is evaluated on. -/
def candidateInput (entityType : String) (facts : List (String × Json)) : Json :=
  .obj [("entity_type", .str entityType), ("facts", .obj facts)]

/-! ### By JSON-Logic -/

structure JsonLogicCandidateEvaluator where
  logic : Json
  violationMessageTemplate : Option String := none

/-- The decision and the violation messages; other errors than those of the evaluation language are
passed on. -/
def JsonLogicCandidateEvaluator.evaluate (E : JsonLogicCandidateEvaluator)
    (format : String → List (String × Json) → Except EvalError String) (entityType : String)
    (facts : List (String × Json)) : Except EvalError (Decision × List String) :=
  match evaluateJsonlogic (candidateInput entityType facts) E.logic with
  | .error (.missingFact path) =>
    .ok (.flagged, ["Candidate policy could not be evaluated: historical transaction has no '" ++
      path ++ "' fact."])
  | .error (.unsupportedNode _) =>
    .ok (.flagged,
      ["Candidate policy AST contains a node shape this backtest evaluator does not support."])
  | .error .typeError => .error .typeError
  | .ok result =>
    if result.truthy then .ok (.allow, [])
    else if truthy E.violationMessageTemplate then do
      let violation ← format (E.violationMessageTemplate.getD "") facts
      pure (.deny, [violation])
    else .ok (.deny, ["Candidate policy condition not satisfied."])

/-! ### By OPA -/

/-- `OpaCandidateEvaluator.evaluate`, given OPA's answer for the candidate's package. -/
def opaCandidateEvaluate : OPAReply → Decision × List String
  | .engineError => (.flagged, ["Backtest OPA instance was unreachable during replay."])
  | .undefined =>
    (.flagged, ["Candidate policy returned an undefined result for this historical transaction."])
  | .result d =>
    let violations := d.violations.getD []
    (if violations ≠ [] then .deny else .allow, violations)

/-- An OPA: what a rule of a module comes to on an input, given the text of the module; and its
formatting function. -/
structure Opa where
  eval : String → String → Json → Outcome Json
  sprintf : String → List Json → String

/-- `data.<package>.decision` on an OPA that holds one module, as `OPAEngine.evaluate` returns it. -/
def Opa.decision (opa : Opa) (regoCode : String) (input : Json) : OPAReply :=
  opaReply (opa.eval regoCode "decision" input)

end RegEngine.Backtest
