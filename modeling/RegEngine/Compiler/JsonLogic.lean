import RegEngine.Compiler.Rego

/-!
# `compile_rule_to_jsonlogic`

`app/compiler/jsonlogic_compiler.py`: the JSON-Logic tree of a rule, with the input fields it expects
and the template of its message; `app/compiler/jsonlogic_validator.py`: the structural check of a
tree. A value of `Json` is always serialisable, so `validate_json_serializable` never fails here.
-/

namespace RegEngine.Compiler

open Lib Lib.Python

structure JsonLogicRule where
  ruleId : String
  logic : Json
  dataSchema : List (String × String)
  violationMessageTemplate : String
  thresholdsCompiled : Nat

/-! ## Compiling -/

/-- `{operator: operand}`. -/
def node (operator : String) (operand : Json) : Json := .obj [(operator, operand)]

/-- `_var`. -/
def varNode (path : String) : Json := node "var" (.str path)

/-- `_threshold_var_path`: the canonical fact of a threshold is taken as it is. -/
def thresholdVarPath (t : NumericalThreshold) : Except CompileError String :=
  let fact := t.canonicalFact.getD ""
  if fact = "" then (metricFieldName t.metric t.unit).map ("facts." ++ ·)
  else .ok ("facts." ++ fact)

/-- `_threshold_to_logic`. -/
def thresholdToLogic (t : NumericalThreshold) : Except CompileError Json := do
  let path ← thresholdVarPath t
  if t.operator = .range then
    let upper ← upperBound t
    pure (node "and" (.arr [node ">=" (.arr [varNode path, .float t.value]),
      node "<=" (.arr [varNode path, .float upper])]))
  else pure (node t.operator.value (.arr [varNode path, .float t.value]))

/-- `_entity_logic`. -/
def entityLogic (rule : ExtractedComplianceRule) : Option Json :=
  match guardEntities rule with
  | [] => none
  | [e] => some (node "==" (.arr [varNode "entity_type", .str e]))
  | es => some (node "in" (.arr [varNode "entity_type", .arr (es.map .str)]))

/-- `schema[key] = value`. -/
def setField (schema : List (String × String)) (key value : String) : List (String × String) :=
  if key ∈ schema.map (·.1) then schema.map fun f => if f.1 = key then (key, value) else f
  else schema ++ [(key, value)]

/-- `_data_schema`. -/
def dataSchema (rule : ExtractedComplianceRule) :
    Except CompileError (List (String × String)) :=
  rule.deterministicLogic.foldlM
    (fun schema t => do pure (setField schema (← thresholdVarPath t) "number"))
    [("entity_type", "string")]

/-- The part of the message for one threshold. -/
def messagePart (clause : String) (t : NumericalThreshold) : Except CompileError String := do
  let path ← thresholdVarPath t
  let placeholder := "\x7b" ++ path ++ "\x7d"
  let scope := if truthy t.appliesTo then " for " ++ t.appliesTo.getD "" else ""
  let required :=
    if t.operator = .range then
      "between " ++ t.value.repr ++ " and " ++ (t.valueUpper.map (·.repr)).getD "None"
    else t.operator.value ++ " " ++ t.value.repr
  pure (t.metric ++ " is " ++ placeholder ++ " " ++ t.unit ++ ", required to be " ++ required ++ " " ++
    t.unit ++ scope ++ " (clause " ++ clause ++ ")")

/-- `_message_template`. -/
def messageTemplate (rule : ExtractedComplianceRule) : Except CompileError String := do
  let parts ← rule.deterministicLogic.mapM (messagePart (orText rule.clauseNumber "unscoped"))
  pure (" AND ".intercalate parts)

/-- The tree of the clauses: the only one, or their conjunction. -/
def conjunction : List Json → Json
  | [c] => c
  | cs => node "and" (.arr cs)

def compileRuleToJsonlogic (rule : ExtractedComplianceRule) :
    Except CompileError JsonLogicRule := do
  if rule.deterministicLogic.isEmpty then
    throw (.valueError ("Rule " ++ rule.ruleId ++ " has no deterministic_logic to compile."))
  let thresholdClauses ← rule.deterministicLogic.mapM thresholdToLogic
  let dataSchema ← dataSchema rule
  let violationMessageTemplate ← messageTemplate rule
  pure
    { ruleId := rule.ruleId
      logic := conjunction ((entityLogic rule).toList ++ thresholdClauses)
      dataSchema := dataSchema
      violationMessageTemplate := violationMessageTemplate
      thresholdsCompiled := rule.deterministicLogic.length }

/-! ## Validating -/

mutual

/-- `validate_json_logic_ast`: the message of the `MalformedASTError`, with the path of the node. -/
def validateJsonLogicAst (path : String) : Json → Except String Unit
  | .arr items => validateItems path 0 items
  | .obj fields => validateNode path fields
  | _ => .ok ()

def validateItems (path : String) (i : Nat) : List Json → Except String Unit
  | [] => .ok ()
  | item :: items => do
    validateJsonLogicAst (path ++ "[" ++ toString i ++ "]") item
    validateItems path (i + 1) items

/-- An operator object. -/
def validateNode (path : String) : List (String × Json) → Except String Unit
  | [(operator, operand)] =>
    if operator = "" then
      .error ("Invalid JSON-Logic node at " ++ path ++
        ": operator key must be a non-empty string, got ''.")
    else validateJsonLogicAst (path ++ "." ++ operator) operand
  | fields =>
    .error ("Invalid JSON-Logic node at " ++ path ++
      ": operator objects must have exactly one key, got " ++ toString fields.length ++ " (" ++
      reprList ((fields.map (·.1)).insertionSort (· ≤ ·)) ++ ").")

end

end RegEngine.Compiler
