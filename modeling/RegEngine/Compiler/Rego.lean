import RegEngine.Compiler.Facts
import RegEngine.Lib.Calendar
import RegEngine.Lib.Rego

/-!
# `compile_rule_to_rego`

`app/compiler/rego_compiler.py`: the Rego module of a rule, as rules (`regoModule`) and as the text
that is published (`regoLines`). Both are put together from the same guard, conditions and violation
bodies.
-/

namespace RegEngine.Compiler

open Lib Lib.Python Lib.Calendar Lib.Sha256 Lib.Rego

/-- `_rego_scalar`: the number literal of a float. -/
def regoScalar (value : Decimal) : Json :=
  if value.isInteger then .int value.toInt else .float value

/-! ## The parts of a module -/

/-- The entity names of the guard, in order. -/
def guardEntities (rule : ExtractedComplianceRule) : List String :=
  let names := rule.targetEntities.map fun e => orText e.normalizedEntity e.rawText
  ((names.filter fun n => n ≠ "").dedup).insertionSort (· ≤ ·)

/-- `_entity_guard`. -/
def entityGuard (rule : ExtractedComplianceRule) : Option Literal :=
  match guardEntities rule with
  | [] => none
  | [e] => some (.cmp .eq (.input ["entity_type"]) (.quoted e))
  | es => some (.mem (.input ["entity_type"]) (.set (es.map .quoted)))

/-- `_threshold_field`. -/
def thresholdField (t : NumericalThreshold) : Except CompileError String :=
  let fact := t.canonicalFact.getD ""
  if fact = "" then metricFieldName t.metric t.unit
  else if (getCanonicalFact fact).isNone then
    .error (.undefinedFactError
      ("Threshold specifies undefined canonical fact '" ++ fact ++ "'"))
  else .ok fact

/-- The comparison of an operator that is not a range. -/
def ComparisonOperator.cmp : ComparisonOperator → CmpOp
  | gte | range => .ge
  | gt => .gt
  | lte => .le
  | lt => .lt
  | eq => .eq

/-- `_OPERATOR_NEGATION`. -/
def ComparisonOperator.negation : ComparisonOperator → CmpOp
  | gte | range => .lt
  | gt => .le
  | lte => .gt
  | lt => .ge
  | eq => .ne

/-- The upper bound that a range must have. -/
def upperBound (t : NumericalThreshold) : Except CompileError Decimal :=
  match t.valueUpper with
  | some upper => .ok upper
  | none => .error .assertionError

/-- `input.facts.<field>`. -/
def factTerm (field : String) : Term := .input ["facts", field]

/-- `_pass_condition`. -/
def passCondition (t : NumericalThreshold) : Except CompileError (List Literal) := do
  let field ← thresholdField t
  if t.operator = .range then
    let upper ← upperBound t
    pure [.cmp .ge (factTerm field) (.lit (regoScalar t.value)),
      .cmp .le (factTerm field) (.lit (regoScalar upper))]
  else pure [.cmp t.operator.cmp (factTerm field) (.lit (regoScalar t.value))]

/-- `_violation_clauses`: the failing conditions and their messages, with the clause filled in. A
range has two. -/
def violationClauses (t : NumericalThreshold) (clause : String) :
    Except CompileError (List (Literal × Term)) := do
  let field ← thresholdField t
  let scope := if truthy t.appliesTo then " for " ++ t.appliesTo.getD "" else ""
  let quoted (s : String) : Term := .quoted (replace "\x7bclause\x7d" clause s)
  if t.operator = .range then
    let upper ← upperBound t
    let message (relation : String) (bound : Decimal) : Term :=
      .sprintf (quoted ("%s is %v %s, " ++ relation ++ " of %v %s" ++ scope ++
          " (clause \x7bclause\x7d)"))
        (.array [quoted t.metric, factTerm field, quoted t.unit, .lit (regoScalar bound),
          quoted t.unit])
    pure [(.cmp .lt (factTerm field) (.lit (regoScalar t.value)),
        message "below the required minimum" t.value),
      (.cmp .gt (factTerm field) (.lit (regoScalar upper)),
        message "above the allowed maximum" upper)]
  else
    let message : Term :=
      .sprintf (quoted ("%s is %v %s, which fails the required condition (%s %v %s" ++ scope ++
          ", clause \x7bclause\x7d)"))
        (.array [quoted t.metric, factTerm field, quoted t.unit, quoted t.operator.value,
          .lit (regoScalar t.value), quoted t.unit])
    pure [(.cmp t.operator.negation (factTerm field) (.lit (regoScalar t.value)), message)]

/-! ## The module -/

/-- What the parts of a rule compile to. -/
structure RegoParts where
  package : String
  clause : String
  digest : String
  guard : Option Literal
  conditions : List (NumericalThreshold × List Literal)
  violations : List (Literal × Term)

def regoParts (rule : ExtractedComplianceRule) : Except CompileError RegoParts := do
  if rule.deterministicLogic.isEmpty then
    throw (.valueError ("Rule " ++ rule.ruleId ++ " has no deterministic_logic to compile."))
  let primaryEntity := rule.targetEntities.head?.bind (·.normalizedEntity)
  let domain := orText rule.regulatoryDomain (resolveDomain rule.regulator primaryEntity)
  let clause := orText rule.clauseNumber "unscoped"
  let conditions ← rule.deterministicLogic.mapM passCondition
  let violations ← rule.deterministicLogic.mapM fun t => violationClauses t clause
  pure
    { package := regoPackageName rule.regulator domain rule.circularNumber rule.clauseNumber
      clause := clause
      digest := orText rule.canonicalFactsDigest
        (computeCanonicalFactsDigest rule.deterministicLogic)
      guard := entityGuard rule
      conditions := rule.deterministicLogic.zip conditions
      violations := violations.flatten }

/-- `cond_<i>`. -/
def condName (i : Nat) : String := "cond_" ++ toString i

/-- The reference to the guard, where there is one. -/
def RegoParts.guardBody (p : RegoParts) : List Literal :=
  if p.guard.isSome then [.holds (.rule "entity_matches")] else []

/-- An optional text as `json.dumps` writes it. -/
def jsonText (s : Option String) : Json := (s.map Json.str).getD .null

/-- The `decision` object. -/
def decisionTerm (rule : ExtractedComplianceRule) (ruleVersion : Int) (p : RegoParts) : Term :=
  .object
    [("allow", .rule "allow"), ("violations", .rule "violation"), ("rule_id", .quoted rule.ruleId),
      ("rule_version", .lit (.int ruleVersion)), ("clause_number", .quoted p.clause),
      ("circular_number", .lit (jsonText rule.circularNumber)),
      ("obligation_type", .quoted rule.obligationType.value),
      ("source_sha256", .quoted rule.sourceSha256),
      ("source_document_sha256", .lit (jsonText rule.sourceDocumentSha256)),
      ("extracted_text_sha256", .lit (jsonText rule.extractedTextSha256)),
      ("canonical_facts_digest", .quoted p.digest)]

/-- A rule `name if { … }`. -/
def ifRule (name : String) (body : List Literal) : Rule := .complete name (.lit (.bool true)) body

def RegoParts.guardRules (p : RegoParts) : List Rule :=
  p.guard.toList.map fun g => ifRule "entity_matches" [g]

def RegoParts.condRules (p : RegoParts) : List Rule :=
  p.conditions.zipIdx.map fun c => ifRule (condName c.2) c.1.2

def RegoParts.allowBody (p : RegoParts) : List Literal :=
  p.guardBody ++ p.conditions.zipIdx.map fun c => .holds (.rule (condName c.2))

def RegoParts.violationRules (p : RegoParts) : List Rule :=
  p.violations.map fun v =>
    .partialSet "violation" (.var "msg") (p.guardBody ++ [v.1, .assign "msg" v.2])

/-- The rules of the module, in the order they are written. -/
def regoModule (rule : ExtractedComplianceRule) (ruleVersion : Int) (p : RegoParts) : Module where
  package := p.package
  rules :=
    .default "allow" (.bool false) :: (p.guardRules ++ p.condRules ++
      ifRule "allow" p.allowBody :: (p.violationRules ++
      [.complete "deny" (.rule "violation") [],
        .complete "decision" (decisionTerm rule ruleVersion p) []]))

/-! ## Its text -/

def indent : String := "    "

/-- The lines of `name if { … }`, a body of more than one line. -/
def ifLines (head : String) (body : List String) : List String :=
  (head ++ " if \x7b") :: (body.map (indent ++ ·) ++ ["\x7d", ""])

/-- The lines of a condition; the second one of a range is indented twice. -/
def conditionLines : List Literal → List String
  | [] => []
  | l :: rest => l.text :: rest.map fun l => indent ++ l.text

def metadataLines (rule : ExtractedComplianceRule) (ruleVersion : Int) (generatedAt : DateTime)
    (p : RegoParts) : List String :=
  let metrics := rule.deterministicLogic.map (·.metric)
  let title :=
    if metrics.length = 1 then String.join metrics ++ " Compliance Rule"
    else "Multi-Condition Compliance Rule (" ++ ", ".intercalate metrics ++ ")"
  let optional (key : String) (s : Option String) : List String :=
    if truthy s then ["#   " ++ key ++ ": " ++ s.getD ""] else []
  ["# METADATA", "# title: " ++ title,
    "# description: Auto-compiled from SEBI clause " ++ p.clause, "# custom:",
    "#   rule_id: " ++ rule.ruleId, "#   rule_version: " ++ toString ruleVersion,
    "#   clause_number: " ++ p.clause,
    "#   circular_number: " ++ orText rule.circularNumber "unknown",
    "#   source_sha256: " ++ rule.sourceSha256] ++
  optional "source_document_sha256" rule.sourceDocumentSha256 ++
  optional "extracted_text_sha256" rule.extractedTextSha256 ++
  ["#   canonical_facts_digest: " ++ p.digest,
    "#   obligation_type: " ++ rule.obligationType.value,
    "#   generated_at: " ++ generatedAt.isoformat ++ "Z",
    "#   compiler: sebi-rego-compiler/1.0.0"]

def regoLines (rule : ExtractedComplianceRule) (ruleVersion : Int) (generatedAt : DateTime)
    (p : RegoParts) : List String :=
  metadataLines rule ruleVersion generatedAt p ++
  ["package " ++ p.package, "", "import rego.v1", "", "default allow := false", ""] ++
  p.guard.toList.flatMap (fun g => ["entity_matches if \x7b " ++ g.text ++ " \x7d", ""]) ++
  p.conditions.zipIdx.flatMap (fun c =>
    ("# " ++ c.1.1.metric ++ " " ++ c.1.1.operator.value ++ " " ++ c.1.1.value.repr ++
      c.1.1.unit) :: ifLines (condName c.2) (conditionLines c.1.2)) ++
  ifLines "allow" (p.allowBody.map (·.text)) ++
  p.violations.flatMap (fun v => ifLines "violation contains msg"
    ((p.guardBody ++ [v.1, .assign "msg" v.2]).map (·.text))) ++
  ["deny := violation", "", "decision := " ++ (decisionTerm rule ruleVersion p).text, ""]

/-- The module with its provenance. -/
def compiledRego (rule : ExtractedComplianceRule) (ruleVersion : Int) (generatedAt : DateTime)
    (p : RegoParts) : CompiledRego :=
  let regoCode := "\n".intercalate (regoLines rule ruleVersion generatedAt p)
  { ruleId := rule.ruleId
    package := p.package
    regoCode := regoCode
    thresholdsCompiled := rule.deterministicLogic.length
    ruleVersion := ruleVersion
    policySha256 := some (hexdigest regoCode)
    canonicalFactsDigest := some p.digest }

def compileRuleToRego (rule : ExtractedComplianceRule) (ruleVersion : Int)
    (generatedAt : DateTime) : Except CompileError CompiledRego :=
  (regoParts rule).map (compiledRego rule ruleVersion generatedAt)

end RegEngine.Compiler
