import RegEngine.Backtest.CandidateEvaluator
import RegEngine.Compiler.JsonLogic
import RegEngine.Hitl.Orchestrator
import RegEngine.Lib.IntText

/-!
# The self-healing loop

`app/healing`: the static checks and isolated test cases of `detectors.py`, the deterministic fixes of
`repair_agent.py` and the loop of `orchestrator.py`. What the language model suggests, `float` of a text and the
text of an error of Python's own operations are parameters; times, stack traces and the tracker are left out.
-/

namespace RegEngine.Healing

open Lib Lib.Python Compiler Hitl Backtest

inductive PolicyErrorType where
  | syntaxError
  | compileError
  | runtimeCrash
  | invalidJsonLogicType
  deriving DecidableEq

def PolicyErrorType.value : PolicyErrorType → String
  | syntaxError => "syntax_error"
  | compileError => "compile_error"
  | runtimeCrash => "runtime_crash"
  | invalidJsonLogicType => "invalid_json_logic_type"

inductive RepairStrategy where
  | deterministicFix
  | llmRepairAgent
  | unfixable
  deriving DecidableEq

def RepairStrategy.value : RepairStrategy → String
  | deterministicFix => "deterministic_fix"
  | llmRepairAgent => "llm_repair_agent"
  | unfixable => "unfixable"

structure TestCaseResult where
  description : String
  passed : Bool
  detail : Option String := none

/-- A dictionary of JSON-Logic. -/
abbrev Logic := List (String × Json)

structure PolicyFailure where
  ruleId : String
  regoCode : Option String := none
  jsonLogic : Option Logic := none
  package : Option String := none
  dataSchema : Option (List (String × String)) := none
  violationMessageTemplate : Option String := none
  thresholdsCompiled : Nat := 0
  errorType : PolicyErrorType
  errorMessage : String
  attemptNumber : Nat := 0

structure RepairSuggestion where
  canRepair : Bool
  repairedRego : Option String := none
  repairedJsonLogic : Option Logic := none
  repairNotes : String

structure RepairAttempt where
  attemptNumber : Nat
  strategy : RepairStrategy
  repairNotes : String
  repairedRego : Option String := none
  repairedJsonLogic : Option Logic := none
  testResults : List TestCaseResult := []
  passedTests : Bool := false
  resultingFailure : Option PolicyFailure := none

inductive HealingOutcome where
  | healed
  | escalatedMaxRetries
  | escalatedUnfixable
  deriving DecidableEq

structure CompilationResult where
  ruleId : String
  compiled : Bool
  rego : Option CompiledRego := none
  jsonLogic : Option JsonLogicRule := none
  hitlFlags : List HITLFlag := []

structure SelfHealingResult where
  ruleId : String
  outcome : HealingOutcome
  attempts : List RepairAttempt
  finalCompilation : Option CompilationResult := none
  hitlFlag : Option HITLFlag := none

/-! ## `detectors.py` -/

/-- `_OPA_ERROR_CODE_MAP`. -/
def opaErrorCodeMap : List (String × PolicyErrorType) :=
  [("rego_parse_error", .syntaxError), ("rego_unsafe_var_error", .compileError), ("rego_type_error", .compileError),
    ("rego_recursion_error", .compileError), ("rego_compile_error", .compileError)]

def classifyOpaErrorMessage (message : String) : PolicyErrorType :=
  ((opaErrorCodeMap.find? fun e => contains (lower message) e.1).map (·.2)).getD .compileError

/-- `build_failure_from_opa_error`: only the module and the error are known. -/
def buildFailureFromOpaError (ruleId regoCode message : String) : PolicyFailure :=
  { ruleId := ruleId
    regoCode := some regoCode
    errorType := classifyOpaErrorMessage message
    errorMessage := message }

/-- The closing bracket of an opening one. -/
def closer : Char → Option Char
  | '\x7b' => some '\x7d'
  | '(' => some ')'
  | '[' => some ']'
  | _ => none

/-- The opening bracket of a closing one. -/
def opener : Char → Option Char
  | '\x7d' => some '\x7b'
  | ')' => some '('
  | ']' => some '['
  | _ => none

/-- What the bracket scan ends with: the open brackets, the string it is in, and an issue if it stopped. -/
structure BracketScan where
  stack : List Char := []
  inString : Option Char := none
  issue : Option String := none

/-- The loop over the characters; `previous` is the one before. -/
def scanBrackets (stack : List Char) (inString : Option Char) (previous : Char) (i : Nat) :
    List Char → BracketScan
  | [] => ⟨stack, inString, none⟩
  | ch :: rest =>
    match inString with
    | some quote =>
      scanBrackets stack (if ch = quote ∧ previous ≠ '\\' then none else some quote) ch (i + 1) rest
    | none =>
      if ch = '"' ∨ ch = '\x60' then scanBrackets stack (some ch) ch (i + 1) rest
      else if (closer ch).isSome then scanBrackets (stack ++ [ch]) none ch (i + 1) rest
      else
        match opener ch with
        | some o =>
          if stack.getLast? = some o then scanBrackets stack.dropLast none ch (i + 1) rest
          else
            ⟨stack, none, some ("Unbalanced '" ++ ch.toString ++ "' at character offset " ++ toString i ++
              " (no matching '" ++ o.toString ++ "' open on the stack).")⟩
        | none => scanBrackets stack none ch (i + 1) rest

def checkRegoStructure (regoCode : String) : List String :=
  let scan := scanBrackets [] none ' ' 0 regoCode.toList
  let unclosed :=
    if scan.inString = none ∧ scan.stack ≠ [] then
      ["Unclosed " ++ reprList (scan.stack.map (·.toString)) ++ " -- " ++ toString scan.stack.length ++
        " bracket/brace/paren(s) never closed."]
    else []
  let noPackage := if contains regoCode "package " then [] else ["Missing 'package <name>' declaration."]
  let noAllow :=
    if contains regoCode "default allow" then []
    else if contains regoCode "allow :=" ∨ contains regoCode "allow if" then
      ["Missing 'default allow := false'. Without a default, " ++ "\x60allow\x60 is UNDEFINED (not false) whenever no " ++
        "conditional \x60allow\x60 rule matches -- a materially different, less safe semantics than the rest of " ++
        "this codebase's compiled policies (see app.compiler.rego_compiler's module docstring: " ++
        "'safe-by-default: missing data denies, never silently permits')."]
    else
      ["No 'allow' rule found (neither a default nor a conditional one) -- OPA would evaluate this policy as " ++
        "always-undefined."]
  scan.issue.toList ++ unclosed ++ noPackage ++ noAllow

structure TestFixture where
  description : String
  input : Json
  expectAllow : Json

def boolText (b : Bool) : String := if b then "True" else "False"

mutual

/-- `repr` of a value. -/
def reprJson : Json → String
  | .null => "None"
  | .bool b => boolText b
  | .int n => toString n
  | .float x => x.repr
  | .str s => reprText s
  | .arr items => "[" ++ ", ".intercalate (reprItems items) ++ "]"
  | .obj fields => "\x7b" ++ ", ".intercalate (reprFields fields) ++ "\x7d"

def reprItems : List Json → List String
  | [] => []
  | item :: items => reprJson item :: reprItems items

def reprFields : List (String × Json) → List String
  | [] => []
  | (key, value) :: fields => (reprText key ++ ": " ++ reprJson value) :: reprFields fields

end

section

-- The class and the text of an error of Python's own operations, of a rule on an input.
variable (crash : Logic → Json → String)

def crashDetail (logic : Logic) (input : Json) : EvalError → String
  | .unsupportedNode message => "Runtime evaluation crash (UnsupportedJsonLogicNodeError): " ++ message
  | .missingFact path => "Runtime evaluation crash (MissingFactError): " ++ reprText path
  | .typeError => "Unexpected evaluation error " ++ crash logic input

/-- One fixture on a rule that is structurally valid. -/
def runFixture (logic : Logic) (f : TestFixture) : TestCaseResult :=
  match evaluateJsonlogic f.input (.obj logic) with
  | .error e => ⟨f.description, false, some (crashDetail crash logic f.input e)⟩
  | .ok value =>
    if value.truthy = f.expectAllow.truthy then ⟨f.description, true, none⟩
    else
      ⟨f.description, false, some ("Expected allow=" ++ boolText f.expectAllow.truthy ++
        ", evaluator returned allow=" ++ boolText value.truthy ++ " for input=" ++ reprJson f.input ++ ".")⟩

def runIsolatedTestCases (logic : Logic) (fixtures : List TestFixture) : List TestCaseResult :=
  match validateJsonLogicAst "$" (.obj logic) with
  | .error message =>
    fixtures.map fun f => ⟨f.description, false, some ("AST failed structural validation: " ++ message)⟩
  | .ok () => fixtures.map (runFixture crash logic)

/-! ## `repair_agent.py` -/

/-- Whether a line holds the package declaration. -/
def isPackageLine (line : String) : Bool := startsWith (strip line) "package "

/-- Blank lines and imports, past which the default is inserted. -/
def isSkipped (line : String) : Bool := strip line = "" ∨ startsWith (strip line) "import "

/-- `_inject_default_allow`. -/
def injectDefaultAllow (regoCode : String) : String :=
  let lines := splitLines regoCode
  match lines.span (fun line => !isPackageLine line) with
  | (_, []) => regoCode
  | (before, declaration :: rest) =>
    let (skipped, after) := rest.span isSkipped
    "\n".intercalate (before ++ declaration :: skipped ++ "\ndefault allow := false" :: after)

/-- The first digits of a text, at least one, and what follows. -/
def takeDigits (cs : List Char) : Option (List Char) :=
  match cs.span fun c => (decimal? c).isSome with
  | ([], _) => none
  | (_ :: _, rest) => some rest

/-- `_NUMERIC_STRING_RE.match`: `$` also stands before a line feed at the end. -/
def isNumericString (s : String) : Bool :=
  let body := if s.toList.head? = some '-' then s.toList.tail else s.toList
  match takeDigits body with
  | none => false
  | some [] => true
  | some ['\n'] => true
  | some ('.' :: rest) => takeDigits rest = some [] ∨ takeDigits rest = some ['\n']
  | some _ => false

-- `float` of a numeric text.
variable (float : String → Json)

mutual

/-- `_coerce_numeric_json_logic_types`; none where `int` raises. -/
def coerceNumericJsonLogicTypes : Json → Option Json
  | .obj fields => (coerceFields fields).map .obj
  | .arr items => (coerceItems items).map .arr
  | .str s =>
    if isNumericString s then
      if contains s "." then some (float s) else (int? 10 s).map .int
    else some (.str s)
  | value => some value

def coerceItems : List Json → Option (List Json)
  | [] => some []
  | item :: items => do
    let item ← coerceNumericJsonLogicTypes item
    let items ← coerceItems items
    pure (item :: items)

def coerceFields : List (String × Json) → Option (List (String × Json))
  | [] => some []
  | (key, value) :: fields => do
    let value ← coerceNumericJsonLogicTypes value
    let fields ← coerceFields fields
    pure ((key, value) :: fields)

end

/-- The module with the default that a syntax error may be for the want of. -/
def regoFix (failure : PolicyFailure) : Option String :=
  failure.regoCode.bind fun rego =>
    if failure.errorType = .syntaxError ∧ rego ≠ "" ∧ !contains rego "default allow" ∧ contains rego "package " then
      some (injectDefaultAllow rego)
    else none

/-- The tree with numbers for numeric texts, if that changes it. -/
def jsonLogicFix (failure : PolicyFailure) : Option (Option Logic) :=
  match failure.jsonLogic with
  | some logic =>
    if failure.errorType = .invalidJsonLogicType then
      (coerceFields float logic).map fun coerced =>
        if (Json.obj coerced).pyEq (.obj logic) then none else some coerced
    else some none
  | none => some none

/-- `apply_deterministic_fixes`; none where the coercion raises. -/
def applyDeterministicFixes (failure : PolicyFailure) : Option RepairSuggestion := do
  let logicFix ← jsonLogicFix float failure
  let notes :=
    ((regoFix failure).toList.map fun _ =>
      "Injected missing 'default allow := false' immediately after the package declaration.") ++
    logicFix.toList.map fun _ =>
      "Coerced numeric-looking string operand(s) in the JSON-Logic AST to real JSON numbers."
  if notes = [] then
    pure ⟨false, none, none, "No deterministic fix applies to error_type=" ++ reprText failure.errorType.value ++
      " (message: " ++ reprText (String.ofList (failure.errorMessage.toList.take 200)) ++
      "). Escalating to the LLM Policy Repair Agent."⟩
  else
    pure ⟨true, (regoFix failure).orElse fun _ => failure.regoCode, logicFix.orElse fun _ => failure.jsonLogic,
      " ".intercalate notes⟩

/-- `repair_policy`; none where the fixes or the language model raise. -/
def repairPolicy (hfApiToken : Option String)
    (runLlmRepair : PolicyFailure → List RepairAttempt → Option RepairSuggestion) (failure : PolicyFailure)
    (priorAttempts : List RepairAttempt) : Option (RepairSuggestion × RepairStrategy) := do
  let deterministic ← applyDeterministicFixes float failure
  if deterministic.canRepair then
    return (deterministic, .deterministicFix)
  if !truthy hfApiToken then
    return (⟨false, none, none, deterministic.repairNotes ++ " No HUGGINGFACEHUB_API_TOKEN configured, so the LLM " ++
      "Policy Repair Agent could not be tried either."⟩, .unfixable)
  let suggestion ← runLlmRepair failure priorAttempts
  pure (suggestion, if suggestion.canRepair then .llmRepairAgent else .unfixable)

/-! ## `orchestrator.py` -/

/-- A dictionary that is there and has a key. -/
def truthyLogic (logic : Option Logic) : Bool := logic.any fun l => !l.isEmpty

/-- `_validate_repair`: the results of the test cases, and the structural issues. -/
def validateRepair (repairedRego : Option String) (repairedJsonLogic : Option Logic) (testFixtures : List TestFixture) :
    List TestCaseResult × List String :=
  (if truthyLogic repairedJsonLogic ∧ testFixtures ≠ [] then
      runIsolatedTestCases crash (repairedJsonLogic.getD []) testFixtures
    else [],
   if truthy repairedRego then checkRegoStructure (repairedRego.getD "") else [])

/-- `passed`, of a suggestion. -/
def passes (testFixtures : List TestFixture) (s : RepairSuggestion) : Bool :=
  let (testResults, structuralIssues) := validateRepair crash s.repairedRego s.repairedJsonLogic testFixtures
  structuralIssues.isEmpty && (testFixtures.isEmpty || testResults.all (·.passed))

/-- The texts, or the first of two that is not empty. -/
def orEmpty (a b : String) : String := if a = "" then b else a

/-- The attempt of a suggestion that was tried. -/
def attemptOf (testFixtures : List TestFixture) (attemptNumber : Nat) (s : RepairSuggestion) (strategy : RepairStrategy) :
    RepairAttempt where
  attemptNumber := attemptNumber
  strategy := strategy
  repairNotes := s.repairNotes
  repairedRego := s.repairedRego
  repairedJsonLogic := s.repairedJsonLogic
  testResults := (validateRepair crash s.repairedRego s.repairedJsonLogic testFixtures).1
  passedTests := passes crash testFixtures s

/-- The input of the next attempt. -/
def nextFailure (testFixtures : List TestFixture) (attemptNumber : Nat) (current : PolicyFailure) (s : RepairSuggestion) :
    PolicyFailure :=
  let (testResults, structuralIssues) := validateRepair crash s.repairedRego s.repairedJsonLogic testFixtures
  { current with
    regoCode := orOption s.repairedRego current.regoCode
    jsonLogic := if truthyLogic s.repairedJsonLogic then s.repairedJsonLogic else current.jsonLogic
    errorMessage := orEmpty ("; ".intercalate structuralIssues)
      (orEmpty ("; ".intercalate ((testResults.filter fun t => !t.passed).map fun t => t.detail.getD ""))
        "Repair did not pass isolated test cases.")
    errorType := if structuralIssues = [] then current.errorType else .syntaxError
    attemptNumber := attemptNumber }

/-- The loop of `heal`, with the number of rounds left; none where `repair` raises. -/
def rounds (repair : PolicyFailure → List RepairAttempt → Option (RepairSuggestion × RepairStrategy))
    (testFixtures : List TestFixture) : Nat → Nat → PolicyFailure → List RepairAttempt →
    Option (HealingOutcome × List RepairAttempt)
  | 0, _, _, attempts => some (.escalatedMaxRetries, attempts)
  | left + 1, roundIdx, current, attempts =>
    (repair current attempts).bind fun (s, strategy) =>
      let attemptNumber := roundIdx + 1
      if !s.canRepair then
        some (.escalatedUnfixable, attempts ++ [⟨attemptNumber, .unfixable, s.repairNotes, none, none, [], false, none⟩])
      else
        let attempt := attemptOf crash testFixtures attemptNumber s strategy
        if attempt.passedTests then some (.healed, attempts ++ [attempt])
        else
          let next := nextFailure crash testFixtures attemptNumber current s
          rounds repair testFixtures left (roundIdx + 1) next
            (attempts ++ [{ attempt with resultingFailure := some next }])

/-- `_build_healed_compilation`. -/
def buildHealedCompilation (originalFailure : PolicyFailure) (healedAttempt : RepairAttempt) :
    CompilationResult × HITLFlag :=
  let rego : Option CompiledRego :=
    if truthy healedAttempt.repairedRego ∧ truthy originalFailure.package then
      some { ruleId := originalFailure.ruleId
             package := originalFailure.package.getD ""
             regoCode := healedAttempt.repairedRego.getD ""
             thresholdsCompiled := originalFailure.thresholdsCompiled }
    else none
  let jsonLogic : Option JsonLogicRule :=
    if truthyLogic healedAttempt.repairedJsonLogic then
      originalFailure.dataSchema.map fun dataSchema =>
        { ruleId := originalFailure.ruleId
          logic := .obj (healedAttempt.repairedJsonLogic.getD [])
          dataSchema := dataSchema
          violationMessageTemplate := originalFailure.violationMessageTemplate.getD ""
          thresholdsCompiled := originalFailure.thresholdsCompiled }
    else none
  let hitlFlag : HITLFlag :=
    { flagId := "self-heal:" ++ originalFailure.ruleId ++ ":" ++ toString healedAttempt.attemptNumber
      reasonCode := .selfHealedRequiresReview
      severity := .advisory
      description := "Automatically repaired by the self-healing policy loop after a " ++
        originalFailure.errorType.value ++ " failure (attempt " ++ toString healedAttempt.attemptNumber ++
        ", strategy=" ++ healedAttempt.strategy.value ++ "). Repair notes: " ++ healedAttempt.repairNotes ++
        " A human must confirm this repair before it is trusted." }
  (⟨originalFailure.ruleId, true, rego, jsonLogic, [hitlFlag]⟩, hitlFlag)

/-- `SelfHealingLoop.heal`; none where `repair` raises. -/
def heal (repair : PolicyFailure → List RepairAttempt → Option (RepairSuggestion × RepairStrategy)) (maxRetries : Int)
    (failure : PolicyFailure) (testFixtures : List TestFixture) : Option SelfHealingResult :=
  (rounds crash repair testFixtures maxRetries.toNat 0 failure []).map fun (outcome, attempts) =>
    let healed := (attempts.getLast?.filter fun _ => outcome = .healed).map (buildHealedCompilation failure)
    ⟨failure.ruleId, outcome, attempts, healed.map (·.1), healed.map (·.2)⟩

end

end RegEngine.Healing
