import RegEngine.Compiler.Models
import RegEngine.Execution.Evaluator
import RegEngine.Compiler.Rego
import RegEngine.Lib.Except

/-!
# `PolicyRegistry`

`app/execution/policy_registry.py`: which compiled policies apply to which entity type. The Redis
hash is a function from its fields; a policy without an entity guard is stored under `"*"`.
-/

namespace RegEngine.Execution

open Lib Compiler

structure PolicyRegistry where
  hash : String → Option (List PolicyEntry)

/-- `entity_types or ["*"]`. -/
def scopeOf (entityTypes : List String) : List String :=
  if entityTypes.isEmpty then ["*"] else entityTypes

/-- The entry stored for a module. -/
def entry (c : CompiledRego) : PolicyEntry :=
  { ruleId := c.ruleId
    package := c.package
    ruleVersion := c.ruleVersion
    policySha256 := c.policySha256
    canonicalFactsDigest := c.canonicalFactsDigest }

namespace PolicyRegistry

def empty : PolicyRegistry := ⟨fun _ => none⟩

/-- The entries stored under a field of the hash. -/
def entries (R : PolicyRegistry) (key : String) : List PolicyEntry := (R.hash key).getD []

def hset (R : PolicyRegistry) (key : String) (es : List PolicyEntry) : PolicyRegistry :=
  ⟨fun k => if k = key then some es else R.hash k⟩

/-- The loop body of `register`, for one field. -/
def registerKey (c : CompiledRego) (R : PolicyRegistry) (key : String) : PolicyRegistry :=
  R.hset key (((R.entries key).filter fun e => e.ruleId ≠ c.ruleId) ++ [entry c])

def register (R : PolicyRegistry) (c : CompiledRego) (entityTypes : List String) :
    PolicyRegistry :=
  (scopeOf entityTypes).foldl (registerKey c) R

/-- The filtered entries of a field, or no field when none is left. -/
def unregister (R : PolicyRegistry) (ruleId : String) : PolicyRegistry :=
  ⟨fun k => (R.hash k).bind fun es =>
    let filtered := es.filter fun e => e.ruleId ≠ ruleId
    if filtered.isEmpty then none else some filtered⟩

/-- The first entry of each rule, past the rules already seen. -/
def dedupe (seen : List String) : List PolicyEntry → List PolicyEntry
  | [] => []
  | e :: es => if e.ruleId ∈ seen then dedupe seen es else e :: dedupe (e.ruleId :: seen) es

def policiesFor (R : PolicyRegistry) (entityType : String) : List PolicyEntry :=
  dedupe [] (R.entries entityType ++ R.entries "*")

/-- The rule is stored under this field. -/
def Lists (R : PolicyRegistry) (key ruleId : String) : Prop :=
  ∃ e ∈ R.entries key, e.ruleId = ruleId

instance (R : PolicyRegistry) (key ruleId : String) : Decidable (R.Lists key ruleId) :=
  inferInstanceAs (Decidable (∃ e ∈ R.entries key, e.ruleId = ruleId))

/-- The entry of the module already stands last under this field, as the only one of its rule. -/
def Stored (R : PolicyRegistry) (key : String) (c : CompiledRego) : Prop :=
  ((R.entries key).filter fun e => e.ruleId ≠ c.ruleId) ++ [entry c] = R.entries key

instance (R : PolicyRegistry) (key : String) (c : CompiledRego) : Decidable (R.Stored key c) :=
  inferInstanceAs (Decidable (_ = _))

end PolicyRegistry

/-! ## Runs of the registry -/

inductive RegistryOp
  | register (compiled : CompiledRego) (entityTypes : List String)
  | unregister (ruleId : String)

namespace PolicyRegistry

def applyOp (R : PolicyRegistry) : RegistryOp → PolicyRegistry
  | .register compiled entityTypes => R.register compiled entityTypes
  | .unregister ruleId => R.unregister ruleId

/-- The registry after these calls, from an empty hash. -/
def run (ops : List RegistryOp) : PolicyRegistry := ops.foldl applyOp empty

end PolicyRegistry

end RegEngine.Execution

/-!
## OPA answering for compiled modules

`OPAEngine.evaluate` of `app/execution/opa_engine.py` asks OPA for `data.<package>.decision`. A
policy's module is what `compile_rule_to_rego` emits; OPA evaluates it by Rego's rules, answers
without a result where the document is undefined and with an error on a conflict.
-/

namespace RegEngine.Execution

open Lib Lib.Calendar Lib.Rego Compiler

/-- The `decision` object of an answer. -/
def OPADecision.ofJson (j : Json) : OPADecision where
  allow := (j.get? "allow").bind Json.bool?
  violations := ((j.get? "violations").bind Json.arr?).map fun l => l.filterMap Json.str?
  circularNumber := (j.get? "circular_number").bind Json.str?
  clauseNumber := (j.get? "clause_number").bind Json.str?
  ruleVersion := (j.get? "rule_version").bind Json.int?
  policySha256 := (j.get? "policy_sha256").bind Json.str?
  canonicalFactsDigest := (j.get? "canonical_facts_digest").bind Json.str?
  sourceDocumentSha256 := (j.get? "source_document_sha256").bind Json.str?
  extractedTextSha256 := (j.get? "extracted_text_sha256").bind Json.str?
  sourceSha256 := (j.get? "source_sha256").bind Json.str?

/-- `OPAEngine.evaluate`, given what the query comes to. -/
def opaReply : Outcome Json → OPAReply
  | .conflict => .engineError
  | .undefined | .value .null => .undefined
  | .value j => .result (.ofJson j)

/-- A rule that `compile_rule_to_rego` compiles. -/
structure CompiledPolicy where
  rule : ExtractedComplianceRule
  ruleVersion : Int
  generatedAt : DateTime
  parts : RegoParts
  compiles : regoParts rule = .ok parts

namespace CompiledPolicy

def compiled (P : CompiledPolicy) : CompiledRego :=
  compiledRego P.rule P.ruleVersion P.generatedAt P.parts

def emitted (P : CompiledPolicy) : Module := regoModule P.rule P.ruleVersion P.parts

theorem compileRuleToRego_eq (P : CompiledPolicy) :
    compileRuleToRego P.rule P.ruleVersion P.generatedAt = .ok P.compiled := by
  rw [compileRuleToRego, P.compiles]
  rfl

/-- The policy of a rule that compiles. -/
def ofRule (rule : ExtractedComplianceRule) (ruleVersion : Int) (generatedAt : DateTime)
    (h : (regoParts rule).toOption.isSome = true) : CompiledPolicy where
  rule := rule
  ruleVersion := ruleVersion
  generatedAt := generatedAt
  parts := (regoParts rule).toOption.get h
  compiles := Except.eq_ok_get h

end CompiledPolicy

/-- The evaluator finds these policies for the transaction, and OPA answers for each by its
module. -/
structure Deployed (E : Evaluator) (sprintf : String → List Json → String)
    (tx : TransactionPayload) (policies : List CompiledPolicy) : Prop where
  applicable : E.policiesFor tx.entityType = policies.map fun P => entry P.compiled
  answers : ∀ P ∈ policies, E.opa P.compiled.package (inputDoc tx) =
    opaReply (P.emitted.query sprintf (inputDoc tx) "decision")

/-- `sprintf` of texts and numbers with the verbs `%s` and `%v`, which the messages use. -/
def formatVerbs : List Char → List Json → List Char
  | '%' :: 's' :: cs, .str s :: args => s.toList ++ formatVerbs cs args
  | '%' :: 'v' :: cs, .str s :: args => s.toList ++ formatVerbs cs args
  | '%' :: 'v' :: cs, v :: args => v.render.toList ++ formatVerbs cs args
  | c :: cs, args => c :: formatVerbs cs args
  | [], _ => []

def sprintfVerbs (format : String) (args : List Json) : String :=
  String.ofList (formatVerbs format.toList args)

/-- An evaluator in front of an OPA that holds one policy. -/
def evaluatorFor (P : CompiledPolicy) (utcnow : DateTime) : Evaluator where
  opa package doc :=
    if package = P.compiled.package then
      opaReply (P.emitted.query sprintfVerbs doc "decision")
    else .undefined
  policiesFor _ := [entry P.compiled]
  enqueue _ _ _ := ⟨"case-1", by decide⟩
  killSwitch := none
  utcnow := utcnow

theorem deployed_evaluatorFor (P : CompiledPolicy) (utcnow : DateTime) (tx : TransactionPayload) :
    Deployed (evaluatorFor P utcnow) sprintfVerbs tx [P] where
  applicable := rfl
  answers Q hQ := by
    obtain rfl := List.mem_singleton.1 hQ
    exact if_pos rfl

end RegEngine.Execution
