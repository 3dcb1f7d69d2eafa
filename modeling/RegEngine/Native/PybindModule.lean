import RegEngine.Lib.Json
import RegEngine.Native.PolicyEngine
import RegEngine.Lib.Buffer

/-!
# The Python binding

`native/bindings/pybind_module.cpp`: a loaded policy with the slots of its facts, and its evaluation on
an input document. The vector of values is as long as there are slots, so each slot lies in it.
-/

namespace RegEngine.Native

open Lib

/-- What the binding raises: the `runtime_error` of its constructor, or a failed `cast`. -/
inductive BindingError where
  | runtimeError (message : String)
  | castError
  deriving DecidableEq

def loadResultMessage : LoadResult → String
  | .ok => "ok"
  | .truncated => "buffer is shorter than the RPKB1 header/records declare"
  | .badMagic => "bad magic bytes -- not an RPKB1 policy buffer"
  | .unsupportedVersion => "unsupported RPKB1 format_version"
  | .ruleIdTooLong => "rule_id exceeds RULE_ID_MAX_LEN"
  | .tooManyChecks => "num_checks exceeds MAX_CHECKS_PER_POLICY"
  | .fieldSlotOutOfRange => "a check's field_slot exceeds MAX_FACT_SLOTS"

/-- An input document: `{"entity_type": …, "facts": {…}}`, each key optional. -/
structure InputDoc where
  entityType : Option Json
  facts : Option (List (String × Json))

structure PyCompiledPolicy where
  compiled : CompiledPolicy
  fieldSlots : List (String × Nat)
  inRange : ∀ p ∈ fieldSlots, p.2 < fieldSlots.length

/-- The constructor. -/
def PyCompiledPolicy.new (data : List UInt8) (fieldSlots : List (String × Nat))
    (inRange : ∀ p ∈ fieldSlots, p.2 < fieldSlots.length) : Except BindingError PyCompiledPolicy :=
  match loadPolicy data with
  | (.ok, compiled) => .ok ⟨compiled, fieldSlots, inRange⟩
  | (result, _) =>
    .error (.runtimeError ("Failed to load RPKB1 policy: " ++ loadResultMessage result))

/-- `cast<double>()`. -/
def castDouble : Json → Except BindingError Binary64
  | .bool b => .ok (.ofRat (if b then 1 else 0))
  | .int n => if (Binary64.ofRat n).exponent = 2047 then .error .castError else .ok (.ofRat n)
  | .float d => .ok (.ofRat d.toRat)
  | _ => .error .castError

/-- `cast<std::string>()`. -/
def castString : Json → Except BindingError (List UInt8)
  | .str s => .ok (s.toList.flatMap String.utf8EncodeChar)
  | _ => .error .castError

/-- The loop that fills in the values; the flag is `have_all_referenced_fields`. -/
def fillValues (facts : List (String × Json)) :
    List (String × Nat) → List Binary64 → Bool → Except BindingError (List Binary64 × Bool)
  | [], values, haveAll => .ok (values, haveAll)
  | (name, slot) :: slots, values, haveAll =>
    match (Json.obj facts).get? name with
    | some fact => do fillValues facts slots (values.set slot (← castDouble fact)) haveAll
    | none => fillValues facts slots values false

def PyCompiledPolicy.evaluateFacts (policy : PyCompiledPolicy) (doc : InputDoc) :
    Except BindingError Bool := do
  let zeros := List.replicate policy.fieldSlots.length (Binary64.ofRat 0)
  let (values, haveAll) ←
    match doc.facts with
    | some facts => fillValues facts policy.fieldSlots zeros true
    | none => pure (zeros, policy.fieldSlots.isEmpty)
  let hash ←
    match doc.entityType with
    | some entityType => do pure (fnv1aHash (← castString entityType))
    | none => pure 0
  if haveAll then pure (evaluateRaw policy.compiled values hash) else pure false

/-!
## The identifier of a loaded policy

`native/src/c_api.cpp` and the getter of `native/bindings/pybind_module.cpp`: both read the array of the
identifier as a C string.
-/

/-- `rule_id`: the array, whose bytes behind the copied ones stay zero. -/
def CompiledPolicy.ruleIdArray (policy : CompiledPolicy) : List UInt8 :=
  policy.ruleId ++ List.replicate (kRuleIdMaxLen - policy.ruleId.length) 0

theorem CompiledPolicy.length_ruleIdArray (policy : CompiledPolicy) :
    policy.ruleIdArray.length = kRuleIdMaxLen := by
  have hid := policy.length_ruleId
  rw [ruleIdArray, List.length_append, List.length_replicate]
  omega

/-- `regengine_policy_load`: the result and the handle, which is null unless the buffer is accepted. -/
def regenginePolicyLoad (data : List UInt8) : LoadResult × Option CompiledPolicy :=
  match loadPolicy data with
  | (.ok, policy) => (.ok, some policy)
  | (result, _) => (result, none)

/-- `regengine_policy_rule_id`: the array that the pointer leads to. -/
def regenginePolicyRuleId : Option CompiledPolicy → List UInt8
  | none => [0]
  | some policy => policy.ruleIdArray

/-- The getter makes a string from the pointer; none where it reads on behind the array. -/
def PyCompiledPolicy.ruleId (policy : PyCompiledPolicy) : Option (List UInt8) :=
  cString policy.compiled.ruleIdArray

end RegEngine.Native
