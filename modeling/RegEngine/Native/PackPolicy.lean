import RegEngine.Lib.Buffer
import RegEngine.Lib.Except
import RegEngine.Lib.Json
import RegEngine.Native.PolicyEngine

/-!
# `pack_policy`

`native/tools/pack_policy.py`: a JSON-Logic tree as the bytes that the loader reads, with the slot of
each fact. A nested conjunction is flattened; the equality on `entity_type` becomes the hash of the
header.
-/

namespace RegEngine.Native

open Lib Lib.Python

/-- What packing raises; `typeError` stands for the errors of Python's own operations. -/
inductive PackError where
  | unsupportedPolicyShape (message : String)
  | overflowError
  | typeError
  deriving DecidableEq

/-- `_OPERATOR_CODES`. -/
def operatorCodes : List (String × Nat) := [(">=", 0), (">", 1), ("<=", 2), ("<", 3), ("==", 4)]

def maxChecksPerPolicy : Nat := 32

def maxFactSlots : Nat := 64

def ruleIdMaxLen : Nat := 80

/-- `s.encode("utf-8")`. -/
def encode (s : String) : List UInt8 := s.toList.flatMap String.utf8EncodeChar

/-- `_fnv1a`: on unbounded integers, masked to 32 bits. -/
def fnv1a (data : List UInt8) : Nat :=
  data.foldl (fun h byte => ((h ^^^ byte.toNat) * 0x01000193) &&& 0xFFFFFFFF) 0x811C9DC5

/-- `float(v)` of a number. -/
def toFloat : Json → Except PackError Binary64
  | .bool b => .ok (.ofRat (if b then 1 else 0))
  | .int n => if (Binary64.ofRat n).exponent = 2047 then .error .overflowError else .ok (.ofRat n)
  | .float d => .ok (.ofRat d.toRat)
  | _ => .error .typeError

/-- `isinstance(v, (int, float))`. -/
def isNumeric : Json → Bool
  | .bool _ | .int _ | .float _ => true
  | _ => false

/-! ## Slots -/

/-- `_FieldSlotResolver`: the slot of each field, in first-seen order. -/
structure FieldSlotResolver where
  slots : List (String × Nat) := []
  numbered : slots.map (·.2) = List.range slots.length := by rfl
  distinct : (slots.map (·.1)).Nodup := by simp
  bounded : slots.length ≤ maxFactSlots := by simp

/-- `self.slots[field] = len(self.slots)`. -/
def FieldSlotResolver.add (resolver : FieldSlotResolver) (field : String)
    (hnew : field ∉ resolver.slots.map (·.1)) (hroom : resolver.slots.length < maxFactSlots) :
    FieldSlotResolver where
  slots := resolver.slots ++ [(field, resolver.slots.length)]
  numbered := by simp [resolver.numbered, List.range_succ]
  distinct := by
    rw [List.map_append, List.nodup_append]
    refine ⟨resolver.distinct, List.nodup_singleton _, fun a ha b hb heq => hnew ?_⟩
    obtain rfl : b = field := by simpa using hb
    exact heq ▸ ha
  bounded := by
    rw [List.length_append]
    exact hroom

theorem notMem_of_lookup {slots : List (String × Nat)} {field : String}
    (h : slots.lookup field = none) : field ∉ slots.map (·.1) := by
  intro hmem
  obtain ⟨slot, hslot, rfl⟩ := List.mem_map.1 hmem
  have hne := List.lookup_eq_none_iff.1 h slot hslot
  simp at hne

/-- The slot of a field: its own, or the next one. -/
def FieldSlotResolver.slotOf (resolver : FieldSlotResolver) (field : String) :
    Except PackError (FieldSlotResolver × Nat) :=
  match h : resolver.slots.lookup field with
  | some slot => .ok (resolver, slot)
  | none =>
    if hfull : maxFactSlots ≤ resolver.slots.length then
      .error (.unsupportedPolicyShape
        ("Policy references more than " ++ toString maxFactSlots ++ " distinct fact fields."))
    else
      .ok (resolver.add field (notMem_of_lookup h) (Nat.lt_of_not_le hfull), resolver.slots.length)

def FieldSlotResolver.resolve (resolver : FieldSlotResolver) (varPath : String) :
    Except PackError (FieldSlotResolver × Nat) :=
  if ¬ startsWith varPath "facts." then
    .error (.unsupportedPolicyShape
      ("Expected a 'facts.<field>' var path, got " ++ reprText varPath ++ "."))
  else resolver.slotOf (String.ofList (varPath.toList.drop 6))

/-! ## Flattening -/

/-- An entry of `checks`: a slot, the code of an operator and a threshold. -/
structure PackedCheck where
  slot : Nat
  code : Nat
  value : Binary64

/-- The resolver and the checks so far. -/
structure Packing where
  resolver : FieldSlotResolver := {}
  checks : List PackedCheck := []

/-- `_extract_entity_type_hash`: the hash of an `entity_type` equality, or 0 and the node. -/
def extractEntityTypeHash (node : Json) : Except PackError (Nat × Option Json) :=
  match node with
  | .obj _ =>
    match node.get? "==" with
    | some (.arr [left, right]) =>
      match left.get? "var", right with
      | some (.str path), .str value =>
        if path = "entity_type" then .ok (fnv1a (encode value), none) else .ok (0, some node)
      | _, _ => .ok (0, some node)
    | _ => .ok (0, some node)
  | _ => .error .typeError

/-- The check of one comparison. -/
def appendCheck (packing : Packing) (op : String) (code : Nat) (operands : Json) :
    Except PackError Packing :=
  match operands with
  | .arr [left, right] =>
    match left.get? "var" with
    | none => .error (.unsupportedPolicyShape ("Left operand of '" ++ op ++
        "' must be a \x7b'var': ...\x7d node, got " ++ left.pyRepr ++ "."))
    | some path => do
      if ¬ isNumeric right then
        throw (.unsupportedPolicyShape ("Right operand of '" ++ op ++ "' must be numeric, got " ++
          right.pyRepr ++ "."))
      match path with
      | .str varPath =>
        let (resolver, slot) ← packing.resolver.resolve varPath
        let value ← toFloat right
        pure ⟨resolver, packing.checks ++ [⟨slot, code, value⟩]⟩
      | _ => throw .typeError
  | _ => .error (.unsupportedPolicyShape ("'" ++ op ++ "' requires exactly two operands, got " ++
      operands.pyRepr ++ "."))

/-- The loop over the operators of a node without `and`. -/
def flattenOperators (packing : Packing) (node : Json) :
    List (String × Nat) → Except PackError Packing
  | [] => .error (.unsupportedPolicyShape
      ("Unsupported JSON-Logic node for the native fast path: " ++ node.pyRepr))
  | (op, code) :: rest =>
    match (Json.str op).pyIn node with
    | none => .error .typeError
    | some false => flattenOperators packing node rest
    | some true =>
      match node.get? op with
      | none => .error .typeError
      | some operands => appendCheck packing op code operands

/-- A node that is not a dictionary: it has no item under a name. -/
def flattenOther (packing : Packing) (node : Json) : Except PackError Packing :=
  match (Json.str "and").pyIn node with
  | some false => flattenOperators packing node operatorCodes
  | _ => .error .typeError

mutual

/-- `_flatten_checks`. -/
def flattenChecks (packing : Packing) : Json → Except PackError Packing
  | .obj fields =>
    if "and" ∈ fields.map (·.1) then flattenAnd packing fields
    else flattenOperators packing (.obj fields) operatorCodes
  | node => flattenOther packing node

/-- The children under the key `and`. -/
def flattenAnd (packing : Packing) : List (String × Json) → Except PackError Packing
  | [] => .ok packing
  | (key, value) :: fields =>
    if key = "and" then flattenChildren packing value else flattenAnd packing fields

def flattenChildren (packing : Packing) : Json → Except PackError Packing
  | .arr items => flattenItems packing items
  | .obj fields => fields.foldlM (fun packing f => flattenOther packing (.str f.1)) packing
  | .str s => s.toList.foldlM (fun packing c => flattenOther packing (.str (String.singleton c))) packing
  | _ => .error .typeError

def flattenItems (packing : Packing) : List Json → Except PackError Packing
  | [] => .ok packing
  | item :: items => do flattenItems (← flattenChecks packing item) items

end

/-! ## Packing -/

/-- Iterating over a value. -/
def iterate : Json → Except PackError (List Json)
  | .arr items => .ok items
  | .obj fields => .ok (fields.map fun f => .str f.1)
  | .str s => .ok (s.toList.map fun c => .str (String.singleton c))
  | _ => .error .typeError

/-- The scan of the children of the outermost `and` for its entity clauses: the last hash that is not
zero, and the other children. -/
def scanChildren : Nat → List Json → Except PackError (Nat × List Json)
  | entityTypeHash, [] => .ok (entityTypeHash, [])
  | entityTypeHash, child :: children => do
    let (h, rest) ← extractEntityTypeHash child
    if h ≠ 0 ∧ rest.isNone then scanChildren h children
    else
      let (entityTypeHash, others) ← scanChildren entityTypeHash children
      pure (entityTypeHash, child :: others)

/-- `_HEADER.pack`. -/
def packHeader (ruleIdLen entityTypeHash numChecks : Nat) : List UInt8 :=
  encode "RPK1" ++ leBytes 2 1 ++ leBytes 2 ruleIdLen ++ leBytes 4 entityTypeHash ++
    leBytes 2 numChecks ++ leBytes 2 0

/-- `_CHECK_RECORD.pack`. -/
def packCheck (check : PackedCheck) : List UInt8 :=
  leBytes 2 check.slot ++ leBytes 1 check.code ++ List.replicate 5 0 ++
    leBytes 8 check.value.word.toNat

/-- The entity hash and the checks of a tree. -/
def flattenLogic (logic : Json) : Except PackError (Nat × Packing) :=
  match logic.get? "and" with
  | some children => do
    let (entityTypeHash, thresholdChildren) ← scanChildren 0 (← iterate children)
    pure (entityTypeHash, ← flattenItems {} thresholdChildren)
  | none => do
    let (entityTypeHash, remainder) ← extractEntityTypeHash logic
    match remainder with
    | some node => pure (entityTypeHash, ← flattenChecks {} node)
    | none => pure (entityTypeHash, {})

/-- The bytes of a tree and its slots. -/
def packPolicy (ruleId : String) (logic : Json) :
    Except PackError (List UInt8 × List (String × Nat)) := do
  let ruleIdBytes := encode ruleId
  if ruleIdMaxLen < ruleIdBytes.length then
    throw (.unsupportedPolicyShape ("rule_id " ++ reprText ruleId ++ " (" ++
      toString ruleIdBytes.length ++ " bytes) exceeds RULE_ID_MAX_LEN=" ++ toString ruleIdMaxLen ++
      "."))
  let (entityTypeHash, packing) ← flattenLogic logic
  if maxChecksPerPolicy < packing.checks.length then
    throw (.unsupportedPolicyShape ("Policy has " ++ toString packing.checks.length ++
      " threshold checks, exceeding MAX_CHECKS_PER_POLICY=" ++ toString maxChecksPerPolicy ++ "."))
  pure (packHeader ruleIdBytes.length entityTypeHash packing.checks.length ++ ruleIdBytes ++
    packing.checks.flatMap packCheck, packing.resolver.slots)

/-! ## What is packed -/

theorem FieldSlotResolver.slot_lt (resolver : FieldSlotResolver) {p : String × Nat}
    (h : p ∈ resolver.slots) : p.2 < resolver.slots.length := by
  have hmem : p.2 ∈ resolver.slots.map (·.2) := List.mem_map_of_mem h
  rw [resolver.numbered] at hmem
  exact List.mem_range.1 hmem

theorem packPolicy_ok {ruleId : String} {logic : Json} {bytes : List UInt8}
    {slots : List (String × Nat)} (h : packPolicy ruleId logic = .ok (bytes, slots)) :
    ∃ hash packing, flattenLogic logic = .ok (hash, packing) ∧
      (encode ruleId).length ≤ ruleIdMaxLen ∧ packing.checks.length ≤ maxChecksPerPolicy ∧
      slots = packing.resolver.slots ∧
      bytes = packHeader (encode ruleId).length hash packing.checks.length ++ encode ruleId ++
        packing.checks.flatMap packCheck := by
  unfold packPolicy at h
  dsimp only at h
  split at h
  · cases h
  · rename_i hid
    obtain ⟨-, -, h⟩ := Except.bind_ok_iff.1 h
    obtain ⟨⟨hash, packing⟩, hflatten, h⟩ := Except.bind_ok_iff.1 h
    dsimp only at h
    split at h
    · cases h
    · rename_i hnum
      cases h
      exact ⟨hash, packing, hflatten, Nat.not_lt.1 hid, Nat.not_lt.1 hnum, rfl, rfl⟩

/-- The slots are those of a resolver: each lies in the vector of values. -/
theorem packPolicy_inRange {ruleId : String} {logic : Json} {bytes : List UInt8}
    {slots : List (String × Nat)} (h : packPolicy ruleId logic = .ok (bytes, slots)) :
    ∀ p ∈ slots, p.2 < slots.length := by
  obtain ⟨hash, packing, -, -, -, rfl, -⟩ := packPolicy_ok h
  exact fun p hp => packing.resolver.slot_lt hp

end RegEngine.Native
