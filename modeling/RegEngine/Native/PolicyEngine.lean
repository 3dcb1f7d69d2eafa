import RegEngine.Lib.Binary64
import RegEngine.Lib.Buffer

/-!
# The policy kernel

`native/include/regengine/policy_types.h` and `policy_engine.h`: a policy as a flat list of threshold
checks over numbered facts, and its evaluation. A check's slot lies in the facts vector, and a policy
has no more checks than there is room for.
-/

namespace RegEngine.Native

open Lib

def kMaxChecksPerPolicy : Nat := 32

def kMaxFactSlots : Nat := 64

def kRuleIdMaxLen : Nat := 80

structure ThresholdCheck where
  fieldSlot : Fin kMaxFactSlots
  op : UInt8
  threshold : Binary64
  deriving DecidableEq

/-- `CompiledPolicy`; its default is the value-initialised one. -/
structure CompiledPolicy where
  ruleId : List UInt8 := []
  entityTypeHash : UInt32 := 0
  checks : List ThresholdCheck := []
  length_ruleId : ruleId.length ≤ kRuleIdMaxLen := by simp
  length_checks : checks.length ≤ kMaxChecksPerPolicy := by simp

structure OrderFacts where
  entityTypeHash : UInt32 := 0
  values : Fin kMaxFactSlots → Binary64

inductive Decision where
  | allow
  | deny
  deriving DecidableEq

/-- The switch on the operator. -/
def ThresholdCheck.satisfied (check : ThresholdCheck) (value : Binary64) : Bool :=
  match check.op.toNat with
  | 0 => check.threshold.le value
  | 1 => check.threshold.lt value
  | 2 => value.le check.threshold
  | 3 => value.lt check.threshold
  | 4 => value.eq check.threshold
  | _ => false

def evaluate (policy : CompiledPolicy) (facts : OrderFacts) : Bool :=
  if policy.entityTypeHash ≠ 0 ∧ policy.entityTypeHash ≠ facts.entityTypeHash then false
  else policy.checks.all fun check => check.satisfied (facts.values check.fieldSlot)

def evaluateDecision (policy : CompiledPolicy) (facts : OrderFacts) : Decision :=
  if evaluate policy facts then .allow else .deny

/-- The variant on a caller's vector, which may end before a slot. -/
def evaluateRaw (policy : CompiledPolicy) (values : List Binary64) (entityTypeHash : UInt32) : Bool :=
  if policy.entityTypeHash ≠ 0 ∧ policy.entityTypeHash ≠ entityTypeHash then false
  else policy.checks.all fun check =>
    match values[check.fieldSlot.val]? with
    | none => false
    | some value => check.satisfied value

/-- One byte of the hash. -/
def fnv1aStep (hash : UInt32) (byte : UInt8) : UInt32 := (hash ^^^ byte.toUInt32) * 0x01000193

/-- 32-bit FNV-1a. -/
def fnv1aHash (data : List UInt8) : UInt32 := data.foldl fnv1aStep 0x811c9dc5

/-!
## The policy loader

`native/include/regengine/policy_loader.h`: the compact binary format, read from bytes that nobody
vouches for. `loadPolicy` returns the result and the policy it leaves in `out`.
-/

def kRpkbMagic : Nat := 0x314B5052

def kRpkbFormatVersion : Nat := 1

/-- `sizeof(RpkbHeader)`. -/
def headerSize : Nat := 16

/-- `sizeof(ThresholdCheck)`. -/
def checkSize : Nat := 16

structure RpkbHeader where
  magic : Nat
  formatVersion : Nat
  ruleIdLen : Nat
  entityTypeHash : UInt32
  numChecks : Nat

inductive LoadResult where
  | ok
  | truncated
  | badMagic
  | unsupportedVersion
  | ruleIdTooLong
  | tooManyChecks
  | fieldSlotOutOfRange
  deriving DecidableEq, Repr

/-- The number of `width` bytes at an offset. -/
def field (data : List UInt8) (offset width : Nat) : Nat := leNat ((data.drop offset).take width)

/-- The `memcpy` of the header. -/
def readHeader (data : List UInt8) : RpkbHeader where
  magic := field data 0 4
  formatVersion := field data 4 2
  ruleIdLen := field data 6 2
  entityTypeHash := UInt32.ofNat (field data 8 4)
  numChecks := field data 12 2

/-- The record of a check; none when its slot is out of range. -/
def readCheck (data : List UInt8) : Option ThresholdCheck :=
  let slot := field data 0 2
  if h : slot < kMaxFactSlots then
    some
      { fieldSlot := ⟨slot, h⟩
        op := UInt8.ofNat (field data 2 1)
        threshold := ⟨BitVec.ofNat 64 (field data 8 8)⟩ }
  else none

/-- The records of `n` checks. -/
def readChecks : Nat → List UInt8 → Option (List ThresholdCheck)
  | 0, _ => some []
  | n + 1, data => do
    let check ← readCheck data
    let checks ← readChecks n (data.drop checkSize)
    pure (check :: checks)

theorem length_readChecks {n : Nat} {data : List UInt8} {checks : List ThresholdCheck}
    (h : readChecks n data = some checks) : checks.length = n := by
  induction n generalizing data checks with
  | zero =>
    cases h
    rfl
  | succ n ih =>
    obtain ⟨check, -, h⟩ := Option.bind_eq_some_iff.1 h
    obtain ⟨rest, hrest, h⟩ := Option.bind_eq_some_iff.1 h
    cases h
    rw [List.length_cons, ih hrest]

def loadPolicy (data : List UInt8) : LoadResult × CompiledPolicy :=
  if data.length < headerSize then (.truncated, {})
  else
    let header := readHeader data
    if header.magic ≠ kRpkbMagic then (.badMagic, {})
    else if header.formatVersion ≠ kRpkbFormatVersion then (.unsupportedVersion, {})
    else if hid : kRuleIdMaxLen < header.ruleIdLen then (.ruleIdTooLong, {})
    else if hnum : kMaxChecksPerPolicy < header.numChecks then (.tooManyChecks, {})
    else
      let checksOffset := headerSize + header.ruleIdLen
      if data.length < checksOffset + header.numChecks * checkSize then (.truncated, {})
      else
        match h : readChecks header.numChecks (data.drop checksOffset) with
        -- the policy filled so far is reset
        | none => (.fieldSlotOutOfRange, {})
        | some checks =>
          (.ok,
            { ruleId := (data.drop headerSize).take header.ruleIdLen
              entityTypeHash := header.entityTypeHash
              checks := checks
              length_ruleId := (List.length_take_le _ _).trans (Nat.not_lt.1 hid)
              length_checks := (length_readChecks h).trans_le (Nat.not_lt.1 hnum) })

end RegEngine.Native
