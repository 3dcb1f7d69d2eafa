import RegEngine.Native.PolicyEngine
import RegEngine.Native.PybindModule

/-!
# What the loader leaves behind

A rejected buffer leaves the value-initialised policy, which has no entity and no checks: it is the
policy that allows everything.

* `evaluateRaw_ofFn`: the two evaluations agree on a whole vector.
* `loadPolicy_of_parts`: a buffer with a good header and good records is accepted as it reads.
* `loadPolicy_rejected`: what a rejected buffer leaves; `evaluate_rejected`: and that this allows.
-/

namespace RegEngine.Native

open Lib

/-! ## Evaluation -/

theorem evaluate_eq_true_iff {policy : CompiledPolicy} {facts : OrderFacts} :
    evaluate policy facts = true ↔
      (policy.entityTypeHash = 0 ∨ policy.entityTypeHash = facts.entityTypeHash) ∧
        ∀ check ∈ policy.checks, check.satisfied (facts.values check.fieldSlot) = true := by
  unfold evaluate
  split
  · rename_i h
    simp [h.1, h.2]
  · rename_i h
    have hguard : policy.entityTypeHash = 0 ∨ policy.entityTypeHash = facts.entityTypeHash := by
      by_contra hne
      exact h (not_or.1 hne)
    simp [hguard]

theorem evaluateRaw_eq_true_iff {policy : CompiledPolicy} {values : List Binary64} {hash : UInt32} :
    evaluateRaw policy values hash = true ↔
      (policy.entityTypeHash = 0 ∨ policy.entityTypeHash = hash) ∧
        ∀ check ∈ policy.checks, ∃ value, values[check.fieldSlot.val]? = some value ∧
          check.satisfied value = true := by
  unfold evaluateRaw
  split
  · rename_i h
    simp [h.1, h.2]
  · rename_i h
    have hguard : policy.entityTypeHash = 0 ∨ policy.entityTypeHash = hash := by
      by_contra hne
      exact h (not_or.1 hne)
    simp only [List.all_eq_true, hguard, true_and]
    apply forall₂_congr
    intro check _
    cases values[check.fieldSlot.val]? <;> simp

/-- On a vector with a value for every slot the two evaluations are one. -/
theorem evaluateRaw_ofFn (policy : CompiledPolicy) (facts : OrderFacts) :
    evaluateRaw policy (List.ofFn facts.values) facts.entityTypeHash = evaluate policy facts := by
  rw [Bool.eq_iff_iff, evaluateRaw_eq_true_iff, evaluate_eq_true_iff]
  simp

/-! ## A rejected buffer -/

/-- The policy denies every order, by both evaluations. -/
def Denies (policy : CompiledPolicy) : Prop :=
  (∀ facts, evaluate policy facts = false) ∧
    ∀ values hash, evaluateRaw policy values hash = false

/-- The reset of the loader. -/
theorem loadPolicy_rejected {data : List UInt8} (h : (loadPolicy data).1 ≠ .ok) :
    (loadPolicy data).2 = {} := by
  unfold loadPolicy at h ⊢
  split
  · rfl
  · dsimp only at h ⊢
    split
    · rfl
    · split
      · rfl
      · split
        · rfl
        · split
          · rfl
          · split
            · rfl
            · split
              · rfl
              · rename_i hlen hmagic hversion hid hnum hrest _ hread
                rw [if_neg hlen, if_neg hmagic, if_neg hversion, dif_neg hid, dif_neg hnum,
                  if_neg hrest] at h
                split at h
                · rename_i hnone
                  rw [hread] at hnone
                  cases hnone
                · exact absurd rfl h

theorem evaluate_empty (facts : OrderFacts) : evaluate {} facts = true := rfl

theorem evaluateRaw_empty (values : List Binary64) (hash : UInt32) :
    evaluateRaw {} values hash = true := rfl

/-- **A rejected buffer leaves a policy that allows every order.** -/
theorem evaluate_rejected {data : List UInt8} (h : (loadPolicy data).1 ≠ .ok) :
    (∀ facts, evaluate (loadPolicy data).2 facts = true) ∧
      (∀ values hash, evaluateRaw (loadPolicy data).2 values hash = true) ∧
      ¬ Denies (loadPolicy data).2 := by
  rw [loadPolicy_rejected h]
  refine ⟨evaluate_empty, evaluateRaw_empty, fun hdenies => ?_⟩
  have hraw := hdenies.2 [] 0
  rw [evaluateRaw_empty] at hraw
  cases hraw

/-- The empty buffer. -/
theorem evaluate_rejected_nil : (∀ facts, evaluate (loadPolicy []).2 facts = true) ∧
    (∀ values hash, evaluateRaw (loadPolicy []).2 values hash = true) ∧
    ¬ Denies (loadPolicy []).2 := by
  have hrejected : (loadPolicy []).1 ≠ .ok := by decide
  exact evaluate_rejected hrejected

/-- The empty buffer is truncated, and what it leaves allows an order. -/
theorem not_forall_rejected_denies :
    ¬ ∀ data : List UInt8, (loadPolicy data).1 ≠ .ok → Denies (loadPolicy data).2 := by
  intro h
  have hraw := (h [] (by decide)).2 [] 0
  exact absurd hraw (by decide)

/-! ## An accepted buffer -/

theorem loadPolicy_of_parts {data : List UInt8} {checks : List ThresholdCheck}
    (hlen : headerSize ≤ data.length) (hmagic : (readHeader data).magic = kRpkbMagic)
    (hversion : (readHeader data).formatVersion = kRpkbFormatVersion)
    (hid : (readHeader data).ruleIdLen ≤ kRuleIdMaxLen)
    (hnum : (readHeader data).numChecks ≤ kMaxChecksPerPolicy)
    (hrest : headerSize + (readHeader data).ruleIdLen + (readHeader data).numChecks * checkSize ≤
      data.length)
    (hread : readChecks (readHeader data).numChecks
      (data.drop (headerSize + (readHeader data).ruleIdLen)) = some checks) :
    (loadPolicy data).1 = .ok ∧
      (loadPolicy data).2.ruleId = (data.drop headerSize).take (readHeader data).ruleIdLen ∧
      (loadPolicy data).2.entityTypeHash = (readHeader data).entityTypeHash ∧
      (loadPolicy data).2.checks = checks := by
  unfold loadPolicy
  rw [if_neg (Nat.not_lt.2 hlen)]
  dsimp only
  rw [if_neg (not_not.2 hmagic), if_neg (not_not.2 hversion), dif_neg (Nat.not_lt.2 hid),
    dif_neg (Nat.not_lt.2 hnum), if_neg (Nat.not_lt.2 hrest)]
  split
  · rename_i hnone
    rw [hread] at hnone
    cases hnone
  · rename_i found hfound
    rw [hread] at hfound
    cases hfound
    exact ⟨rfl, rfl, rfl, rfl⟩

/-!
## What the loader admits

The loader checks the slot of each record and nothing else of it: the operator byte is kept as it comes,
and an identifier may fill its array to the last byte.

* `readChecks_op`: the operator of a check is the byte of its record.
* `loadPolicy_ok`: the parts of an accepted buffer.
* `wellFormed_iff`: an admitted policy is well formed just when each operator byte is below five, and
  the identifier is shorter than its array and holds no NUL.
-/

/-! ### Records -/

theorem field_drop (data : List UInt8) (k offset width : Nat) :
    field (data.drop k) offset width = field data (k + offset) width := by
  rw [field, field, List.drop_drop]

theorem field_one_lt (data : List UInt8) (offset : Nat) : field data offset 1 < 256 := by
  have hlength : ((data.drop offset).take 1).length ≤ 1 := List.length_take_le _ _
  calc field data offset 1 < 256 ^ ((data.drop offset).take 1).length := leNat_lt _
    _ ≤ 256 ^ 1 := Nat.pow_le_pow_right (by decide) hlength

theorem readCheck_op {data : List UInt8} {check : ThresholdCheck} (h : readCheck data = some check) :
    check.op.toNat = field data 2 1 := by
  rw [readCheck] at h
  split at h
  · cases h
    show (UInt8.ofNat (field data 2 1)).toNat = _
    rw [UInt8.toNat_ofNat', Nat.mod_eq_of_lt (field_one_lt data 2)]
  · cases h

/-- The operators of the checks are the third bytes of the records. -/
theorem readChecks_op {n : Nat} {data : List UInt8} {checks : List ThresholdCheck}
    (h : readChecks n data = some checks) :
    checks.map (·.op.toNat) = (List.range n).map fun i => field data (checkSize * i + 2) 1 := by
  induction n generalizing data checks with
  | zero =>
    cases h
    rfl
  | succ n ih =>
    obtain ⟨check, hcheck, h⟩ := Option.bind_eq_some_iff.1 h
    obtain ⟨rest, hrest, h⟩ := Option.bind_eq_some_iff.1 h
    cases h
    rw [List.map_cons, readCheck_op hcheck, ih hrest, List.range_succ_eq_map, List.map_cons,
      List.map_map]
    congr 1
    apply List.map_congr_left
    intro i _
    rw [field_drop]
    show _ = field data (checkSize * (i + 1) + 2) 1
    rw [Nat.mul_succ]
    congr 1
    omega

/-! ### An accepted buffer -/

/-- The bytes that the header declares as the identifier. -/
def encodedRuleId (data : List UInt8) : List UInt8 :=
  (data.drop headerSize).take (readHeader data).ruleIdLen

/-- The operator byte of a record. -/
def operatorByte (data : List UInt8) (i : Nat) : Nat :=
  field data (headerSize + (readHeader data).ruleIdLen + (checkSize * i + 2)) 1

theorem loadPolicy_ok {data : List UInt8} (h : (loadPolicy data).1 = .ok) :
    headerSize + (readHeader data).ruleIdLen ≤ data.length ∧
      (loadPolicy data).2.ruleId = encodedRuleId data ∧
      readChecks (readHeader data).numChecks
        (data.drop (headerSize + (readHeader data).ruleIdLen)) = some (loadPolicy data).2.checks := by
  by_cases hlen : data.length < headerSize
  · rw [loadPolicy, if_pos hlen] at h
    cases h
  by_cases hmagic : (readHeader data).magic ≠ kRpkbMagic
  · rw [loadPolicy, if_neg hlen] at h
    dsimp only at h
    rw [if_pos hmagic] at h
    cases h
  by_cases hversion : (readHeader data).formatVersion ≠ kRpkbFormatVersion
  · rw [loadPolicy, if_neg hlen] at h
    dsimp only at h
    rw [if_neg hmagic, if_pos hversion] at h
    cases h
  by_cases hid : kRuleIdMaxLen < (readHeader data).ruleIdLen
  · rw [loadPolicy, if_neg hlen] at h
    dsimp only at h
    rw [if_neg hmagic, if_neg hversion, dif_pos hid] at h
    cases h
  by_cases hnum : kMaxChecksPerPolicy < (readHeader data).numChecks
  · rw [loadPolicy, if_neg hlen] at h
    dsimp only at h
    rw [if_neg hmagic, if_neg hversion, dif_neg hid, dif_pos hnum] at h
    cases h
  by_cases hrest : data.length <
      headerSize + (readHeader data).ruleIdLen + (readHeader data).numChecks * checkSize
  · rw [loadPolicy, if_neg hlen] at h
    dsimp only at h
    rw [if_neg hmagic, if_neg hversion, dif_neg hid, dif_neg hnum, if_pos hrest] at h
    cases h
  cases hread : readChecks (readHeader data).numChecks
      (data.drop (headerSize + (readHeader data).ruleIdLen)) with
  | none =>
    rw [loadPolicy, if_neg hlen] at h
    dsimp only at h
    rw [if_neg hmagic, if_neg hversion, dif_neg hid, dif_neg hnum, if_neg hrest] at h
    split at h
    · cases h
    · rename_i found hfound
      rw [hread] at hfound
      cases hfound
  | some checks =>
    obtain ⟨_, hruleId, -, hchecks⟩ := loadPolicy_of_parts (Nat.not_lt.1 hlen) (not_not.1 hmagic)
      (not_not.1 hversion) (Nat.not_lt.1 hid) (Nat.not_lt.1 hnum) (Nat.not_lt.1 hrest) hread
    refine ⟨by omega, hruleId, ?_⟩
    rw [hchecks]

/-- The policy that a buffer leaves is well formed. -/
structure WellFormed (data : List UInt8) : Prop where
  /-- Each operator is one of the five, so no evaluation takes the default branch. -/
  operators : ∀ check ∈ (loadPolicy data).2.checks, check.op.toNat < 5
  slots : ∀ check ∈ (loadPolicy data).2.checks, check.fieldSlot.val < kMaxFactSlots
  terminated : 0 ∈ (loadPolicy data).2.ruleIdArray
  ruleId : cString (loadPolicy data).2.ruleIdArray = some (encodedRuleId data)

/-- The condition on the bytes. -/
structure Admissible (data : List UInt8) : Prop where
  operators : ∀ i < (readHeader data).numChecks, operatorByte data i < 5
  shorter : (readHeader data).ruleIdLen < kRuleIdMaxLen
  noNul : 0 ∉ encodedRuleId data

theorem operators_iff {data : List UInt8} (h : (loadPolicy data).1 = .ok) :
    (∀ check ∈ (loadPolicy data).2.checks, check.op.toNat < 5) ↔
      ∀ i < (readHeader data).numChecks, operatorByte data i < 5 := by
  obtain ⟨-, -, hread⟩ := loadPolicy_ok h
  have hops := readChecks_op hread
  have hmap : (∀ check ∈ (loadPolicy data).2.checks, check.op.toNat < 5) ↔
      ∀ op ∈ (loadPolicy data).2.checks.map (·.op.toNat), op < 5 := by
    rw [List.forall_mem_map]
  rw [hmap, hops, List.forall_mem_map]
  simp only [List.mem_range, field_drop, operatorByte]

theorem length_encodedRuleId {data : List UInt8} (h : (loadPolicy data).1 = .ok) :
    (encodedRuleId data).length = (readHeader data).ruleIdLen := by
  obtain ⟨hlength, -, -⟩ := loadPolicy_ok h
  rw [encodedRuleId, List.length_take, List.length_drop]
  omega

theorem cString_ruleIdArray_iff {data : List UInt8} (h : (loadPolicy data).1 = .ok) :
    cString (loadPolicy data).2.ruleIdArray = some (encodedRuleId data) ↔
      (readHeader data).ruleIdLen < kRuleIdMaxLen ∧ 0 ∉ encodedRuleId data := by
  obtain ⟨-, hruleId, -⟩ := loadPolicy_ok h
  have hlength := length_encodedRuleId h
  constructor
  · intro hread
    obtain ⟨hnul, rest, hrest⟩ := cString_eq_some_iff.1 hread
    have harray := (loadPolicy data).2.length_ruleIdArray
    rw [hrest, List.length_append, List.length_cons, hlength] at harray
    exact ⟨by omega, hnul⟩
  · intro ⟨hshorter, hnul⟩
    rw [CompiledPolicy.ruleIdArray, hruleId, hlength]
    exact cString_padded hnul (Nat.sub_pos_of_lt hshorter)

/-- **What is admitted is well formed just when its bytes are admissible.** -/
theorem wellFormed_iff {data : List UInt8} (h : (loadPolicy data).1 = .ok) :
    WellFormed data ↔ Admissible data := by
  constructor
  · intro hformed
    obtain ⟨hshorter, hnul⟩ := (cString_ruleIdArray_iff h).1 hformed.ruleId
    exact ⟨(operators_iff h).1 hformed.operators, hshorter, hnul⟩
  · intro hbytes
    have hread := (cString_ruleIdArray_iff h).2 ⟨hbytes.shorter, hbytes.noNul⟩
    obtain ⟨-, rest, hrest⟩ := cString_eq_some_iff.1 hread
    refine ⟨(operators_iff h).2 hbytes.operators, fun check _ => check.fieldSlot.isLt, ?_, hread⟩
    rw [hrest]
    exact List.mem_append_right _ List.mem_cons_self

/-! ### Two buffers -/

/-- A header with an identifier of 80 letters and no checks. -/
def filledBuffer : List UInt8 :=
  [0x52, 0x50, 0x4B, 0x31, 1, 0, 80, 0, 0, 0, 0, 0, 0, 0, 0, 0] ++ List.replicate 80 0x41

/-- One check, whose operator byte is `op`, under the identifier `A`. -/
def checkBuffer (op : UInt8) : List UInt8 :=
  [0x52, 0x50, 0x4B, 0x31, 1, 0, 1, 0, 0, 0, 0, 0, 1, 0, 0, 0] ++ [0x41] ++
    [0, 0, op, 0, 0, 0, 0, 0, 0, 0, 0, 0, 0, 0, 0, 0]

theorem wellFormed_checkBuffer :
    (loadPolicy (checkBuffer 4)).1 = .ok ∧
      (WellFormed (checkBuffer 4) ↔ Admissible (checkBuffer 4)) ∧ Admissible (checkBuffer 4) := by
  have hok : (loadPolicy (checkBuffer 4)).1 = .ok := by decide +kernel
  exact ⟨hok, wellFormed_iff hok, by decide +kernel, by decide +kernel, by decide +kernel⟩

/-- An identifier that fills its array is read on behind it; an operator byte of five is admitted. -/
theorem not_forall_wellFormed :
    ((loadPolicy filledBuffer).1 = .ok ∧ ¬ WellFormed filledBuffer) ∧
      (loadPolicy (checkBuffer 5)).1 = .ok ∧ ¬ WellFormed (checkBuffer 5) := by
  refine ⟨⟨by decide +kernel, fun h => ?_⟩, by decide +kernel, fun h => ?_⟩
  · have hnone : cString (loadPolicy filledBuffer).2.ruleIdArray = none := by decide +kernel
    have hread := h.ruleId
    rw [hnone] at hread
    cases hread
  · have hop : ¬ ∀ check ∈ (loadPolicy (checkBuffer 5)).2.checks, check.op.toNat < 5 := by
      decide +kernel
    exact hop h.operators

end RegEngine.Native
