import RegEngine.Zkp.Witness

/-!
# What the margin circuits compare

The comparator of both circuits is satisfied exactly when the collected margin less the required one,
read modulo the order of the field, is below 2^64 (`greaterEqThan_iff`). As integers below the order the
margins are then in order unless the required one is larger by almost the whole field; and the inputs
that the witness generator builds satisfy the comparator exactly when the margins differ by less than
2^64, up to multiples of the order.
-/

namespace RegEngine.Zkp

open Lib Lib.Python Lib.Circom

theorem greaterEqThan_iff {a b : Scalar} : GreaterEqThan 64 a b 1 ↔ (a - b).val < 2 ^ 64 :=
  greaterEqThan_one_iff (by decide)

/-! ## Soundness -/

/-- The difference of two elements as an integer. -/
theorem val_sub_cases (a b : Scalar) :
    (b.val ≤ a.val ∧ (a - b).val = a.val - b.val) ∨
      (a.val < b.val ∧ (a - b).val = a.val + fieldModulus - b.val) := by
  have ha : a.val < fieldModulus := ZMod.val_lt a
  have hb : b.val < fieldModulus := ZMod.val_lt b
  rcases Nat.lt_or_ge a.val b.val with hlt | hle
  · have hcast : a - b = ((a.val + fieldModulus - b.val : ℕ) : Scalar) := by
      rw [Nat.cast_sub (by omega), Nat.cast_add, ZMod.natCast_self, add_zero, ZMod.natCast_zmod_val,
        ZMod.natCast_zmod_val]
    exact .inr ⟨hlt, by rw [hcast, ZMod.val_natCast_of_lt (by omega)]⟩
  · exact .inl ⟨hle, ZMod.val_sub hle⟩

/-- Margins that satisfy the comparator are in order unless the field wraps between them. -/
theorem ordered_iff {a b : Scalar} (h : GreaterEqThan 64 a b 1) :
    b.val ≤ a.val ↔ b.val ≤ a.val + (fieldModulus - 2 ^ 64) := by
  have hlt := greaterEqThan_iff.1 h
  have hmod : 2 ^ 64 < fieldModulus := by decide
  rcases val_sub_cases a b with ⟨hle, -⟩ | ⟨hlt', hval⟩
  · omega
  · rw [hval] at hlt
    omega

/-! ## Completeness -/

theorem val_intCast (n : Int) : ((n : Scalar).val : Int) = n % fieldModulus := ZMod.val_intCast n

/-- The texts of two integers, one of which is collected and the other required. -/
theorem greaterEqThan_intCast {c r : Int} :
    GreaterEqThan 64 (c : Scalar) (r : Scalar) 1 ↔ (c - r) % fieldModulus < 2 ^ 64 := by
  rw [greaterEqThan_iff, ← Int.cast_sub, ← val_intCast]
  exact_mod_cast Iff.rfl

theorem strInt_ok {n : Int} {text : String} (h : strInt n = .ok text) :
    int? 10 text = some n ∧ (Nat.toDigits 10 n.natAbs).length ≤ Ascii.maxStrDigits := by
  unfold strInt at h
  split at h
  · cases h
  · rename_i hlen
    cases h
    exact ⟨int?_toString (by omega), by omega⟩

/-- What a row of an accepted batch says of its transaction. -/
theorem witnessRow_ok {idx : Nat} {txn : PrivateTransactionRecord} {row : WitnessRow}
    (h : witnessRow idx txn = .ok row) : txn.requiredMargin ≤ txn.collectedMargin ∧
      signalOf row.collectedMargin = some (txn.collectedMargin : Scalar) ∧
      signalOf row.requiredMargin = some (txn.requiredMargin : Scalar) := by
  unfold witnessRow at h
  by_cases hlt : txn.collectedMargin < txn.requiredMargin
  · simp only [hlt, if_true] at h
    obtain ⟨_, _, h⟩ := Except.bind_ok_iff.1 h
    obtain ⟨_, _, h⟩ := Except.bind_ok_iff.1 h
    cases h
  · simp only [hlt, if_false] at h
    obtain ⟨txnIdField, _, h⟩ := Except.bind_ok_iff.1 h
    obtain ⟨collected, hc, h⟩ := Except.bind_ok_iff.1 h
    obtain ⟨required, hr, h⟩ := Except.bind_ok_iff.1 h
    cases h
    refine ⟨by omega, ?_, ?_⟩
    · rw [signalOf, (strInt_ok hc).1, Option.map_some]
    · rw [signalOf, (strInt_ok hr).1, Option.map_some]

theorem rows_of_generate {policyHash reportingPeriodId marginThreshold : TextOrInt}
    {transactions : List PrivateTransactionRecord} {size : Int} {w : ComplianceCollateralWitness}
    (h : generateComplianceCollateralWitness policyHash reportingPeriodId marginThreshold transactions
      size = .ok w) :
    transactions.zipIdx.mapM (fun t => witnessRow t.2 t.1) = .ok w.rows := by
  unfold generateComplianceCollateralWitness at h
  split at h
  · cases h
  · obtain ⟨_, _, h⟩ := Except.bind_ok_iff.1 h
    obtain ⟨_, _, h⟩ := Except.bind_ok_iff.1 h
    obtain ⟨_, _, h⟩ := Except.bind_ok_iff.1 h
    obtain ⟨rows, hrows, h⟩ := Except.bind_ok_iff.1 h
    cases h
    exact hrows

/-- The inputs built for an accepted batch. -/
theorem inputsCompare_iff {policyHash reportingPeriodId marginThreshold : TextOrInt}
    {transactions : List PrivateTransactionRecord} {size : Int} {w : ComplianceCollateralWitness}
    (hw : generateComplianceCollateralWitness policyHash reportingPeriodId marginThreshold transactions
      size = .ok w) :
    InputsCompare w ↔
      ∀ txn ∈ transactions, (txn.collectedMargin - txn.requiredMargin) % fieldModulus < 2 ^ 64 := by
  have hrows := rows_of_generate hw
  obtain ⟨hzip, -⟩ := Except.zip_mapM_ok hrows
  constructor
  · intro h txn htxn
    obtain ⟨idx, hidx⟩ : ∃ idx, (txn, idx) ∈ transactions.zipIdx := by
      obtain ⟨idx, hlt, rfl⟩ := List.mem_iff_getElem.1 htxn
      exact ⟨idx, List.mk_mem_zipIdx_iff_getElem?.2 (List.getElem?_eq_getElem hlt)⟩
    obtain ⟨c, hc, hfst⟩ := Except.exists_zip_left hrows hidx
    have hrow := hzip c hc
    rw [hfst] at hrow
    obtain ⟨-, hcollected, hrequired⟩ := witnessRow_ok hrow
    obtain ⟨collected, required, hc', hr', hgte⟩ := h c.2 (List.of_mem_zip hc).2
    rw [hcollected] at hc'
    rw [hrequired] at hr'
    rw [← Option.some.inj hc', ← Option.some.inj hr'] at hgte
    exact greaterEqThan_intCast.1 hgte
  · intro h row hrow
    obtain ⟨c, hc, rfl⟩ := Except.exists_zip_right hrows hrow
    obtain ⟨-, hcollected, hrequired⟩ := witnessRow_ok (hzip c hc)
    have htxn : c.1.1 ∈ transactions := List.fst_mem_of_mem_zipIdx (List.of_mem_zip hc).1
    exact ⟨_, _, hcollected, hrequired, greaterEqThan_intCast.2 (h _ htxn)⟩

/-- **What the circuit proves.** An assignment that satisfies the comparison constraints has its
margins in order exactly when no required margin is larger than the collected one by more than the
order of the field less 2^64; and the inputs built for an accepted batch satisfy the constraints
exactly when each difference of its margins is, modulo the order, below 2^64. -/
theorem collateral_comparisons_iff {batchSize : Nat} (s : CollateralSignals batchSize)
    (policyHash reportingPeriodId marginThreshold : TextOrInt)
    (transactions : List PrivateTransactionRecord) (size : Int) (w : ComplianceCollateralWitness) :
    (s.Comparisons →
      ((∀ i, (s.requiredMargin i).val ≤ (s.collectedMargin i).val) ↔
        ∀ i, (s.requiredMargin i).val ≤ (s.collectedMargin i).val + (fieldModulus - 2 ^ 64))) ∧
    (generateComplianceCollateralWitness policyHash reportingPeriodId marginThreshold transactions
        size = .ok w →
      (InputsCompare w ↔
        ∀ txn ∈ transactions, (txn.collectedMargin - txn.requiredMargin) % fieldModulus < 2 ^ 64)) :=
  ⟨fun hs => forall_congr' fun i => ordered_iff (hs i), inputsCompare_iff⟩

/-! ## Margins past 64 bits -/

/-- A transaction with a margin of 2^64 paise and nothing required. -/
def largeTransaction : PrivateTransactionRecord := ⟨"1", 2 ^ 64, 0, some 1⟩

theorem witnessRow_large (idx : Nat) : ∃ row, witnessRow idx largeTransaction = .ok row := by
  have hfield : largeTransaction.transactionIdField = .ok 1 := by decide +kernel
  have hcollected : strInt largeTransaction.collectedMargin = .ok "18446744073709551616" := by
    decide +kernel
  have hrequired : strInt largeTransaction.requiredMargin = .ok "0" := by decide +kernel
  have hle : ¬ largeTransaction.collectedMargin < largeTransaction.requiredMargin := by decide
  exact ⟨_, by simp only [witnessRow, hle, if_false, hfield, hcollected, hrequired]; rfl⟩

/-- A batch is accepted when the loop over its transactions is. -/
theorem generate_ok {transactions : List PrivateTransactionRecord} {rows : List WitnessRow}
    (h : transactions.zipIdx.mapM (fun t => witnessRow t.2 t.1) = .ok rows) :
    ∃ w, generateComplianceCollateralWitness (.int 1) (.int 1) (.int 1) transactions
      transactions.length = .ok w := by
  have hlen : ¬ ((transactions.length : Int) ≠ transactions.length) := fun hne => hne rfl
  exact ⟨_, by simp only [generateComplianceCollateralWitness, hlen, if_false,
    TextOrInt.toFieldElement, h]; rfl⟩

/-- A required margin of `p - 1` is proved against nothing collected, and a margin of 2^64 paise, where
nothing is required, is accepted by the generator and by no proof. -/
theorem not_comparisons_correct :
    ¬ (∀ s : CollateralSignals 4, s.Comparisons →
        ∀ i, (s.requiredMargin i).val ≤ (s.collectedMargin i).val) ∧
      ¬ ∀ transactions w, generateComplianceCollateralWitness (.int 1) (.int 1) (.int 1) transactions
        4 = .ok w → InputsCompare w := by
  refine ⟨fun h => ?_, fun h => ?_⟩
  · let s : CollateralSignals 4 :=
      ⟨0, 0, 0, 0, fun _ => 0, fun _ => -1, fun _ => 0, fun _ => 0, fun _ => 0, 0⟩
    have hone : ((0 : Scalar) - -1).val < 2 ^ 64 := by
      rw [zero_sub, neg_neg, ZMod.val_one]
      decide
    have hle : (-1 : Scalar).val ≤ (0 : Scalar).val := h s (fun _ => greaterEqThan_iff.2 hone) 0
    rw [ZMod.val_zero, Nat.le_zero, ZMod.val_eq_zero] at hle
    exact absurd hle (neg_ne_zero.2 one_ne_zero)
  · have hmapM : ∃ rows, ((List.replicate 4 largeTransaction).zipIdx.mapM
        fun t => witnessRow t.2 t.1) = .ok rows := by
      refine Except.exists_mapM_ok_iff.2 fun t ht => ?_
      rw [List.eq_of_mem_replicate (List.fst_mem_of_mem_zipIdx ht)]
      exact witnessRow_large t.2
    obtain ⟨rows, hrows⟩ := hmapM
    obtain ⟨w, hw⟩ := generate_ok hrows
    have hlt := (inputsCompare_iff hw).1 (h _ w hw) largeTransaction (by simp)
    exact absurd hlt (by decide +kernel)

end RegEngine.Zkp
