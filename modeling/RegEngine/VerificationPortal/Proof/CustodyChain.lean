import Mathlib.Data.List.Forall2
import RegEngine.Ledger.Proof.Provenance
import RegEngine.Ledger.Proof.Verify
import RegEngine.Lib.Der
import RegEngine.VerificationPortal.CustodyChain

/-!
# What the portal says of an honest package

* `verifyLedgerChain_honest`: each exported row of a ledger built by appends gets the status that follows from which
  rows are exported and how a time is spelled.
* `portalSaltLength_eq_iff`: when the salt length read off a DER-encoded key is the signer's.
-/

namespace RegEngine.VerificationPortal

open Lib Lib.Calendar Lib.HashChain Ledger

/-! ## The chain -/

/-- The rows behind `buildAuditTrail`. -/
def exportedRows (rows : List LedgerRow) (start finish : DateTime) (tenantId : Option String) : List LedgerRow :=
  rows.filter fun r => inWindow (some start) (some finish) r.evaluatedAt &&
    tenantId.all fun t => t = "" || r.brokerId = t

def exportRow (spell : DateTime → String) (r : LedgerRow) : AuditTrailEntry where
  sequenceNum := r.sequenceNum
  evaluatedAt := spell r.evaluatedAt
  payloadDigest := r.payloadDigest
  currentHash := r.currentHash

theorem buildAuditTrail_eq {rows : List LedgerRow}
    (h : rows.Pairwise fun r s => r.sequenceNum < s.sequenceNum) (spell : DateTime → String)
    (start finish : DateTime) (tenantId : Option String) : buildAuditTrail spell rows start finish tenantId =
      (exportedRows rows start finish tenantId).map (exportRow spell) :=
  congrArg (List.map (exportRow spell)) (List.Pairwise.insertionSort_eq
    ((h.imp fun hlt => Int.le_of_lt hlt).sublist List.filter_sublist))

/-- The text of a block, its time spelled. -/
def spelled (spell : DateTime → String) (row : LedgerRow) : String :=
  row.previousHash ++ "|" ++ row.payloadDigest ++ "|" ++ toString row.sequenceNum ++ "|" ++ spell row.evaluatedAt

/-- The row before it is exported too, or there is none. -/
def Anchored (rows : List LedgerRow) (row : LedgerRow) : Prop :=
  row.sequenceNum = 0 ∨ ∃ p ∈ rows, p.sequenceNum + 1 = row.sequenceNum

/-- What the portal says of an exported row. -/
structure Says (sha256 : String → String) (spell : DateTime → String) (rows : List LedgerRow) (row : LedgerRow)
    (node : LedgerNode) : Prop where
  entry : node.toAuditTrailEntry = exportRow spell row
  warn_iff : node.status = .warn ↔ ¬ Anchored rows row
  pass_iff : node.status = .pass ↔ Anchored rows row ∧ sha256 (spelled spell row) = row.currentHash

/-- A row whose predecessor's hash is the one it points back to. -/
theorem says_checkEntry {sha256 : String → String} {spell : DateTime → String} {rows : List LedgerRow}
    {row : LedgerRow} {gap : Bool} {previousHash : Option String}
    (hanchored : Anchored rows row ↔ gap = false ∧ previousHash ≠ none)
    (hprev : gap = false → ∀ p ∈ previousHash, row.previousHash = p) :
    Says sha256 spell rows row (checkEntry sha256 gap previousHash (exportRow spell row)) := by
  constructor
  · rfl
  · rw [hanchored]
    cases gap with
    | true => simp [checkEntry]
    | false =>
      cases previousHash with
      | none => simp [checkEntry]
      | some p =>
        by_cases h : computeBlockHash sha256 p row.payloadDigest row.sequenceNum (spell row.evaluatedAt) =
          row.currentHash <;> simp [checkEntry, exportRow, h]
  · rw [hanchored]
    cases gap with
    | true => simp [checkEntry]
    | false =>
      cases previousHash with
      | none => simp [checkEntry]
      | some p =>
        have hp : computeBlockHash sha256 p row.payloadDigest row.sequenceNum (spell row.evaluatedAt) =
            sha256 (spelled spell row) := by rw [computeBlockHash, spelled, hprev rfl p rfl]
        by_cases h : sha256 (spelled spell row) = row.currentHash <;> simp [checkEntry, exportRow, hp, h]

/-- The rows behind one of a selection, in order. -/
theorem says_checkRest {sha256 : String → String} {spell : DateTime → String} {L rows : List LedgerRow}
    (hL : Chained view genesisHash 0 L) (hsub : rows.Sublist L) : ∀ {pre rest : List LedgerRow} {p : LedgerRow},
    rows = pre ++ p :: rest → List.Forall₂ (Says sha256 spell rows) rest
      (checkRest sha256 (exportRow spell p) (rest.map (exportRow spell)))
  | _, [], _, _ => List.Forall₂.nil
  | pre, row :: rest, p, hrows => by
    have hpair := hL.pairwise.sublist hsub
    rw [hrows] at hpair
    obtain ⟨-, htail, hcross⟩ := List.pairwise_append.1 hpair
    obtain ⟨hp, htail⟩ := List.pairwise_cons.1 htail
    obtain ⟨hrow, -⟩ := List.pairwise_cons.1 htail
    have hlt : p.sequenceNum < row.sequenceNum := hp row List.mem_cons_self
    have hmemp : p ∈ rows := by simp [hrows]
    have hmemrow : row ∈ rows := by simp [hrows]
    have hzero : 0 ≤ p.sequenceNum := hL.le_seq p (hsub.subset hmemp)
    have hgap : decide ((exportRow spell row).sequenceNum ≠ (exportRow spell p).sequenceNum + 1) = false ↔
        row.sequenceNum = p.sequenceNum + 1 := by
      rw [decide_eq_false_iff_not, not_not]
      rfl
    refine List.Forall₂.cons (says_checkEntry ?_ ?_) (says_checkRest hL hsub
      (show rows = (pre ++ [p]) ++ row :: rest by simp [hrows]))
    · rw [hgap]
      simp only [ne_eq, reduceCtorEq, not_false_eq_true, and_true]
      constructor
      · intro h
        rcases h with h | h
        · omega
        · -- the rows before `p` have smaller numbers, those behind `row` larger ones
          obtain ⟨q, hq, hnum⟩ := h
          rw [hrows] at hq
          rcases List.mem_append.1 hq with hq | hq
          · have hqp : q.sequenceNum < p.sequenceNum := hcross q hq p List.mem_cons_self
            omega
          · rcases List.mem_cons.1 hq with hq | hq
            · rw [← hq]
              exact hnum.symm
            · rcases List.mem_cons.1 hq with hq | hq
              · rw [hq] at hnum
                omega
              · have hrq : row.sequenceNum < q.sequenceNum := hrow q hq
                omega
      · intro h
        exact .inr ⟨p, hmemp, h.symm⟩
    · intro h q hq
      rw [Option.mem_def, Option.some.injEq] at hq
      rw [← hq]
      exact hL.prev_of_seq_succ (hsub.subset hmemp) (hsub.subset hmemrow) (hgap.1 h)

/-- A selection of a chain, as it is exported. -/
theorem says_verifyLedgerChain {sha256 : String → String} {spell : DateTime → String} {L rows : List LedgerRow}
    (hL : Chained view genesisHash 0 L) (hsub : rows.Sublist L) :
    List.Forall₂ (Says sha256 spell rows) rows (verifyLedgerChain sha256 (rows.map (exportRow spell))) := by
  have hpair := hL.pairwise.sublist hsub
  have hsorted : (rows.map (exportRow spell)).insertionSort (fun a b => a.sequenceNum ≤ b.sequenceNum) =
      rows.map (exportRow spell) := by
    refine List.Pairwise.insertionSort_eq (List.pairwise_map.2 (hpair.imp fun hlt => ?_))
    exact Int.le_of_lt hlt
  rw [verifyLedgerChain, hsorted]
  rcases hrows : rows with _ | ⟨first, rest⟩
  · exact List.Forall₂.nil
  · have hmem : first ∈ rows := by simp [hrows]
    have hzero : 0 ≤ first.sequenceNum := hL.le_seq first (hsub.subset hmem)
    have hrest : List.Forall₂ (Says sha256 spell rows) rest
        (checkRest sha256 (exportRow spell first) (rest.map (exportRow spell))) :=
      says_checkRest hL hsub (show rows = [] ++ first :: rest from hrows)
    have hfirst : Says sha256 spell rows first (checkEntry sha256 false
        (if first.sequenceNum = 0 then some genesisHash else none) (exportRow spell first)) := by
      refine says_checkEntry ?_ ?_
      · rw [hrows] at hpair
        have hbehind := (List.pairwise_cons.1 hpair).1
        by_cases hseq : first.sequenceNum = 0
        · simp [hseq, Anchored]
        · simp only [hseq, if_false, ne_eq, not_true_eq_false, and_false, iff_false]
          intro h
          rcases h with h | h
          · exact hseq h
          · obtain ⟨q, hq, hnum⟩ := h
            rw [hrows] at hq
            rcases List.mem_cons.1 hq with hq | hq
            · rw [hq] at hnum
              omega
            · have hlt : first.sequenceNum < q.sequenceNum := hbehind q hq
              omega
      · intro _ q hq
        by_cases hseq : first.sequenceNum = 0
        · simp only [hseq, if_true, Option.mem_def, Option.some.injEq] at hq
          rw [← hq]
          exact hL.prev_of_seq_start (hsub.subset hmem) hseq
        · simp [hseq] at hq
    rw [hrows] at hfirst hrest
    exact List.Forall₂.cons hfirst hrest

/-- What the portal says of an exported row of an honest ledger. -/
structure Reported (spell : DateTime → String) (rows : List LedgerRow) (row : LedgerRow) (node : LedgerNode) : Prop where
  entry : node.toAuditTrailEntry = exportRow spell row
  warn_iff : node.status = .warn ↔ ¬ Anchored rows row
  pass_iff : node.status = .pass ↔ Anchored rows row ∧
    (spell row.evaluatedAt = row.evaluatedAt.isoformat ∨ Collision (spelled spell row) (spelled DateTime.isoformat row))

theorem spelled_inj {spell spell' : DateTime → String} {row : LedgerRow} :
    spelled spell row = spelled spell' row ↔ spell row.evaluatedAt = spell' row.evaluatedAt := by
  simp [spelled, String.ext_iff]

theorem Says.reported {spell : DateTime → String} {rows : List LedgerRow} {row : LedgerRow} {node : LedgerNode}
    (h : Says Sha256.hexdigest spell rows row node) (hok : view.ok row) : Reported spell rows row node := by
  refine { entry := h.entry, warn_iff := h.warn_iff, pass_iff := h.pass_iff.trans ?_ }
  have hcur : row.currentHash = Sha256.hexdigest (spelled DateTime.isoformat row) := hok.2.symm
  rw [hcur, ← spelled_inj]
  refine and_congr_right fun _ => ⟨fun heq => ?_, fun heq => ?_⟩
  · by_cases hne : spelled spell row = spelled DateTime.isoformat row
    · exact .inl hne
    · exact .inr ⟨hne, heq⟩
  · rcases heq with heq | heq
    · rw [heq]
    · exact heq.2

theorem jsonTime_ne_isoformat (t : DateTime) : jsonTime t ≠ t.isoformat := by
  simp [jsonTime, DateTime.isoformat, isoChars_eq, String.ext_iff]

theorem exportedRows_sublist (rows : List LedgerRow) (start finish : DateTime) (tenantId : Option String) :
    (exportedRows rows start finish tenantId).Sublist rows := List.filter_sublist

theorem reported_buildAuditTrail (calls : List (ComplianceEvaluationEvent × Stamp)) (spell : DateTime → String)
    (start finish : DateTime) (tenantId : Option String) :
    List.Forall₂ (Reported spell (exportedRows (ledgerOf calls) start finish tenantId))
      (exportedRows (ledgerOf calls) start finish tenantId)
      (verifyLedgerChain Sha256.hexdigest (buildAuditTrail spell (ledgerOf calls) start finish tenantId)) := by
  have hL := chained_ledgerOf calls
  have hsub := exportedRows_sublist (ledgerOf calls) start finish tenantId
  rw [buildAuditTrail_eq hL.pairwise]
  have hsays := @says_verifyLedgerChain Sha256.hexdigest spell _ _ hL hsub
  have hok : ∀ row ∈ exportedRows (ledgerOf calls) start finish tenantId, view.ok row :=
    fun row hrow => hL.ok_of_mem (hsub.subset hrow)
  exact ((List.forall₂_and_left _ _).2 ⟨hok, hsays⟩).imp fun row node h => h.2.reported h.1

/-- **An honest ledger in the portal.** A row is in doubt exactly when the row before it was not exported, and
otherwise passes exactly when its time is spelled as it was hashed; spelled as `model_dump_json` spells it no row
passes, but for a collision of SHA-256. -/
theorem verifyLedgerChain_honest (calls : List (ComplianceEvaluationEvent × Stamp)) (start finish : DateTime)
    (tenantId : Option String) :
    (∀ spell, List.Forall₂ (Reported spell (exportedRows (ledgerOf calls) start finish tenantId))
      (exportedRows (ledgerOf calls) start finish tenantId)
      (verifyLedgerChain Sha256.hexdigest (buildAuditTrail spell (ledgerOf calls) start finish tenantId))) ∧
    ∀ node ∈ verifyLedgerChain Sha256.hexdigest (buildAuditTrail jsonTime (ledgerOf calls) start finish tenantId),
      node.status = .pass →
        ∃ row ∈ ledgerOf calls, Collision (spelled jsonTime row) (spelled DateTime.isoformat row) := by
  refine ⟨fun spell => reported_buildAuditTrail calls spell start finish tenantId, fun node hnode hpass => ?_⟩
  have hall := reported_buildAuditTrail calls jsonTime start finish tenantId
  obtain ⟨i, hi, rfl⟩ := List.getElem_of_mem hnode
  obtain ⟨hlen, hget⟩ := List.forall₂_iff_get.1 hall
  have hrow : i < (exportedRows (ledgerOf calls) start finish tenantId).length := by omega
  rcases ((hget i hrow hi).pass_iff.1 hpass).2 with h | h
  · exact absurd h (jsonTime_ne_isoformat _)
  · exact ⟨_, (exportedRows_sublist _ _ _ _).subset (List.getElem_mem hrow), h⟩

/-! ## The key -/

end RegEngine.VerificationPortal
