import RegEngine.Zkp.VerificationService
import RegEngine.Zkp.Proof.Binding

/-!
# Replayed collateral proofs

Two submissions carry the same proof when their points have the same coordinates in the field and their
public signals are the same integers modulo the order of the curve (`SameProof`). The texts of public
signals that pass the checks are then the same (`publicSignals_eq`), but circuit id and proof may still
be written in another way, and a hash is only added after the append. `Inv` holds along every
interleaving whose calls begin `Fresh`: beside no call with the same proof that is on its way or that
wrote its proof otherwise.
-/

namespace RegEngine.Zkp

open Lib Lib.Python Ledger

/-! ## The same proof -/

/-- The points that a proof's texts denote. -/
def Groth16Proof.points (p : Groth16Proof) : Option (G1 × G2 × G1) := do
  let a ← (parseG1 p.piA).toOption
  let b ← (parseG2 p.piB).toOption
  let c ← (parseG1 p.piC).toOption
  return (a, b, c)

/-- The public signals modulo the order of the curve. -/
def residues (publicSignals : List String) : Option (List Nat) :=
  (publicSignals.mapM (int? 10)).map (·.map reduce)

def SameProof (s t : ComplianceCollateralProofSubmission) : Prop :=
  s.proof.points.isSome = true ∧ s.proof.points = t.proof.points ∧
    (residues s.publicSignals).isSome = true ∧ residues s.publicSignals = residues t.publicSignals

theorem SameProof.symm {s t : ComplianceCollateralProofSubmission} (h : SameProof s t) :
    SameProof t s :=
  ⟨h.2.1 ▸ h.1, h.2.1.symm, h.2.2.2 ▸ h.2.2.1, h.2.2.2.symm⟩

/-- The text of a field element denotes it. -/
theorem int?_fieldText {s text : String} (h : fieldText s = .ok text) :
    ∃ n : Nat, int? 10 text = some (n : Int) ∧ reduce n = n ∧ text = toString n := by
  obtain ⟨n, hn, rfl⟩ := fieldText_ok_iff.1 h
  have hlt := stringToFieldElement_lt hn
  refine ⟨n, int?_toString_of_lt (hlt.trans (by decide +kernel)), ?_, rfl⟩
  rw [reduce, Int.emod_eq_of_lt (Int.natCast_nonneg n) (by exact_mod_cast hlt), Int.toNat_natCast]

/-- Public signals that pass the checks are the texts of their residues. -/
theorem residues_of_passesChecks {s : ComplianceCollateralProofSubmission} (h : PassesChecks s) :
    ∃ l, residues s.publicSignals = some l ∧ s.publicSignals = l.map toString := by
  obtain ⟨a, b, c, d, ha, hb, hc, hd, hsignals⟩ := passesChecks_iff.1 h
  obtain ⟨na, hna, hra, rfl⟩ := int?_fieldText ha
  obtain ⟨nb, hnb, hrb, rfl⟩ := int?_fieldText hb
  obtain ⟨nc, hnc, hrc, rfl⟩ := int?_fieldText hc
  obtain ⟨nd, hnd, hrd, rfl⟩ := int?_fieldText hd
  refine ⟨[na, nb, nc, nd], ?_, by rw [hsignals]; rfl⟩
  rw [hsignals, residues]
  simp only [List.mapM_cons, List.mapM_nil, hna, hnb, hnc, hnd, Option.bind_eq_bind,
    Option.bind_some, Option.pure_def, Option.map_some, List.map_cons, List.map_nil, hra, hrb, hrc, hrd]

theorem publicSignals_eq {s t : ComplianceCollateralProofSubmission} (hs : PassesChecks s)
    (ht : PassesChecks t) (h : residues s.publicSignals = residues t.publicSignals) :
    s.publicSignals = t.publicSignals := by
  obtain ⟨l, hl, hsl⟩ := residues_of_passesChecks hs
  obtain ⟨m, hm, htm⟩ := residues_of_passesChecks ht
  rw [hl, hm] at h
  rw [hsl, htm, Option.some.inj h]

/-! ## One step -/

variable {GT ι : Type} [DecidableEq GT] {E : Bn128 GT} {R : KeyRegistry}
  {submission : ι → ComplianceCollateralProofSubmission}

/-- A call that is let through: no replay, and the checks pass. -/
theorem collateralReason_eq_none {seen : List String} {s : ComplianceCollateralProofSubmission}
    (h : collateralReason E R seen s = .ok none) : s.proofHash ∉ seen ∧ PassesChecks s := by
  unfold collateralReason at h
  split at h
  · cases h
  · rename_i hseen
    obtain ⟨reason, hreason, h⟩ := Except.bind_ok_iff.1 h
    cases reason with
    | some text => cases h
    | none => exact ⟨hseen, hreason⟩

/-- What is asked of the beginning of a call: every earlier call with the same proof that has not been
refused has returned, and it named the circuit and wrote the proof in the same way. -/
def Fresh (submission : ι → ComplianceCollateralProofSubmission) (s : CollateralState ι) (i : ι) :
    Prop :=
  ∀ j, (s.phase j).passed → SameProof (submission j) (submission i) →
    (∃ n, s.phase j = .verified n) ∧ (submission j).circuitId = (submission i).circuitId ∧
      (submission j).proof = (submission i).proof

/-- The calls that are let through pass the checks, those that have returned have left their hash, and
no two of them carry the same proof. -/
structure Inv (submission : ι → ComplianceCollateralProofSubmission) (s : CollateralState ι) :
    Prop where
  checks : ∀ i, (s.phase i).passed → PassesChecks (submission i)
  seen : ∀ i n, s.phase i = .verified n → (submission i).proofHash ∈ s.seen
  once : ∀ i j, i ≠ j → (s.phase i).passed → (s.phase j).passed →
    ¬ SameProof (submission i) (submission j)

theorem inv_initial (rows : List LedgerRow) : Inv submission (CollateralState.initial rows) :=
  ⟨fun _ h => h.elim, fun _ _ h => (by cases h), fun _ _ _ h => h.elim⟩

variable [DecidableEq ι]

/-- A phase after `enter`. -/
theorem phase_enter {s : CollateralState ι} {i j : ι} {p : CollateralPhase} :
    (s.enter i p).phase j = if j = i then p else s.phase j := by
  unfold CollateralState.enter
  by_cases h : j = i
  · subst h
    simp
  · simp [h]

/-- A step that moves a call from one phase to another one; `passed` is not gained. -/
theorem Inv.move {s s' : CollateralState ι} {i : ι} {p : CollateralPhase} (hi : Inv submission s)
    (hphase : ∀ j, s'.phase j = if j = i then p else s.phase j)
    (hseen : ∀ h ∈ s.seen, h ∈ s'.seen) (hpassed : p.passed → (s.phase i).passed)
    (hverified : ∀ n, p = .verified n → (submission i).proofHash ∈ s'.seen) : Inv submission s' := by
  have hold : ∀ j, (s'.phase j).passed → (s.phase j).passed := by
    intro j hj
    rw [hphase] at hj
    by_cases h : j = i
    · rw [if_pos h] at hj
      rw [h]
      exact hpassed hj
    · rwa [if_neg h] at hj
  refine ⟨fun j hj => hi.checks j (hold j hj), fun j n hj => ?_,
    fun j k hjk hj hk => hi.once j k hjk (hold j hj) (hold k hk)⟩
  rw [hphase] at hj
  by_cases h : j = i
  · rw [if_pos h] at hj
    rw [h]
    exact hverified n hj
  · rw [if_neg h] at hj
    exact hseen _ (hi.seen j n hj)

/-- A call that begins fresh and is let through carries a proof of its own. -/
theorem Inv.admit {s : CollateralState ι} {i : ι} (hi : Inv submission s) (hfresh : Fresh submission s i)
    (hreason : collateralReason E R s.seen (submission i) = .ok none) :
    Inv submission (s.enter i .appending) := by
  obtain ⟨hnew, hchecks⟩ := collateralReason_eq_none hreason
  have hnone : ∀ j, j ≠ i → (s.phase j).passed → ¬ SameProof (submission j) (submission i) := by
    intro j _ hj hsame
    obtain ⟨⟨n, hn⟩, hid, hproof⟩ := hfresh j hj hsame
    have hsignals := publicSignals_eq (hi.checks j hj) hchecks hsame.2.2.2
    have hhash : (submission j).proofHash = (submission i).proofHash := by
      simp only [ComplianceCollateralProofSubmission.proofHash, hid, hproof, hsignals]
    exact hnew (hhash ▸ hi.seen j n hn)
  refine ⟨fun j hj => ?_, fun j n hj => ?_, fun j k hjk hj hk => ?_⟩
  · rw [phase_enter] at hj
    by_cases h : j = i
    · exact h ▸ hchecks
    · rw [if_neg h] at hj
      exact hi.checks j hj
  · rw [phase_enter] at hj
    by_cases h : j = i
    · rw [if_pos h] at hj
      cases hj
    · rw [if_neg h] at hj
      exact hi.seen j n hj
  · rw [phase_enter] at hj hk
    by_cases h : j = i
    · have hki : k ≠ i := fun hk => hjk (h.trans hk.symm)
      rw [if_neg hki] at hk
      rw [h]
      exact fun hsame => hnone k hki hk hsame.symm
    · rw [if_neg h] at hj
      by_cases hk' : k = i
      · rw [hk']
        exact hnone j h hj
      · rw [if_neg hk'] at hk
        exact hi.once j k hjk hj hk

theorem inv_step {s s' : CollateralState ι}
    (h : CollateralStep E R submission (Fresh submission) s s') (hi : Inv submission s) :
    Inv submission s' := by
  cases h with
  | check i _ hfresh =>
    cases hreason : collateralReason E R s.seen (submission i) with
    | error e => exact hi.move (fun _ => phase_enter) (fun _ h => h) (fun h => h.elim) (fun _ h => by cases h)
    | ok reason =>
      cases reason with
      | some text =>
        exact hi.move (fun _ => phase_enter) (fun _ h => h) (fun h => h.elim) (fun _ h => by cases h)
      | none => exact hi.admit hfresh hreason
  | insert i call happending _ =>
    exact hi.move (fun _ => phase_enter) (fun _ h => h) (fun _ => by rw [happending]; trivial)
      (fun _ h => by cases h)
  | answer i hinserted =>
    exact hi.move (fun _ => phase_enter) (fun _ h => List.mem_cons_of_mem _ h)
      (fun _ => by rw [hinserted]; trivial) (fun _ _ => List.mem_cons_self)
  | raise i _ =>
    exact hi.move (fun _ => phase_enter) (fun _ h => h) (fun h => h.elim) (fun _ h => by cases h)

/-- A submission whose proof verifies under a key of generators. -/
def zeroSubmission : ComplianceCollateralProofSubmission :=
  collateralOf Bn254.threeProof ["0", "0", "0", "0"] ⟨"0", "0", "0", "0"⟩

end RegEngine.Zkp
