import RegEngine.Zkp.Proof.Replay

/-!
# Proofs that are answered

Parsing raises the one error that the callers catch. The pairing raises another one on a point that is not
on its curve, and no coordinate is checked against the curve before it; the strings of a collateral
submission are converted before anything is caught.

* `answers_iff`: when the verifier returns a boolean or its own error.
* `bad_proofs_answered_iff`: when the two callers answer.
-/

namespace RegEngine.Zkp

open Lib Lib.Python Ledger
open Bn128 (fieldPrime)

/-! ## The two curves -/

/-- `y² = x³ + 3`. -/
def OnCurve : G1 → Prop
  | none => True
  | some (x, y) => (y * y : ZMod fieldPrime) = x * x * x + 3

/-- A product of pairs, the second numbers counting a root of `-1`. -/
def mulPair (a b : ZMod fieldPrime × ZMod fieldPrime) : ZMod fieldPrime × ZMod fieldPrime :=
  (a.1 * b.1 - a.2 * b.2, a.1 * b.2 + a.2 * b.1)

/-- `y² = x³ + 3 / (9 + i)`, without the division. -/
def OnTwist : G2 → Prop
  | none => True
  | some (x, y) =>
    let x : ZMod fieldPrime × ZMod fieldPrime := (x.1, x.2)
    let y : ZMod fieldPrime × ZMod fieldPrime := (y.1, y.2)
    mulPair (9, 1) (mulPair y y) = mulPair (9, 1) (mulPair x (mulPair x x)) + (3, 0)

instance (p : G1) : Decidable (OnCurve p) :=
  match p with
  | none => .isTrue trivial
  | some (x, y) => inferInstanceAs (Decidable ((y * y : ZMod fieldPrime) = x * x * x + 3))

instance (q : G2) : Decidable (OnTwist q) :=
  match q with
  | none => .isTrue trivial
  | some (x, y) => inferInstanceAs (Decidable (mulPair (9, 1) (mulPair (y.1, y.2) (y.1, y.2)) =
      mulPair (9, 1) (mulPair (x.1, x.2) (mulPair (x.1, x.2) (x.1, x.2))) + (3, 0)))

variable {GT : Type} [DecidableEq GT]

/-- `pairing` asserts that its points are on their curves, and raises nothing else. -/
def Bn128.AssertsCurves (E : Bn128 GT) : Prop :=
  ∀ q p, (E.pairing q p).isSome = true ↔ OnTwist q ∧ OnCurve p

/-! ## The verifier -/

/-- A boolean, or the verifier's own error. -/
def Answers {α : Type} (r : Except ZkpError α) : Prop := ∀ e, r = .error e → ∃ message, e = .proofVerification message

theorem answers_bind {α β : Type} {x : Except ZkpError α} {f : α → Except ZkpError β} (hx : Answers x) :
    Answers (x >>= f) ↔ ∀ a, x = .ok a → Answers (f a) := by
  cases x with
  | ok a =>
    constructor
    · intro h b hb
      cases hb
      exact h
    · intro h
      exact h a rfl
  | error e =>
    refine iff_of_true (fun e' he' => ?_) fun a ha => by cases ha
    cases he'
    exact hx e rfl

theorem answers_orRaise {α : Type} (message : String) (o : Option α) :
    Answers (orRaise (.proofVerification message) o) := by
  intro e he
  cases o with
  | none =>
    cases he
    exact ⟨message, rfl⟩
  | some a => cases he

theorem answers_parseG1 (coords : List String) : Answers (parseG1 coords) := by
  unfold parseG1
  split
  · intro e he
    cases he
    exact ⟨_, rfl⟩
  · exact answers_orRaise _ _

theorem answers_parseG2 (coords : List (List String)) : Answers (parseG2 coords) := by
  unfold parseG2
  split
  · intro e he
    cases he
    exact ⟨_, rfl⟩
  · exact answers_orRaise _ _

theorem answers_mapM {α β : Type} {f : α → Except ZkpError β} (hf : ∀ a, Answers (f a)) (l : List α) :
    Answers (l.mapM f) := by
  induction l with
  | nil =>
    intro e he
    cases he
  | cons a l ih =>
    rw [List.mapM_cons]
    refine (answers_bind (hf a)).2 fun b _ => (answers_bind ih).2 fun bs _ => ?_
    intro e he
    cases he

theorem answers_parseVerificationKey (vk : Groth16VerificationKey) : Answers (parseVerificationKey vk) := by
  unfold parseVerificationKey
  split
  · intro e he
    cases he
    exact ⟨_, rfl⟩
  · refine (answers_bind (answers_parseG1 _)).2 fun _ _ => ?_
    refine (answers_bind (answers_parseG2 _)).2 fun _ _ => ?_
    refine (answers_bind (answers_parseG2 _)).2 fun _ _ => ?_
    refine (answers_bind (answers_parseG2 _)).2 fun _ _ => ?_
    refine (answers_bind (answers_mapM answers_parseG1 _)).2 fun _ _ => ?_
    intro e he
    cases he

/-- The points that the pairings are given. -/
structure OnCurves (E : Bn128 GT) (points : CurvePoints) (piA : G1) (piB : G2) (piC : G1)
    (signals : List Int) : Prop where
  proof : OnCurve piA ∧ OnTwist piB ∧ OnCurve piC
  key : OnCurve points.alpha1 ∧ OnTwist points.beta2 ∧ OnTwist points.gamma2 ∧ OnTwist points.delta2
  /-- The combination of the key's points by the signals. -/
  vkX : OnCurve (computeVkX E points.ic signals)

variable {E : Bn128 GT}

theorem answers_check_iff (hE : E.AssertsCurves) (points : CurvePoints) (piA : G1) (piB : G2) (piC : G1)
    (signals : List Int) :
    Answers (checkPairingEquation E points piA piB piC signals) ↔
      OnCurves E points piA piB piC signals := by
  have hpair : ∀ q p, E.pairing q p = none ↔ ¬ (OnTwist q ∧ OnCurve p) := by
    intro q p
    rw [← hE q p, Bool.not_eq_true, Option.isSome_eq_false_iff, Option.isNone_iff_eq_none]
  have hnone : ¬ Answers (orRaise .pairing (none : Option Bool)) := by
    intro h
    obtain ⟨message, hmessage⟩ := h .pairing rfl
    cases hmessage
  unfold checkPairingEquation
  dsimp only
  cases hab : E.pairing piB piA with
  | none =>
    refine iff_of_false hnone fun h => ?_
    exact (hpair _ _).1 hab ⟨h.proof.2.1, h.proof.1⟩
  | some lhs =>
    have hproof := (hE piB piA).1 (by rw [hab]; rfl)
    cases halpha : E.pairing points.beta2 points.alpha1 with
    | none =>
      refine iff_of_false hnone fun h => ?_
      exact (hpair _ _).1 halpha ⟨h.key.2.1, h.key.1⟩
    | some ab =>
      have hkey := (hE points.beta2 points.alpha1).1 (by rw [halpha]; rfl)
      cases hx : E.pairing points.gamma2 (computeVkX E points.ic signals) with
      | none =>
        refine iff_of_false hnone fun h => ?_
        exact (hpair _ _).1 hx ⟨h.key.2.2.1, h.vkX⟩
      | some xg =>
        have hvkX := (hE points.gamma2 (computeVkX E points.ic signals)).1 (by rw [hx]; rfl)
        cases hc : E.pairing points.delta2 piC with
        | none =>
          refine iff_of_false hnone fun h => ?_
          exact (hpair _ _).1 hc ⟨h.key.2.2.2, h.proof.2.2⟩
        | some cd =>
          have hdelta := (hE points.delta2 piC).1 (by rw [hc]; rfl)
          refine iff_of_true (fun e he => by cases he) ?_
          exact ⟨⟨hproof.2, hproof.1, hdelta.2⟩, ⟨hkey.2, hkey.1, hvkX.1, hdelta.1⟩, hvkX.2⟩

/-- If everything is read, the points are on their curves. -/
def Pairable (E : Bn128 GT) (vk : Groth16VerificationKey) (proof : Groth16Proof)
    (publicSignals : List String) : Prop :=
  ∀ points piA piB piC signals, (publicSignals.length : Int) = vk.nPublic →
    publicSignals.mapM (int? 10) = some signals → parseVerificationKey vk = .ok points →
    parseG1 proof.piA = .ok piA → parseG2 proof.piB = .ok piB → parseG1 proof.piC = .ok piC →
    OnCurves E points piA piB piC signals

/-- **The verifier answers just when the points it pairs are on their curves.** -/
theorem answers_iff (hE : E.AssertsCurves) (vk : Groth16VerificationKey) (proof : Groth16Proof)
    (publicSignals : List String) :
    Answers (verifyGroth16Proof E vk proof publicSignals) ↔ Pairable E vk proof publicSignals := by
  unfold verifyGroth16Proof Pairable
  by_cases hlength : (publicSignals.length : Int) = vk.nPublic
  · rw [if_neg (not_not.2 hlength), answers_bind (answers_orRaise _ _)]
    constructor
    · intro h points piA piB piC signals _ hsignals hkey hA hB hC
      have hstep := h signals (by rw [hsignals]; rfl)
      rw [answers_bind (answers_parseVerificationKey _)] at hstep
      have hstep := (answers_bind (answers_parseG1 _)).1 (hstep points hkey) piA hA
      have hstep := (answers_bind (answers_parseG2 _)).1 hstep piB hB
      have hstep := (answers_bind (answers_parseG1 _)).1 hstep piC hC
      exact (answers_check_iff hE _ _ _ _ _).1 hstep
    · intro h signals hsignals
      have hread : publicSignals.mapM (int? 10) = some signals := by
        cases hmap : publicSignals.mapM (int? 10) with
        | none =>
          rw [hmap] at hsignals
          cases hsignals
        | some found =>
          rw [hmap] at hsignals
          cases hsignals
          rfl
      refine (answers_bind (answers_parseVerificationKey _)).2 fun points hkey => ?_
      refine (answers_bind (answers_parseG1 _)).2 fun piA hA => ?_
      refine (answers_bind (answers_parseG2 _)).2 fun piB hB => ?_
      refine (answers_bind (answers_parseG1 _)).2 fun piC hC => ?_
      exact (answers_check_iff hE _ _ _ _ _).2 (h points piA piB piC signals hlength hread hkey hA hB hC)
  · rw [if_pos hlength]
    refine iff_of_true (fun e he => ?_) fun _ _ _ _ _ hlen => absurd hlen hlength
    cases he
    exact ⟨_, rfl⟩

/-! ## The callers -/

variable {R : KeyRegistry}

/-- A margin submission is answered: its verification is, and unless its key accepts the proof the answer
is `verified=False` and no row is written. -/
structure MarginAnswered (E : Bn128 GT) (R : KeyRegistry) (rows : List LedgerRow) (call : AppendCall)
    (s : MarginComplianceProofSubmission) : Prop where
  verdict : ∀ vk, getVerificationKey R s.circuitId = .ok vk →
    Answers (verifyGroth16Proof E vk s.proof s.publicSignals)
  refused : ¬ Accepts E R s.circuitId s.proof s.publicSignals →
    ∃ answer, verifyAndLogProof E R rows call s = .ok (answer, rows) ∧ answer.verified = false

/-- A collateral submission is answered; it is valid when it is no replay, its signals are those of its
strings and its key accepts the proof. -/
structure CollateralAnswered (E : Bn128 GT) (R : KeyRegistry) (rows : List LedgerRow) (seen : List String)
    (call : AppendCall) (s : ComplianceCollateralProofSubmission) : Prop where
  verdict : ∀ vk, getVerificationKey R s.circuitId = .ok vk →
    Answers (verifyGroth16Proof E vk s.proof s.publicSignals)
  refused : ¬ (s.proofHash ∉ seen ∧ s.metadata.Binds s.publicSignals ∧
      Accepts E R s.circuitId s.proof s.publicSignals) →
    ∃ answer, verifyAndLogCollateralProof E R rows seen call s = .ok (answer, rows, seen) ∧
      answer.verified = false

/-- The strings of a submission that become field elements. -/
def Metadata.texts (m : Metadata) : List String :=
  [m.policyHash, m.reportingPeriodId, m.datasetCommitment, m.marginThreshold]

/-- `string_to_field_element` raises on none of the strings. -/
def Metadata.Convertible (m : Metadata) : Prop :=
  ∀ text ∈ m.texts, ∃ n, stringToFieldElement text = .ok n

/-- The key lookup and the verification give an answer. -/
theorem exists_proofReason (hR : ∀ path, R.file path ≠ .invalid) {circuitId : String}
    {proof : Groth16Proof} {publicSignals : List String}
    (hverdict : ∀ vk, getVerificationKey R circuitId = .ok vk →
      Answers (verifyGroth16Proof E vk proof publicSignals)) :
    ∃ reason, proofReason E R circuitId proof publicSignals = .ok reason := by
  unfold proofReason
  cases hkey : getVerificationKey R circuitId with
  | error e =>
    unfold getVerificationKey at hkey
    split at hkey
    · cases hkey
      exact ⟨_, rfl⟩
    · split at hkey
      · cases hkey
        exact ⟨_, rfl⟩
      · rename_i hfile
        exact absurd hfile (hR _)
      · cases hkey
  | ok vk =>
    dsimp only
    cases hverify : verifyGroth16Proof E vk proof publicSignals with
    | ok verified =>
      cases verified with
      | true => exact ⟨_, rfl⟩
      | false => exact ⟨_, rfl⟩
    | error e =>
      obtain ⟨message, rfl⟩ := hverdict vk hkey e hverify
      exact ⟨_, rfl⟩

theorem marginAnswered_iff (hE : E.AssertsCurves) (hR : ∀ path, R.file path ≠ .invalid)
    (rows : List LedgerRow) (call : AppendCall) (s : MarginComplianceProofSubmission) :
    MarginAnswered E R rows call s ↔
      ∀ vk, getVerificationKey R s.circuitId = .ok vk → Pairable E vk s.proof s.publicSignals := by
  constructor
  · intro h vk hkey
    exact (answers_iff hE _ _ _).1 (h.verdict vk hkey)
  · intro h
    have hverdict : ∀ vk, getVerificationKey R s.circuitId = .ok vk →
        Answers (verifyGroth16Proof E vk s.proof s.publicSignals) :=
      fun vk hkey => (answers_iff hE _ _ _).2 (h vk hkey)
    refine ⟨hverdict, fun hinvalid => ?_⟩
    obtain ⟨reason, hreason⟩ := exists_proofReason hR hverdict
    cases reason with
    | none => exact absurd ((proofReason_eq_none_iff E R).1 hreason) hinvalid
    | some text =>
      unfold verifyAndLogProof
      rw [hreason]
      exact ⟨_, rfl, rfl⟩

theorem exists_consistencyReason {s : ComplianceCollateralProofSubmission} :
    (∃ reason, consistencyReason s = .ok reason) ↔
      s.publicSignals.length ≠ 4 ∨ s.metadata.Convertible := by
  have htext : ∀ text : String, (∃ t, fieldText text = .ok t) ↔ ∃ n, stringToFieldElement text = .ok n := by
    intro text
    constructor
    · intro ⟨t, ht⟩
      obtain ⟨n, hn, -⟩ := fieldText_ok_iff.1 ht
      exact ⟨n, hn⟩
    · intro ⟨n, hn⟩
      exact ⟨_, fieldText_ok_iff.2 ⟨n, hn, rfl⟩⟩
  have hexpected : (∃ l, expectedSignals s = .ok l) ↔ s.metadata.Convertible := by
    unfold Metadata.Convertible Metadata.texts
    simp only [List.forall_mem_cons, ← htext]
    constructor
    · intro ⟨l, hl⟩
      obtain ⟨a, b, c, d, ha, hb, hc, hd, -⟩ := expectedSignals_ok_iff.1 hl
      exact ⟨⟨a, ha⟩, ⟨b, hb⟩, ⟨c, hc⟩, ⟨d, hd⟩, nofun⟩
    · intro ⟨⟨a, ha⟩, ⟨b, hb⟩, ⟨c, hc⟩, ⟨d, hd⟩, _⟩
      exact ⟨[a, b, c, d], expectedSignals_ok_iff.2 ⟨a, b, c, d, ha, hb, hc, hd, rfl⟩⟩
  unfold consistencyReason
  by_cases hlength : s.publicSignals.length = 4
  · rw [if_neg (not_not.2 hlength), or_iff_right (not_not.2 hlength), ← hexpected]
    constructor
    · intro ⟨reason, hreason⟩
      obtain ⟨l, hl, -⟩ := Except.map_ok_iff.1 hreason
      exact ⟨l, hl⟩
    · intro ⟨l, hl⟩
      exact ⟨_, Except.map_ok_iff.2 ⟨l, hl, rfl⟩⟩
  · rw [if_pos hlength]
    exact iff_of_true ⟨_, rfl⟩ (.inl hlength)

theorem collateralAnswered_iff (hE : E.AssertsCurves) (hR : ∀ path, R.file path ≠ .invalid)
    (rows : List LedgerRow) (seen : List String) (call : AppendCall)
    (s : ComplianceCollateralProofSubmission) :
    CollateralAnswered E R rows seen call s ↔
      (∀ vk, getVerificationKey R s.circuitId = .ok vk → Pairable E vk s.proof s.publicSignals) ∧
        (s.proofHash ∈ seen ∨ s.publicSignals.length ≠ 4 ∨ s.metadata.Convertible) := by
  rw [← exists_consistencyReason]
  constructor
  · intro h
    refine ⟨fun vk hkey => (answers_iff hE _ _ _).1 (h.verdict vk hkey), ?_⟩
    by_cases hseen : s.proofHash ∈ seen
    · exact .inl hseen
    right
    by_contra hraises
    -- a submission whose strings cannot be converted is not valid, and its exception is not caught
    have hinvalid : ¬ (s.proofHash ∉ seen ∧ s.metadata.Binds s.publicSignals ∧
        Accepts E R s.circuitId s.proof s.publicSignals) :=
      fun hvalid => hraises ⟨none, passesChecks_iff.2 hvalid.2.1⟩
    obtain ⟨answer, hanswer, -⟩ := h.refused hinvalid
    unfold verifyAndLogCollateralProof collateralReason at hanswer
    rw [if_neg hseen] at hanswer
    obtain ⟨reason, hreason, -⟩ := Except.bind_ok_iff.1 hanswer
    obtain ⟨consistency, hconsistency, -⟩ := Except.bind_ok_iff.1 hreason
    exact hraises ⟨consistency, hconsistency⟩
  · intro ⟨hpairable, htexts⟩
    have hverdict : ∀ vk, getVerificationKey R s.circuitId = .ok vk →
        Answers (verifyGroth16Proof E vk s.proof s.publicSignals) :=
      fun vk hkey => (answers_iff hE _ _ _).2 (hpairable vk hkey)
    refine ⟨hverdict, fun hinvalid => ?_⟩
    have hreason : ∃ text, collateralReason E R seen s = .ok (some text) := by
      unfold collateralReason
      by_cases hseen : s.proofHash ∈ seen
      · rw [if_pos hseen]
        exact ⟨_, rfl⟩
      · rw [if_neg hseen]
        obtain ⟨consistency, hconsistency⟩ := htexts.resolve_left hseen
        rw [hconsistency]
        cases consistency with
        | some text => exact ⟨text, rfl⟩
        | none =>
          obtain ⟨reason, hreason⟩ := exists_proofReason hR hverdict
          cases reason with
          | some text => exact ⟨text, hreason⟩
          | none =>
            refine absurd ⟨hseen, passesChecks_iff.1 hconsistency, ?_⟩ hinvalid
            exact (proofReason_eq_none_iff E R).1 hreason
    obtain ⟨text, htext⟩ := hreason
    unfold verifyAndLogCollateralProof
    rw [htext]
    exact ⟨_, rfl, rfl⟩

/-- **The callers answer just when every point that is paired is on its curve**, and the strings of a
collateral submission are converted. -/
theorem bad_proofs_answered_iff (hE : E.AssertsCurves) (hR : ∀ path, R.file path ≠ .invalid)
    (rows : List LedgerRow) (seen : List String) (call : AppendCall)
    (margin : MarginComplianceProofSubmission) (collateral : ComplianceCollateralProofSubmission) :
    (MarginAnswered E R rows call margin ↔
      ∀ vk, getVerificationKey R margin.circuitId = .ok vk →
        Pairable E vk margin.proof margin.publicSignals) ∧
      (CollateralAnswered E R rows seen call collateral ↔
        (∀ vk, getVerificationKey R collateral.circuitId = .ok vk →
          Pairable E vk collateral.proof collateral.publicSignals) ∧
          (collateral.proofHash ∈ seen ∨ collateral.publicSignals.length ≠ 4 ∨
            collateral.metadata.Convertible)) :=
  ⟨marginAnswered_iff hE hR rows call margin, collateralAnswered_iff hE hR rows seen call collateral⟩

/-! ## A point that is not on the curve -/

/-- The curve with the pairings of points on it, of which only those with the generator matter here. -/
def assertingCurve : Bn128 G1 :=
  { Bn254.curve with
    pairing := fun q p =>
      if OnTwist q ∧ OnCurve p then some (if q = Bn254.generator2 then p else none) else none }

theorem assertsCurves : assertingCurve.AssertsCurves := by
  intro q p
  show (if OnTwist q ∧ OnCurve p then some (if q = Bn254.generator2 then p else none)
    else (none : Option G1)).isSome = true ↔ _
  by_cases h : OnTwist q ∧ OnCurve p
  · rw [if_pos h]
    exact iff_of_true rfl h
  · rw [if_neg h]
    exact iff_of_false (by decide) h

/-- A proof whose first point is `(1, 1)`. -/
def offCurveProof : Groth16Proof :=
  { Bn254.threeProof with piA := ["1", "1", "1"], piA_length := rfl }

/-- The key that accepts it would have no signals. -/
def offCurveRegistry : KeyRegistry := Bn254.registry "margin_compliance_v1" (Bn254.generatorKey 0)

def offCurveSubmission : MarginComplianceProofSubmission :=
  submissionOf "margin_compliance_v1" offCurveProof [] "tx"

theorem offCurveRegistry_file (path : String) : offCurveRegistry.file path ≠ .invalid := nofun

theorem bad_proofs_answered_off_curve :
    (MarginAnswered assertingCurve offCurveRegistry [] (callAt 1) offCurveSubmission ↔
      ∀ vk, getVerificationKey offCurveRegistry offCurveSubmission.circuitId = .ok vk →
        Pairable assertingCurve vk offCurveSubmission.proof offCurveSubmission.publicSignals) ∧
      (CollateralAnswered assertingCurve offCurveRegistry [] [] (callAt 1) zeroSubmission ↔
        (∀ vk, getVerificationKey offCurveRegistry zeroSubmission.circuitId = .ok vk →
          Pairable assertingCurve vk zeroSubmission.proof zeroSubmission.publicSignals) ∧
          (zeroSubmission.proofHash ∈ ([] : List String) ∨ zeroSubmission.publicSignals.length ≠ 4 ∨
            zeroSubmission.metadata.Convertible)) :=
  bad_proofs_answered_iff assertsCurves offCurveRegistry_file [] [] (callAt 1) offCurveSubmission
    zeroSubmission

/-- The point `(1, 1)` reaches the pairing. -/
theorem not_forall_answered :
    ¬ ∀ (rows : List LedgerRow) (call : AppendCall) (s : MarginComplianceProofSubmission),
      MarginAnswered assertingCurve offCurveRegistry rows call s := by
  intro h
  have hkey : getVerificationKey offCurveRegistry offCurveSubmission.circuitId =
      .ok (Bn254.generatorKey 0) := rfl
  have hverdict := (h [] (callAt 1) offCurveSubmission).verdict _ hkey
  have hA : parseG1 offCurveSubmission.proof.piA = .ok (some (1, 1)) := by decide +kernel
  have hcurves := (answers_iff assertsCurves _ _ _).1 hverdict _ _ _ _ [] rfl rfl
    (Bn254.parse_generatorKey 0) hA Bn254.parseG2_twoText Bn254.parseG1_oneText
  have hoff : ¬ OnCurve (some (1, 1)) := by decide +kernel
  exact hoff hcurves.proof.1

end RegEngine.Zkp
