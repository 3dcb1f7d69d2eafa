import RegEngine.Lib.IntText
import RegEngine.Lib.JsonText
import RegEngine.Lib.Sha256
import RegEngine.Zkp.Witness

/-!
# Proofs, keys and submissions

`app/zkp/models.py` and `app/zkp/proof_hashing.py`: the JSON shapes of a Groth16 proof and of a
verification key, what a broker submits with a proof, what it is answered, and the hash of a proof.
-/

namespace RegEngine.Zkp

open Lib Lib.Sha256

/-- `Groth16Proof`: the three points, with the lengths that the fields check. -/
structure Groth16Proof where
  piA : List String
  piB : List (List String)
  piC : List String
  protocol : String
  curve : String
  piA_length : piA.length = 3
  piB_length : piB.length = 3
  piC_length : piC.length = 3
  deriving DecidableEq

/-- `Groth16VerificationKey`. -/
structure Groth16VerificationKey where
  protocol : String
  curve : String
  nPublic : Int
  vkAlpha1 : List String
  vkBeta2 : List (List String)
  vkGamma2 : List (List String)
  vkDelta2 : List (List String)
  ic : List (List String)

/-- `MarginComplianceProofSubmission`; the public signals are
`[required_margin, transaction_id_field, commitment]`. -/
structure MarginComplianceProofSubmission where
  circuitId : String
  proof : Groth16Proof
  publicSignals : List String
  brokerId : String
  transactionId : String
  circularId : String
  clauseHash : String
  sectionReference : String
  ruleId : String

structure ZKProofVerificationResult where
  verified : Bool
  circuitId : String
  proofHash : String
  ledgerSequenceNum : Option Int
  reason : Option String

def advisoryComplianceNotice : String :=
  "Cryptographically verified compliance predicate. This cryptographic proof demonstrates " ++
  "that the prover possesses a witness satisfying the circuit constraints for the declared public " ++
  "signals. It does NOT certify that underlying off-chain transactions were authentic, " ++
  "unmanipulated, or complete prior to witness generation, and does not constitute regulatory " ++
  "certification or automatic policy activation."

/-- `ComplianceCollateralProofSubmission`; the public signals are
`[policy_hash, reporting_period_id, dataset_commitment, margin_threshold]`. -/
structure ComplianceCollateralProofSubmission where
  circuitId : String
  proof : Groth16Proof
  publicSignals : List String
  brokerId : String
  policyId : String
  policyHash : String
  reportingPeriodId : String
  datasetCommitment : String
  marginThreshold : String
  circularId : String
  clauseHash : Option String
  sectionReference : String
  ruleId : String
  numTransactions : Int
  numTransactions_ge : 1 ≤ numTransactions

structure ComplianceCollateralVerificationResult where
  verified : Bool
  circuitId : String
  proofHash : String
  policyId : String
  policyHash : String
  reportingPeriodId : String
  datasetCommitment : String
  marginThreshold : String
  ledgerSequenceNum : Option Int
  advisoryNotice : String
  reason : Option String

/-! ## `proof_hashing.py` -/

def texts (l : List String) : Json := .arr (l.map .str)

/-- `proof.model_dump(mode="json")`. -/
def Groth16Proof.modelDump (p : Groth16Proof) : Json :=
  .obj [("pi_a", texts p.piA),
    ("pi_b", .arr (p.piB.map texts)),
    ("pi_c", texts p.piC),
    ("protocol", .str p.protocol),
    ("curve", .str p.curve)]

/-- The dictionary that `compute_proof_hash` serialises. -/
def canonicalProof (circuitId : String) (proof : Groth16Proof) (publicSignals : List String) : Json :=
  .obj [("circuit_id", .str circuitId), ("proof", proof.modelDump),
    ("public_signals", texts publicSignals)]

def computeProofHash (circuitId : String) (proof : Groth16Proof) (publicSignals : List String) :
    String :=
  hexdigest (canonicalProof circuitId proof publicSignals).dumps

end RegEngine.Zkp

/-!
## The proof verifier

`app/zkp/groth16_verifier.py` and `app/zkp/verification_key_registry.py`. The curve operations of
`py_ecc.bn128` are a parameter (`Bn128`); the points are pairs of coordinates reduced modulo the prime
of the field, as its `FQ` and `FQ2` reduce them. The thread that runs the pairings only enlarges the
stack and is not modelled.
-/

namespace RegEngine.Zkp

open Lib Lib.Python

/-! ### `py_ecc.bn128` -/

/-- `field_modulus`: the prime of the coordinates. -/
def Bn128.fieldPrime : Nat :=
  21888242871839275222246405745257275088696311157297823662689037894645226208583

/-- `curve_order`, the same number as `FIELD_MODULUS`. -/
def Bn128.curveOrder : Nat := fieldModulus

/-- `FQ(n)`. -/
def fq (n : Int) : Nat := (n % Bn128.fieldPrime).toNat

/-- A point of the curve; `none` is the point at infinity. -/
abbrev G1 : Type := Option (Nat × Nat)

/-- A point of the twisted curve, its coordinates being pairs. -/
abbrev G2 : Type := Option ((Nat × Nat) × (Nat × Nat))

/-- The operations; `pairing` raises on a point that is not on its curve. -/
structure Bn128 (GT : Type) where
  add : G1 → G1 → G1
  multiply : G1 → Nat → G1
  pairing : G2 → G1 → Option GT
  mul : GT → GT → GT

/-- What can be raised on the way to an answer. -/
inductive ZkpError where
  | proofVerification (message : String)
  | unknownCircuit (circuitId : String)
  | verificationKey
  | pairing
  | valueError
  | ledger
  deriving DecidableEq, Repr

/-! ### Parsing -/

/-- `repr` of a list of lists of texts. -/
def reprRows (l : List (List String)) : String := "[" ++ ", ".intercalate (l.map reprList) ++ "]"

def orRaise {α : Type} (e : ZkpError) : Option α → Except ZkpError α
  | some a => .ok a
  | none => .error e

/-- `int` of the text at an index. -/
def intAt (l : List String) (i : Nat) : Option Int := l[i]?.bind (int? 10)

/-- `_parse_g1`. -/
def parseG1 (coords : List String) : Except ZkpError G1 :=
  if coords.length ≠ 3 then
    .error (.proofVerification s!"G1 point must have 3 coordinates, got {coords.length}.")
  else orRaise (.proofVerification
      s!"G1 coordinates must be decimal integers: {reprList (coords.take 2)}") do
    let x ← intAt coords 0
    let y ← intAt coords 1
    return some (fq x, fq y)

/-- `_parse_g2`. -/
def parseG2 (coords : List (List String)) : Except ZkpError G2 :=
  if coords.length ≠ 3 then
    .error (.proofVerification s!"G2 point must have 3 coordinate pairs, got {coords.length}.")
  else orRaise (.proofVerification ("G2 coordinates must be [x0,x1]/[y0,y1] decimal integer pairs: " ++
      reprRows (coords.take 2))) do
    let xs ← coords[0]?
    let ys ← coords[1]?
    let x0 ← intAt xs 0
    let x1 ← intAt xs 1
    let y0 ← intAt ys 0
    let y1 ← intAt ys 1
    return some ((fq x0, fq x1), (fq y0, fq y1))

/-- `_CurvePoints`. -/
structure CurvePoints where
  alpha1 : G1
  beta2 : G2
  gamma2 : G2
  delta2 : G2
  ic : List G1

/-- `_parse_verification_key`. -/
def parseVerificationKey (vk : Groth16VerificationKey) : Except ZkpError CurvePoints := do
  if (vk.ic.length : Int) ≠ vk.nPublic + 1 then
    throw (.proofVerification (s!"verification key declares nPublic={vk.nPublic} but has " ++
      s!"{vk.ic.length} IC entries (expected {vk.nPublic + 1})."))
  let alpha1 ← parseG1 vk.vkAlpha1
  let beta2 ← parseG2 vk.vkBeta2
  let gamma2 ← parseG2 vk.vkGamma2
  let delta2 ← parseG2 vk.vkDelta2
  let ic ← vk.ic.mapM parseG1
  return { alpha1, beta2, gamma2, delta2, ic }

/-! ### The equation -/

section
variable {GT : Type} [DecidableEq GT] (E : Bn128 GT)

/-- `_compute_vk_x`; there is one point more than there are signals. -/
def computeVkX (ic : List G1) (publicSignals : List Int) : G1 :=
  (ic.tail.zip publicSignals).foldl
    (fun vkX x => E.add vkX (E.multiply x.1 (x.2 % (Bn128.curveOrder : Int)).toNat)) (ic.headD none)

/-- `_check_pairing_equation`. -/
def checkPairingEquation (points : CurvePoints) (piA : G1) (piB : G2) (piC : G1)
    (publicSignals : List Int) : Except ZkpError Bool :=
  let vkX := computeVkX E points.ic publicSignals
  orRaise .pairing do
    let lhs ← E.pairing piB piA
    let ab ← E.pairing points.beta2 points.alpha1
    let xg ← E.pairing points.gamma2 vkX
    let cd ← E.pairing points.delta2 piC
    return lhs = E.mul (E.mul ab xg) cd

/-- `verify_groth16_proof`. -/
def verifyGroth16Proof (vk : Groth16VerificationKey) (proof : Groth16Proof)
    (publicSignals : List String) : Except ZkpError Bool := do
  if (publicSignals.length : Int) ≠ vk.nPublic then
    throw (.proofVerification (s!"Expected {vk.nPublic} public signals for this verification key, " ++
      s!"got {publicSignals.length}."))
  let signals ← orRaise (.proofVerification
    s!"public_signals must be decimal-string field elements: {reprList publicSignals}")
    (publicSignals.mapM (int? 10))
  let points ← parseVerificationKey vk
  let piA ← parseG1 proof.piA
  let piB ← parseG2 proof.piB
  let piC ← parseG1 proof.piC
  checkPairingEquation E points piA piB piC signals

end

/-! ### `verification_key_registry.py` -/

/-- What loading a configured path gives. -/
inductive KeyFile where
  | missing
  | invalid
  | key (vk : Groth16VerificationKey)

/-- The configured paths and the files behind them. -/
structure KeyRegistry where
  zkpVerificationKeys : List (String × String)
  file : String → KeyFile

/-- `get_verification_key`; a missing file counts as an unknown circuit. -/
def getVerificationKey (R : KeyRegistry) (circuitId : String) :
    Except ZkpError Groth16VerificationKey :=
  match R.zkpVerificationKeys.lookup circuitId with
  | none => .error (.unknownCircuit circuitId)
  | some path =>
    match R.file path with
    | .missing => .error (.unknownCircuit circuitId)
    | .invalid => .error .verificationKey
    | .key vk => .ok vk

end RegEngine.Zkp

/-!
## The first group of BN254

Its operations on affine points as `py_ecc.bn128` computes them, and the pairings with the generator of
the second group. Since `P ↦ e(P, G2)` is an isomorphism, `P` itself stands for `e(P, G2)` and the sum
of two points for the product of their pairings; no other pairing is given.
-/

namespace RegEngine.Zkp.Bn254

open Lib Lib.Python
open Bn128 (fieldPrime)

def fqSub (a b : Nat) : Nat := (a + (fieldPrime - b)) % fieldPrime

def fqDiv (a b : Nat) : Nat := a * powMod fieldPrime 254 b (fieldPrime - 2) % fieldPrime

/-- The slope of the chord through two points, or of the tangent at one. -/
def slope (p r : Nat × Nat) : Nat :=
  if p = r then fqDiv (3 * p.1 * p.1) (2 * p.2)
  else fqDiv (fqSub r.2 p.2) (fqSub r.1 p.1)

/-- `add`. -/
def add : G1 → G1 → G1
  | none, r => r
  | p, none => p
  | some p, some r =>
    if r.1 = p.1 ∧ r.2 ≠ p.2 then none
    else
      let m := slope p r
      let x := fqSub (fqSub (m * m) p.1) r.1
      some (x, fqSub (m * fqSub p.1 x) p.2)

/-- `multiply` by the lowest `bits` bits of `n`. -/
def multiplyBits : Nat → G1 → Nat → G1
  | 0, _, _ => none
  | bits + 1, p, n =>
    if n = 0 then none
    else if n = 1 then p
    else
      let half := multiplyBits bits (add p p) (n / 2)
      if n % 2 = 1 then add half p else half

def isOnCurve : G1 → Bool
  | none => true
  | some p => p.2 * p.2 % fieldPrime = (p.1 * p.1 * p.1 + 3) % fieldPrime

def generator : G1 := some (1, 2)

def generator2 : G2 := some
  ((10857046999023057135944570762232829481370756359578518086990519993285655852781,
    11559732032986387107991004021392285783925812861821192530917403151452391805634),
   (8495653923123431417604973247489272438418190587263600148770280649306958101930,
    4082367875863433681332203403145435568316851327593401208105741076214120093531))

/-- The curve, as far as it is given here. -/
def curve : Bn128 G1 where
  add := add
  multiply p n := multiplyBits 256 p n
  pairing r p := if r = generator2 ∧ isOnCurve p = true then some p else none
  mul := add

/-! ## A key and a proof for it -/

def oneText : List String := ["1", "2", "1"]

/-- The texts of a point of the second group. -/
def pairText (p : (Nat × Nat) × (Nat × Nat)) : List (List String) :=
  [[toString p.1.1, toString p.1.2], [toString p.2.1, toString p.2.2], ["1", "0"]]

def twoText : List (List String) := pairText
  ((10857046999023057135944570762232829481370756359578518086990519993285655852781,
    11559732032986387107991004021392285783925812861821192530917403151452391805634),
   (8495653923123431417604973247489272438418190587263600148770280649306958101930,
    4082367875863433681332203403145435568316851327593401208105741076214120093531))

/-- A key all of whose points are generators, for a number of public signals. -/
def generatorKey (nPublic : Nat) : Groth16VerificationKey where
  protocol := "groth16"
  curve := "bn128"
  nPublic := nPublic
  vkAlpha1 := oneText
  vkBeta2 := twoText
  vkGamma2 := twoText
  vkDelta2 := twoText
  ic := List.replicate (nPublic + 1) oneText

/-- A registry with one circuit. -/
def registry (circuitId : String) (vk : Groth16VerificationKey) : KeyRegistry where
  zkpVerificationKeys := [(circuitId, "verification_key.json")]
  file _ := .key vk

/-- A proof whose first point is three times the generator: it verifies for signals that are 0. -/
def threeProof : Groth16Proof where
  piA := [
    toString 3353031288059533942658390886683067124040920775575537747144343083137631628272,
    toString 19321533766552368860946552437480515441416830039777911637913418824951667761761,
    "1"]
  piB := twoText
  piC := oneText
  protocol := "groth16"
  curve := "bn128"
  piA_length := rfl
  piB_length := rfl
  piC_length := rfl

def three : G1 := some
  (3353031288059533942658390886683067124040920775575537747144343083137631628272,
    19321533766552368860946552437480515441416830039777911637913418824951667761761)

theorem parseG1_oneText : parseG1 oneText = .ok generator := by decide +kernel

/-- The text of a coordinate is read as the coordinate. -/
theorem int?_coordinate {n : Nat} (h : n < fieldPrime) : int? 10 n.repr = some (n : Int) :=
  int?_toString_of_lt (h.trans (by decide +kernel))

theorem fq_coordinate {n : Nat} (h : n < fieldPrime) : fq n = n := by
  rw [fq, Int.emod_eq_of_lt (Int.natCast_nonneg n) (by exact_mod_cast h), Int.toNat_natCast]

theorem parseG2_twoText : parseG2 twoText = .ok generator2 := by
  have hp : ∀ p : (Nat × Nat) × (Nat × Nat), p.1.1 < fieldPrime → p.1.2 < fieldPrime →
      p.2.1 < fieldPrime → p.2.2 < fieldPrime → parseG2 (pairText p) = .ok (some p) := by
    intro p h1 h2 h3 h4
    simp [parseG2, pairText, intAt, orRaise, int?_coordinate, fq_coordinate, h1, h2, h3, h4]
  exact hp _ (by decide) (by decide) (by decide) (by decide)

theorem mapM_replicate {α β ε : Type} {f : α → Except ε β} {a : α} {b : β} (h : f a = .ok b) :
    ∀ n, (List.replicate n a).mapM f = .ok (List.replicate n b)
  | 0 => rfl
  | n + 1 => by
    rw [List.replicate_succ, Lib.Except.mapM_cons_ok_iff]
    exact ⟨b, _, h, mapM_replicate h n, rfl⟩

theorem parse_generatorKey (nPublic : Nat) : parseVerificationKey (generatorKey nPublic) =
    .ok ⟨generator, generator2, generator2, generator2, List.replicate (nPublic + 1) generator⟩ := by
  have hic := mapM_replicate parseG1_oneText (nPublic + 1)
  rw [parseVerificationKey, if_neg (by simp [generatorKey])]
  simp only [generatorKey, parseG1_oneText, parseG2_twoText, hic]
  rfl

theorem parseG1_three : parseG1 threeProof.piA = .ok three := by
  have hp : ∀ x y : Nat, x < fieldPrime → y < fieldPrime →
      parseG1 [toString x, toString y, "1"] = .ok (some (x, y)) := by
    intro x y hx hy
    simp [parseG1, intAt, orRaise, int?_coordinate, fq_coordinate, hx, hy]
  exact hp _ _ (by decide) (by decide)

/-- The sum on the right of the equation. -/
theorem add_generators : add (add generator generator) generator = three := by decide +kernel

theorem isOnCurve_points : isOnCurve three = true ∧ isOnCurve generator = true := by decide +kernel

theorem mapM_zeros : ∀ n, (List.replicate n "0").mapM (int? 10) = some (List.replicate n 0)
  | 0 => rfl
  | n + 1 => by
    have hzero : int? 10 "0" = some 0 := by decide +kernel
    rw [List.replicate_succ, List.mapM_cons, hzero, mapM_zeros n]
    rfl

/-- A signal that is 0 adds the point at infinity. -/
theorem computeVkX_zeros (ps : List G1) : ∀ (n : Nat) (p : Nat × Nat),
    (ps.zip (List.replicate n (0 : Int))).foldl
      (fun vkX x => add vkX (multiplyBits 256 x.1 (x.2 % (Bn128.curveOrder : Int)).toNat)) (some p) =
        some p := by
  induction ps with
  | nil => exact fun _ _ => rfl
  | cons r ps ih =>
    intro n p
    cases n with
    | zero => rfl
    | succ n =>
      have hadd : add (some p) (multiplyBits 256 r ((0 : Int) % (Bn128.curveOrder : Int)).toNat) =
          some p := by
        rw [Int.zero_emod]
        rfl
      rw [List.replicate_succ, List.zip_cons_cons, List.foldl_cons, hadd]
      exact ih n p

/-- The proof verifies for any number of signals that are 0. -/
theorem verify_threeProof (n : Nat) :
    verifyGroth16Proof curve (generatorKey n) threeProof (List.replicate n "0") = .ok true := by
  have hB : parseG2 threeProof.piB = .ok generator2 := parseG2_twoText
  have hC : parseG1 threeProof.piC = .ok generator := parseG1_oneText
  have hvkX : computeVkX curve (List.replicate (n + 1) generator) (List.replicate n 0) = generator :=
    computeVkX_zeros _ n (1, 2)
  have hpair : ∀ {p : G1}, isOnCurve p = true → curve.pairing generator2 p = some p := fun h => by
    simp [curve, h]
  rw [verifyGroth16Proof, if_neg (by simp [generatorKey])]
  simp only [mapM_zeros, orRaise, parse_generatorKey, parseG1_three, hB, hC]
  change checkPairingEquation curve _ three generator2 generator _ = _
  simp only [checkPairingEquation, hvkX, hpair isOnCurve_points.1, hpair isOnCurve_points.2]
  simp [orRaise, curve, add_generators]

end RegEngine.Zkp.Bn254
