import RegEngine.Zkp.Groth16Verifier
import RegEngine.Zkp.VerificationService

/-!
# What a margin proof is logged for

`verify_and_log_proof` returns `verified=True` exactly when the circuit's key accepts the proof with its
public signals and the row is inserted (`verified_iff`); the transaction id only enters the row. So a
verified submission names the transaction of its proof only where its sender did so, and a proof that a
key accepts is logged under any number of transaction ids.
-/

namespace RegEngine.Zkp

open Lib Lib.Python Lib.Calendar Ledger

variable {GT : Type} [DecidableEq GT] (E : Bn128 GT) (R : KeyRegistry)

/-! ## When a proof is accepted -/

/-- The key of the circuit accepts the proof with its public signals. -/
def Accepts (circuitId : String) (proof : Groth16Proof) (publicSignals : List String) : Prop :=
  ∃ vk, getVerificationKey R circuitId = .ok vk ∧
    verifyGroth16Proof E vk proof publicSignals = .ok true

theorem proofReason_eq_none_iff {circuitId : String} {proof : Groth16Proof}
    {publicSignals : List String} :
    proofReason E R circuitId proof publicSignals = .ok none ↔
      Accepts E R circuitId proof publicSignals := by
  unfold proofReason Accepts
  cases hkey : getVerificationKey R circuitId with
  | error e => cases e <;> simp
  | ok vk =>
    simp only [Except.ok.injEq, exists_eq_left']
    cases hverify : verifyGroth16Proof E vk proof publicSignals with
    | error e => cases e <;> simp
    | ok verified => cases verified <;> simp

variable {E R}

/-- The call answers `verified=True`. -/
def Verified (E : Bn128 GT) (R : KeyRegistry) (rows : List LedgerRow) (call : AppendCall)
    (submission : MarginComplianceProofSubmission) : Prop :=
  ∃ answer rows', verifyAndLogProof E R rows call submission = .ok (answer, rows') ∧
    answer.verified = true

/-- What a call with a given outcome of the checks does. -/
theorem verifyAndLogProof_cases {rows rows' : List LedgerRow} {call : AppendCall}
    {submission : MarginComplianceProofSubmission} {answer : ZKProofVerificationResult}
    (h : verifyAndLogProof E R rows call submission = .ok (answer, rows')) :
    (answer.verified = false ∧ rows' = rows) ∨
      (answer.verified = true ∧
        Accepts E R submission.circuitId submission.proof submission.publicSignals ∧
        ∃ stamp, call.stamp = some stamp ∧
          rows' = appendEntry rows (marginEvent submission (computeProofHash submission.circuitId
            submission.proof submission.publicSignals) call.evaluatedAt) stamp) := by
  unfold verifyAndLogProof at h
  obtain ⟨reason, hreason, h⟩ := Except.bind_ok_iff.1 h
  cases reason with
  | some text =>
    simp only [Option.isSome_some, if_true] at h
    cases h
    exact .inl ⟨rfl, rfl⟩
  | none =>
    simp only [Option.isSome_none, Bool.false_eq_true, if_false] at h
    obtain ⟨entry, hentry, h⟩ := Except.bind_ok_iff.1 h
    cases h
    refine .inr ⟨rfl, (proofReason_eq_none_iff E R).1 hreason, ?_⟩
    unfold appendEvent at hentry
    cases hstamp : call.stamp with
    | none => simp [hstamp] at hentry
    | some stamp =>
      simp only [hstamp, Except.ok.injEq] at hentry
      exact ⟨stamp, rfl, by rw [← hentry]⟩

/-- An accepted proof whose row is inserted, whatever else the submission says. -/
theorem verifyAndLogProof_of_accepts (rows : List LedgerRow) {call : AppendCall} {stamp : Stamp}
    {submission : MarginComplianceProofSubmission}
    (h : Accepts E R submission.circuitId submission.proof submission.publicSignals)
    (hstamp : call.stamp = some stamp) :
    ∃ answer, answer.verified = true ∧ verifyAndLogProof E R rows call submission =
      .ok (answer, appendEntry rows (marginEvent submission (computeProofHash submission.circuitId
        submission.proof submission.publicSignals) call.evaluatedAt) stamp) := by
  have hreason := (proofReason_eq_none_iff E R).2 h
  let hash := computeProofHash submission.circuitId submission.proof submission.publicSignals
  let row := nextRow (lastEntry rows) (marginEvent submission hash call.evaluatedAt) stamp
  refine ⟨⟨true, submission.circuitId, hash, some row.sequenceNum, none⟩, rfl, ?_⟩
  simp only [verifyAndLogProof, hreason, appendEvent, hstamp]
  rfl

theorem verified_iff {rows : List LedgerRow} {call : AppendCall}
    {submission : MarginComplianceProofSubmission} :
    Verified E R rows call submission ↔
      Accepts E R submission.circuitId submission.proof submission.publicSignals ∧
        call.stamp.isSome = true := by
  constructor
  · rintro ⟨answer, rows', hcall, hverified⟩
    rcases verifyAndLogProof_cases hcall with ⟨hfalse, -⟩ | ⟨-, hacc, stamp, hstamp, -⟩
    · rw [hverified] at hfalse
      cases hfalse
    · exact ⟨hacc, by rw [hstamp]; rfl⟩
  · rintro ⟨hacc, hsome⟩
    obtain ⟨stamp, hstamp⟩ := Option.isSome_iff_exists.1 hsome
    obtain ⟨answer, hverified, hcall⟩ := verifyAndLogProof_of_accepts rows hacc hstamp
    exact ⟨answer, _, hcall, hverified⟩

/-! ## Runs -/

/-- The rows after one call; an error leaves them. -/
def marginStep (E : Bn128 GT) (R : KeyRegistry) (rows : List LedgerRow)
    (c : AppendCall × MarginComplianceProofSubmission) : List LedgerRow :=
  match verifyAndLogProof E R rows c.1 c.2 with
  | .ok (_, rows') => rows'
  | .error _ => rows

/-- The ledger that a sequence of calls leaves. -/
def marginLedger (E : Bn128 GT) (R : KeyRegistry)
    (calls : List (AppendCall × MarginComplianceProofSubmission)) : List LedgerRow :=
  calls.foldl (marginStep E R) []

/-- A call with a proof that no key accepts leaves the rows. -/
theorem marginStep_of_not_accepts {rows : List LedgerRow}
    {c : AppendCall × MarginComplianceProofSubmission}
    (h : ¬ Accepts E R c.2.circuitId c.2.proof c.2.publicSignals) : marginStep E R rows c = rows := by
  unfold marginStep
  cases hcall : verifyAndLogProof E R rows c.1 c.2 with
  | error e => rfl
  | ok result =>
    obtain ⟨answer, rows'⟩ := result
    rcases verifyAndLogProof_cases hcall with ⟨-, hrows⟩ | ⟨-, hacc, -⟩
    · exact hrows
    · exact absurd hacc h

theorem marginStep_of_accepts (rows : List LedgerRow)
    (c : AppendCall × MarginComplianceProofSubmission) {stamp : Stamp}
    (h : Accepts E R c.2.circuitId c.2.proof c.2.publicSignals) (hstamp : c.1.stamp = some stamp) :
    ∃ hash, marginStep E R rows c = appendEntry rows (marginEvent c.2 hash c.1.evaluatedAt) stamp := by
  obtain ⟨answer, -, hcall⟩ := verifyAndLogProof_of_accepts rows h hstamp
  exact ⟨_, by rw [marginStep, hcall]⟩

theorem marginLedger_of_not_accepts {circuitId : String} {proof : Groth16Proof}
    {publicSignals : List String} (h : ¬ Accepts E R circuitId proof publicSignals) :
    ∀ {calls : List (AppendCall × MarginComplianceProofSubmission)} {rows : List LedgerRow},
      (∀ c ∈ calls, c.2.circuitId = circuitId ∧ c.2.proof = proof ∧
        c.2.publicSignals = publicSignals) →
      calls.foldl (marginStep E R) rows = rows
  | [], _, _ => rfl
  | c :: calls, rows, hcalls => by
    obtain ⟨hid, hproof, hsignals⟩ := hcalls c (by simp)
    have hstep : marginStep E R rows c = rows := by
      refine marginStep_of_not_accepts ?_
      rw [hid, hproof, hsignals]
      exact h
    rw [List.foldl_cons, hstep]
    exact marginLedger_of_not_accepts h fun d hd => hcalls d (by simp [hd])

/-! ## The transaction of a proof -/

/-- The second public signal denotes the field element of the transaction id. -/
def NamesItsTransaction (submission : MarginComplianceProofSubmission) : Prop :=
  ∃ signal n, submission.publicSignals[1]? = some signal ∧ int? 10 signal = some n ∧
    stringToFieldElement submission.transactionId = .ok (reduce n)

/-- A submission of a proof under a transaction id. -/
def submissionOf (circuitId : String) (proof : Groth16Proof) (publicSignals : List String)
    (transactionId : String) : MarginComplianceProofSubmission where
  circuitId := circuitId
  proof := proof
  publicSignals := publicSignals
  brokerId := "BROKER-1"
  transactionId := transactionId
  circularId := "SEBI/HO/MIRSD/2026/01"
  clauseHash := "0"
  sectionReference := "3.2.1"
  ruleId := "upfront_margin"

/-- A call whose row gets the number `id`. -/
def callAt (id : Nat) : AppendCall where
  evaluatedAt := DateTime.ofInstant 0 zero_lt_maxMicros
  stamp := some ⟨id, DateTime.ofInstant 0 zero_lt_maxMicros⟩

theorem transactionId_nextRow (last : Option (Int × String)) (s : MarginComplianceProofSubmission)
    (hash : String) (call : AppendCall) (stamp : Stamp) :
    (nextRow last (marginEvent s hash call.evaluatedAt) stamp).transactionId = s.transactionId :=
  rfl

/-- An accepted proof gets two rows under any two transaction ids. -/
theorem marginLedger_two {circuitId : String} {proof : Groth16Proof} {publicSignals : List String}
    (h : Accepts E R circuitId proof publicSignals) (a b : String) :
    ((marginLedger E R [(callAt 1, submissionOf circuitId proof publicSignals a),
      (callAt 2, submissionOf circuitId proof publicSignals b)]).map (·.transactionId)) = [a, b] := by
  obtain ⟨hash, hfirst⟩ := marginStep_of_accepts []
    (callAt 1, submissionOf circuitId proof publicSignals a) h rfl
  obtain ⟨hash', hsecond⟩ := marginStep_of_accepts
    (appendEntry [] (marginEvent (submissionOf circuitId proof publicSignals a) hash
      (callAt 1).evaluatedAt) ⟨1, DateTime.ofInstant 0 (by decide)⟩)
    (callAt 2, submissionOf circuitId proof publicSignals b) h rfl
  rw [marginLedger, List.foldl_cons, hfirst, List.foldl_cons, hsecond, List.foldl_nil]
  simp only [appendEntry, List.nil_append, List.map_append, List.map_cons, List.map_nil,
    transactionId_nextRow]
  rfl

/-- **A margin proof and its transaction.** A submission that is verified names the transaction of its
proof exactly when its sender saw to it or no key accepts the proof: nothing compares the two. And the
runs with one proof leave rows under one transaction id only when no key accepts the proof. -/
theorem margin_proof_names_iff (E : Bn128 GT) (R : KeyRegistry) :
    (∀ submission : MarginComplianceProofSubmission,
      (∀ rows call, Verified E R rows call submission → NamesItsTransaction submission) ↔
        (Accepts E R submission.circuitId submission.proof submission.publicSignals →
          NamesItsTransaction submission)) ∧
    ∀ (circuitId : String) (proof : Groth16Proof) (publicSignals : List String),
      (∀ calls : List (AppendCall × MarginComplianceProofSubmission),
        (∀ c ∈ calls, c.2.circuitId = circuitId ∧ c.2.proof = proof ∧
          c.2.publicSignals = publicSignals) →
        ∀ r ∈ marginLedger E R calls, ∀ r' ∈ marginLedger E R calls,
          r.transactionId = r'.transactionId) ↔
      ¬ Accepts E R circuitId proof publicSignals := by
  refine ⟨fun submission => ?_, fun circuitId proof publicSignals => ?_⟩
  · constructor
    · intro h hacc
      exact h [] (callAt 0) (verified_iff.2 ⟨hacc, rfl⟩)
    · intro h rows call hverified
      exact h (verified_iff.1 hverified).1
  · constructor
    · intro h hacc
      have htwo := marginLedger_two hacc "1" "2"
      have hsame := h [(callAt 1, submissionOf circuitId proof publicSignals "1"),
        (callAt 2, submissionOf circuitId proof publicSignals "2")] (by simp [submissionOf])
      have h1 : "1" ∈ ["1", "2"] := by simp
      have h2 : "2" ∈ ["1", "2"] := by simp
      rw [← htwo] at h1 h2
      obtain ⟨r, hr, hid⟩ := List.mem_map.1 h1
      obtain ⟨r', hr', hid'⟩ := List.mem_map.1 h2
      have heq := hsame r hr r' hr'
      rw [hid, hid'] at heq
      exact absurd heq (by decide)
    · intro h calls hcalls r hr
      rw [marginLedger, marginLedger_of_not_accepts h hcalls] at hr
      cases hr

/-- A proof for the transaction `0` is verified and logged for the transaction `2`. -/
theorem not_forall_namesItsTransaction :
    ¬ ∀ rows call submission,
      Verified Bn254.curve (Bn254.registry "margin_compliance_v1" (Bn254.generatorKey 3)) rows call
        submission → NamesItsTransaction submission := by
  intro h
  have hacc : Accepts Bn254.curve (Bn254.registry "margin_compliance_v1" (Bn254.generatorKey 3))
      "margin_compliance_v1" Bn254.threeProof ["0", "0", "0"] :=
    ⟨Bn254.generatorKey 3, rfl, Bn254.verify_threeProof 3⟩
  obtain ⟨signal, n, hsignal, hn, hfield⟩ := h [] (callAt 0)
    (submissionOf "margin_compliance_v1" Bn254.threeProof ["0", "0", "0"] "2")
    (verified_iff.2 ⟨hacc, rfl⟩)
  have hzero : signal = "0" := by
    simpa [submissionOf] using hsignal.symm
  have hn0 : n = 0 := by
    rw [hzero, show int? 10 "0" = some 0 by decide +kernel] at hn
    exact (Option.some.inj hn).symm
  have htwo : stringToFieldElement "2" = .ok 2 := by decide +kernel
  rw [hn0, submissionOf, htwo] at hfield
  exact absurd hfield (by decide +kernel)

end RegEngine.Zkp

/-!
## The metadata of a collateral proof

The consistency checks of `verify_and_log_collateral_proof` hold exactly when the four public signals
are the texts of the field elements of the four submitted strings (`passesChecks_iff`). So the public
signals bind the field elements, and the strings only as far as no two of them have the same one: every
string shares its field element with a padded one (`stringToFieldElement_blank`), and a decimal number
with its hexadecimal text.
-/

namespace RegEngine.Zkp

open Lib Lib.Python

/-! ### Field elements -/

theorem reduce_lt (n : Int) : reduce n < fieldModulus := by
  have hpos : (0 : Int) < fieldModulus := by decide
  have h := Int.emod_lt_of_pos n hpos
  have h0 := Int.emod_nonneg n hpos.ne'
  unfold reduce
  omega

theorem stringToFieldElement_lt {s : String} {n : Nat} (h : stringToFieldElement s = .ok n) :
    n < fieldModulus := by
  have hdigest : digestField (strip s) < fieldModulus := Nat.mod_lt _ (by decide)
  simp only [stringToFieldElement] at h
  split at h
  · split at h <;> cases h
    exact reduce_lt _
  · split at h <;> cases h
    · exact reduce_lt _
    · exact hdigest

/-- A blank in front of a string is stripped. -/
theorem strip_blank (s : String) : strip (" " ++ s) = strip s := by
  have hblank : (" " ++ s).toList = ' ' :: s.toList := by
    rw [String.toList_append]
    rfl
  have hspace : isSpace ' ' = true := by decide
  rw [strip, hblank, stripChars, List.dropWhile_cons_of_pos hspace]
  rfl

theorem stringToFieldElement_blank (s : String) :
    stringToFieldElement (" " ++ s) = stringToFieldElement s := by
  simp only [stringToFieldElement, strip_blank]

theorem ne_blank (s : String) : " " ++ s ≠ s := by
  intro h
  have hlen := congrArg (fun t : String => t.toList.length) h
  simp [String.toList_append] at hlen

theorem fieldText_ok_iff {s text : String} :
    fieldText s = .ok text ↔ ∃ n, stringToFieldElement s = .ok n ∧ text = toString n := by
  unfold fieldText
  cases stringToFieldElement s with
  | error e => simp
  | ok n => simp [eq_comm]

theorem fieldText_blank (s : String) : fieldText (" " ++ s) = fieldText s := by
  rw [fieldText, fieldText, stringToFieldElement_blank]

theorem toString_nat_inj {m n : Nat} (h : (toString m : String) = toString n) : m = n := by
  have hlist := congrArg String.toList h
  exact Int.ofNat.inj (Text.toString_int_inj (a := m) (b := n) hlist)

/-- Two strings with one field element. -/
def SameField (a b : String) : Prop :=
  ∃ n, stringToFieldElement a = .ok n ∧ stringToFieldElement b = .ok n

theorem sameField_of_fieldText {a b text : String} (ha : fieldText a = .ok text)
    (hb : fieldText b = .ok text) : SameField a b := by
  obtain ⟨m, hm, htext⟩ := fieldText_ok_iff.1 ha
  obtain ⟨n, hn, htext'⟩ := fieldText_ok_iff.1 hb
  have hmn : m = n := toString_nat_inj (htext.symm.trans htext')
  exact ⟨m, hm, hmn ▸ hn⟩

theorem SameField.fieldText {a b : String} (h : SameField a b) :
    ∃ text, Zkp.fieldText a = .ok text ∧ Zkp.fieldText b = .ok text := by
  obtain ⟨n, ha, hb⟩ := h
  exact ⟨toString n, fieldText_ok_iff.2 ⟨n, ha, rfl⟩, fieldText_ok_iff.2 ⟨n, hb, rfl⟩⟩

/-! ### The checks -/

/-- The four strings that a row records of a submission. -/
structure Metadata where
  policyHash : String
  reportingPeriodId : String
  datasetCommitment : String
  marginThreshold : String
  deriving DecidableEq

def ComplianceCollateralProofSubmission.metadata (s : ComplianceCollateralProofSubmission) :
    Metadata :=
  ⟨s.policyHash, s.reportingPeriodId, s.datasetCommitment, s.marginThreshold⟩

def PassesChecks (s : ComplianceCollateralProofSubmission) : Prop := consistencyReason s = .ok none

/-- The public signals are the field texts of the strings. -/
def Metadata.Binds (m : Metadata) (publicSignals : List String) : Prop :=
  ∃ a b c d, fieldText m.policyHash = .ok a ∧ fieldText m.reportingPeriodId = .ok b ∧
    fieldText m.datasetCommitment = .ok c ∧ fieldText m.marginThreshold = .ok d ∧
    publicSignals = [a, b, c, d]

theorem expectedSignals_ok_iff {s : ComplianceCollateralProofSubmission} {l : List String} :
    expectedSignals s = .ok l ↔ s.metadata.Binds l := by
  simp only [expectedSignals, Except.bind_ok_iff, Metadata.Binds,
    ComplianceCollateralProofSubmission.metadata, pure, Except.pure, Except.ok.injEq]
  constructor
  · rintro ⟨a, ha, b, hb, c, hc, d, hd, rfl⟩
    exact ⟨a, b, c, d, ha, hb, hc, hd, rfl⟩
  · rintro ⟨a, b, c, d, ha, hb, hc, hd, rfl⟩
    exact ⟨a, ha, b, hb, c, hc, d, hd, rfl⟩

theorem mismatch_eq_none_iff {signals expected : List String} (hlen : signals.length = 4)
    (hlen' : expected.length = 4) : mismatch signals expected = none ↔ signals = expected := by
  obtain ⟨a, b, c, d, rfl⟩ := List.length_eq_four.1 hlen
  obtain ⟨a', b', c', d', rfl⟩ := List.length_eq_four.1 hlen'
  simp [mismatch, signalNames]

/-- **The consistency checks** pass exactly when the public signals are the field texts of the
submitted strings. -/
theorem passesChecks_iff {s : ComplianceCollateralProofSubmission} :
    PassesChecks s ↔ s.metadata.Binds s.publicSignals := by
  unfold PassesChecks consistencyReason
  by_cases hlen : s.publicSignals.length = 4
  · rw [if_neg (by omega), Except.map_ok_iff]
    constructor
    · rintro ⟨expected, hexp, hnone⟩
      have hbinds := expectedSignals_ok_iff.1 hexp
      obtain ⟨a, b, c, d, -, -, -, -, rfl⟩ := id hbinds
      rwa [(mismatch_eq_none_iff hlen rfl).1 hnone]
    · intro hbinds
      exact ⟨s.publicSignals, expectedSignals_ok_iff.2 hbinds, (mismatch_eq_none_iff hlen hlen).2 rfl⟩
  · rw [if_pos (by omega)]
    constructor
    · intro h
      cases h
    · rintro ⟨a, b, c, d, -, -, -, -, hsignals⟩
      rw [hsignals] at hlen
      exact absurd rfl hlen

/-! ### What the signals bind -/

/-- The four pairs of strings have the same field elements. -/
def Metadata.Collides (m m' : Metadata) : Prop :=
  SameField m.policyHash m'.policyHash ∧ SameField m.reportingPeriodId m'.reportingPeriodId ∧
    SameField m.datasetCommitment m'.datasetCommitment ∧ SameField m.marginThreshold m'.marginThreshold

theorem Metadata.collides_iff {m m' : Metadata} :
    m.Collides m' ↔ ∃ signals, m.Binds signals ∧ m'.Binds signals := by
  constructor
  · rintro ⟨h1, h2, h3, h4⟩
    obtain ⟨a, ha, ha'⟩ := h1.fieldText
    obtain ⟨b, hb, hb'⟩ := h2.fieldText
    obtain ⟨c, hc, hc'⟩ := h3.fieldText
    obtain ⟨d, hd, hd'⟩ := h4.fieldText
    exact ⟨[a, b, c, d], ⟨a, b, c, d, ha, hb, hc, hd, rfl⟩, ⟨a, b, c, d, ha', hb', hc', hd', rfl⟩⟩
  · rintro ⟨signals, ⟨a, b, c, d, ha, hb, hc, hd, rfl⟩, ⟨a', b', c', d', ha', hb', hc', hd', heq⟩⟩
    simp only [List.cons.injEq, and_true] at heq
    obtain ⟨rfl, rfl, rfl, rfl⟩ := heq
    exact ⟨sameField_of_fieldText ha ha', sameField_of_fieldText hb hb',
      sameField_of_fieldText hc hc', sameField_of_fieldText hd hd'⟩

/-- A submission of a proof with its public signals under four strings. -/
def collateralOf (proof : Groth16Proof) (publicSignals : List String) (m : Metadata) :
    ComplianceCollateralProofSubmission where
  circuitId := "compliance_collateral_v1"
  proof := proof
  publicSignals := publicSignals
  brokerId := "BROKER-1"
  policyId := "POL-1"
  policyHash := m.policyHash
  reportingPeriodId := m.reportingPeriodId
  datasetCommitment := m.datasetCommitment
  marginThreshold := m.marginThreshold
  circularId := "SEBI/HO/MIRSD/2026/01"
  clauseHash := none
  sectionReference := "3.2.1"
  ruleId := "compliance_collateral"
  numTransactions := 4
  numTransactions_ge := by decide

/-- **What a collateral proof binds.** The submissions of one proof with one list of public signals that
pass the checks under two quadruples of strings record the same strings exactly when the quadruples
are equal or one of the four pairs has two field elements. And beside every submission that passes
there is another one, with the same proof and public signals and another policy hash. -/
theorem collateral_metadata_iff (m m' : Metadata) :
    ((∀ s t : ComplianceCollateralProofSubmission, s.metadata = m → t.metadata = m' →
        s.proof = t.proof → s.publicSignals = t.publicSignals → PassesChecks s → PassesChecks t →
        s.metadata = t.metadata) ↔ (m.Collides m' → m = m')) ∧
      ∀ s : ComplianceCollateralProofSubmission, s.metadata = m → PassesChecks s →
        ∃ t, t.proof = s.proof ∧ t.publicSignals = s.publicSignals ∧ PassesChecks t ∧
          t.policyHash ≠ s.policyHash := by
  refine ⟨⟨fun h hcollides => ?_, fun h s t hs ht _ hsignals hpass hpass' => ?_⟩,
    fun s hs hpass => ?_⟩
  · obtain ⟨signals, hbinds, hbinds'⟩ := Metadata.collides_iff.1 hcollides
    exact h (collateralOf Bn254.threeProof signals m) (collateralOf Bn254.threeProof signals m') rfl rfl
      rfl rfl (passesChecks_iff.2 hbinds) (passesChecks_iff.2 hbinds')
  · rw [hs, ht]
    have hbinds := passesChecks_iff.1 hpass
    have hbinds' := passesChecks_iff.1 hpass'
    rw [hs] at hbinds
    rw [ht, ← hsignals] at hbinds'
    exact h (Metadata.collides_iff.2 ⟨_, hbinds, hbinds'⟩)
  · obtain ⟨a, b, c, d, ha, hb, hc, hd, hsignals⟩ := passesChecks_iff.1 hpass
    have hblank : fieldText (" " ++ s.policyHash) = .ok a := (fieldText_blank s.policyHash).trans ha
    refine ⟨{ s with policyHash := " " ++ s.policyHash }, rfl, rfl, ?_, ne_blank _⟩
    exact passesChecks_iff.2 ⟨a, b, c, d, hblank, hb, hc, hd, hsignals⟩

/-- A policy hash in decimal and in hexadecimal. -/
theorem not_forall_metadata_bound :
    ¬ ∀ s t : ComplianceCollateralProofSubmission, s.proof = t.proof →
      s.publicSignals = t.publicSignals → PassesChecks s → PassesChecks t →
      s.policyHash = t.policyHash ∧ s.reportingPeriodId = t.reportingPeriodId ∧
        s.datasetCommitment = t.datasetCommitment ∧ s.marginThreshold = t.marginThreshold := by
  intro h
  have hfive : fieldText "5" = .ok "5" := by decide +kernel
  have hhex : fieldText "0x5" = .ok "5" := by decide +kernel
  have hboth := h (collateralOf Bn254.threeProof ["5", "5", "5", "5"] ⟨"5", "5", "5", "5"⟩)
    (collateralOf Bn254.threeProof ["5", "5", "5", "5"] ⟨"0x5", "5", "5", "5"⟩) rfl rfl
    (passesChecks_iff.2 ⟨"5", "5", "5", "5", hfive, hfive, hfive, hfive, rfl⟩)
    (passesChecks_iff.2 ⟨"5", "5", "5", "5", hhex, hfive, hfive, hfive, rfl⟩)
  exact absurd hboth.1 (by decide)

end RegEngine.Zkp
