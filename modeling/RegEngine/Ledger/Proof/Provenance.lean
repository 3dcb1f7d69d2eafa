import RegEngine.Ledger.Proof.Record
import RegEngine.Ledger.Provenance

/-!
# Recorded decisions and their verification

`build_ledger_events` digests the transaction with `broker_id or ""` and stores `broker_id or
"unknown"` in the row; `verify_decision_provenance` rebuilds both digests from the row.

* `rebuiltEvidence_row`: the evidence manifest is rebuilt as it was digested.
* `computedTxDigest_row`: the transaction is rebuilt with the stored broker.
* `recorded_decision_verifies`: the rebuilt digests are the stored ones exactly for transactions
  with a broker, SHA-256 collisions apart; then no verification reports stage 8 or stage 10.
-/

namespace RegEngine.Ledger

open Lib Lib.Calendar Lib.Python Lib.Sha256 Execution Provenance

variable {explain : PolicyOutcome → List String} {tx : TransactionPayload}
  {result : EvaluationResult}

/-! ## Appended rows -/

/-- The ledger after these `append_entry` calls. -/
def appendEntries (rows : List LedgerRow) (calls : List (ComplianceEvaluationEvent × Stamp)) :
    List LedgerRow :=
  calls.foldl (fun rows c => appendEntry rows c.1 c.2) rows

/-- A row that the calls added holds one of their events. -/
theorem payload_of_appendEntries : ∀ {calls : List (ComplianceEvaluationEvent × Stamp)}
    {rows : List LedgerRow} {row : LedgerRow}, row ∈ appendEntries rows calls → row ∉ rows →
    ∃ c ∈ calls, row.toPayload = c.1.toPayload
  | [], _, _, h, hnew => absurd h hnew
  | c :: calls, rows, row, h, hnew => by
    by_cases hc : row ∈ appendEntry rows c.1 c.2
    · have hlast := (List.mem_append.1 hc).resolve_left hnew
      rw [List.mem_singleton] at hlast
      exact ⟨c, List.mem_cons_self, by rw [hlast]; rfl⟩
    · have hrest : row ∈ appendEntries (appendEntry rows c.1 c.2) calls := h
      obtain ⟨d, hd, hpay⟩ := payload_of_appendEntries hrest hc
      exact ⟨d, List.mem_cons_of_mem _ hd, hpay⟩

/-- The event of a matched policy. -/
theorem exists_outcome {events : List ComplianceEvaluationEvent} {e : ComplianceEvaluationEvent}
    (hm : result.matchedPolicies ≠ []) (hev : buildLedgerEvents explain tx result = .ok events)
    (he : e ∈ events) : ∃ o ∈ result.matchedPolicies, e.toPayload = outcomePayload explain tx result o := by
  have hmem : e.toPayload ∈ ledgerPayloads explain tx result := by
    rw [← toPayload_buildLedgerEvents hev]
    exact List.mem_map_of_mem he
  rw [ledgerPayloads, if_neg (by simpa using hm)] at hmem
  obtain ⟨o, ho, heq⟩ := List.mem_map.1 hmem
  exact ⟨o, ho, heq.symm⟩

/-! ## The digests of a row -/

/-- The digests recomputed from the row are those in its details. -/
structure DigestsMatch (row : LedgerRow) : Prop where
  transaction : detail row "transaction_input_digest" = .str (computedTxDigest row)
  evidence : detail row "evidence_digest" = .str (computedEvidenceDigest row)

/-- The text that is digested for a transaction, with this broker. -/
def txText (tx : TransactionPayload) (broker : String) : String :=
  (Json.obj [("broker_id", .str broker), ("entity_type", .str tx.entityType),
    ("facts", .obj tx.facts), ("transaction_id", .str tx.transactionId)]).dumps

section
variable {row : LedgerRow} {o : PolicyOutcome}
  (hrow : row.toPayload = outcomePayload explain tx result o)

include hrow

theorem detail_txDigest :
    detail row "transaction_input_digest" = .str (hexdigest (txText tx (orText tx.brokerId ""))) := by
  rw [detail, hrow]
  rfl

/-- The transaction is rebuilt with the broker of the row. -/
theorem computedTxDigest_row :
    computedTxDigest row = hexdigest (txText tx (orText tx.brokerId "unknown")) := by
  rw [computedTxDigest, txCanonical, hrow]
  rfl

/-- The evidence is rebuilt as it was digested, whatever fields of the outcome are absent. -/
theorem evidence_row : detail row "evidence_digest" = .str (computedEvidenceDigest row) := by
  unfold computedEvidenceDigest rebuiltEvidence detail historicalRuleVersion
  rw [hrow]
  rfl

end

/-! ## The broker -/

theorem orText_of_truthy {s : Option String} (h : truthy s = true) (d : String) :
    orText s d = s.getD "" := by
  cases s with
  | none => simp [truthy] at h
  | some t => simp_all [truthy, orText]

theorem orText_of_not_truthy {s : Option String} (h : truthy s = false) (d : String) :
    orText s d = d := by
  cases s with
  | none => rfl
  | some t => simp_all [truthy, orText]

/-- A transaction with no broker is digested and rebuilt as two different texts. -/
theorem txText_unknown_ne (tx : TransactionPayload) : txText tx "unknown" ≠ txText tx "" := by
  have hshape : ∀ b, ∃ rest, (txText tx b).toList =
      "\x7b\"broker_id\":\"".toList ++ (b.toList.flatMap Json.escapeChar ++ ('"' :: rest)) := by
    intro b
    simp only [txText, Json.dumps, Json.sortKeys, Json.sortFields]
    simp +decide only [List.insertionSort_cons, List.insertionSort_nil, List.orderedInsert,
      if_true]
    simp only [Json.render, Json.renderFields, Json.quote, String.toList_append, String.toList_ofList,
      List.append_assoc]
    exact ⟨_, rfl⟩
  obtain ⟨r, hr⟩ := hshape "unknown"
  obtain ⟨r', hr'⟩ := hshape ""
  intro heq
  rw [heq, hr'] at hr
  have hcut := List.append_cancel_left hr
  exact absurd (List.cons.inj hcut).1 (by decide)

/-- Two different texts with one SHA-256 digest. -/
def Collision (a b : String) : Prop := a ≠ b ∧ hexdigest a = hexdigest b

theorem digestsMatch_iff {row : LedgerRow} {o : PolicyOutcome}
    (hrow : row.toPayload = outcomePayload explain tx result o) :
    DigestsMatch row ↔ truthy tx.brokerId = true ∨ Collision (txText tx "unknown") (txText tx "") := by
  have htx : detail row "transaction_input_digest" = .str (computedTxDigest row) ↔
      hexdigest (txText tx (orText tx.brokerId "unknown")) =
        hexdigest (txText tx (orText tx.brokerId "")) := by
    rw [detail_txDigest hrow, computedTxDigest_row hrow, Json.str.injEq, eq_comm]
  have hmatch : DigestsMatch row ↔ hexdigest (txText tx (orText tx.brokerId "unknown")) =
        hexdigest (txText tx (orText tx.brokerId "")) :=
    ⟨fun h => htx.1 h.transaction, fun h => ⟨htx.2 h, evidence_row hrow⟩⟩
  rw [hmatch]
  cases h : truthy tx.brokerId with
  | true => simp [orText_of_truthy h]
  | false =>
    rw [orText_of_not_truthy h, orText_of_not_truthy h, Collision]
    simp [txText_unknown_ne]

/-! ## The verification -/

theorem mem_breakIf {failed : Bool} {i : Nat} {name reason : String} {x y : Json}
    {b : ProvenanceBreak} (h : b ∈ breakIf failed i name reason x y) :
    failed = true ∧ b.stageIndex = i := by
  unfold breakIf at h
  split at h
  · rename_i hf
    rw [List.mem_singleton] at h
    exact ⟨hf, by rw [h]⟩
  · cases h

/-- No break of stage 8 or stage 10. -/
def Silent (breaks : List ProvenanceBreak) : Prop :=
  ∀ b ∈ breaks, b.stageIndex ≠ 8 ∧ b.stageIndex ≠ 10

theorem silent_breakIf {failed : Bool} {i : Nat} {name reason : String} {x y : Json}
    (h : failed = true → i ≠ 8 ∧ i ≠ 10) : Silent (breakIf failed i name reason x y) := by
  intro b hb
  obtain ⟨hf, hi⟩ := mem_breakIf hb
  rw [hi]
  exact h hf

theorem Silent.append {l m : List ProvenanceBreak} (hl : Silent l) (hm : Silent m) :
    Silent (l ++ m) := by
  intro b hb
  rcases List.mem_append.1 hb with hb | hb
  · exact hl b hb
  · exact hm b hb

theorem silent_nil : Silent [] := fun _ h => by cases h

theorem silent_stageBreaks (nfkc : String → String) (evidence : Evidence) {row : LedgerRow}
    (rule : RuleRow) (clause : ClauseRow) (circular : CircularRow) (review : Option ReviewRow)
    (h : DigestsMatch row) :
    Silent (stageBreaks nfkc evidence row rule clause circular review) := by
  have other : ∀ {failed : Bool} {i : Nat} {name reason : String} {x y : Json}, i ≠ 8 ∧ i ≠ 10 →
      Silent (breakIf failed i name reason x y) := fun hi => silent_breakIf fun _ => hi
  have hpdf : Silent (verifyOriginalPdf evidence circular) := by
    unfold verifyOriginalPdf
    split
    · exact silent_nil
    · exact other (by decide)
  have htext : Silent (verifyExtractedText nfkc evidence circular) := by
    unfold verifyExtractedText
    split
    · exact silent_nil
    · exact other (by decide)
  have hreview : Silent (verifyReview row review) := by
    cases review with
    | none => exact silent_nil
    | some r => exact ((other (by decide)).append (other (by decide))).append (other (by decide))
  have hinput : Silent (verifyTransactionInput row) := by
    refine silent_breakIf fun hfail => ?_
    simp [h.transaction] at hfail
  have hevidence : Silent (verifyEvidence row) := by
    refine silent_breakIf fun hfail => ?_
    simp [h.evidence] at hfail
  unfold stageBreaks
  refine ((((((((hpdf.append htext).append ?_).append ?_).append ?_).append hreview).append
    hinput).append hevidence).append ?_)
  · exact (other (by decide)).append (other (by decide))
  · exact other (by decide)
  · exact other (by decide)
  · exact (other (by decide)).append (other (by decide))

/-- The rule, the clause and the circular of the row are there. -/
def Provenance.Session.ParentsFound (S : Session) (row : LedgerRow) : Prop :=
  ∃ rule clause circular, S.rule row = some rule ∧
    S.clauses.find? (·.id = rule.clauseId) = some clause ∧
    S.circulars.find? (·.id = clause.circularId) = some circular

/-- Without the parents the verification ends before the digests. -/
theorem silent_of_not_parentsFound (nfkc : String → String) {S : Session} (evidence : Evidence)
    {row : LedgerRow} (h : ¬ S.ParentsFound row) : Silent (Provenance.rowBreaks nfkc S evidence row) := by
  unfold Provenance.rowBreaks
  split
  · exact silent_breakIf fun _ => by decide
  · rename_i rule hrule
    split
    · exact silent_breakIf fun _ => by decide
    · rename_i clause hclause
      split
      · exact silent_breakIf fun _ => by decide
      · rename_i circular hcircular
        exact absurd ⟨rule, clause, circular, hrule, hclause, hcircular⟩ h

theorem rowBreaks_of_parentsFound (nfkc : String → String) {S : Session} (evidence : Evidence)
    {row : LedgerRow} (h : S.ParentsFound row) :
    ∃ rule clause circular review, Provenance.rowBreaks nfkc S evidence row =
      stageBreaks nfkc evidence row rule clause circular review := by
  obtain ⟨rule, clause, circular, hrule, hclause, hcircular⟩ := h
  refine ⟨rule, clause, circular, S.review row rule clause, ?_⟩
  simp only [Provenance.rowBreaks, hrule, hclause, hcircular]

/-- A transaction digest that is stored and does not match is reported. -/
theorem not_silent_stageBreaks (nfkc : String → String) (evidence : Evidence) {row : LedgerRow}
    (rule : RuleRow) (clause : ClauseRow) (circular : CircularRow) (review : Option ReviewRow)
    {digest : String} (hdigest : detail row "transaction_input_digest" = .str digest)
    (hne : digest ≠ "") (hfacts : (row.details.get? "facts").isSome = true)
    (h : computedTxDigest row ≠ digest) :
    ¬ Silent (stageBreaks nfkc evidence row rule clause circular review) := by
  intro hsilent
  obtain ⟨b, hb, hstage⟩ : ∃ b, verifyTransactionInput row = [b] ∧ b.stageIndex = 8 := by
    simp [verifyTransactionInput, breakIf, hdigest, hfacts, Json.truthy, hne, h]
  exact (hsilent b (by simp [stageBreaks, hb])).1 hstage

theorem silent_rowBreaks_iff (nfkc : String → String) (S : Session) (evidence : Evidence)
    {row : LedgerRow} {o : PolicyOutcome}
    (hrow : row.toPayload = outcomePayload explain tx result o) :
    Silent (Provenance.rowBreaks nfkc S evidence row) ↔ DigestsMatch row ∨ ¬ S.ParentsFound row := by
  by_cases hp : S.ParentsFound row
  · obtain ⟨rule, clause, circular, review, hbreaks⟩ := rowBreaks_of_parentsFound nfkc evidence hp
    rw [hbreaks, or_iff_left (not_not.2 hp)]
    refine ⟨fun hsilent => ?_, fun h => silent_stageBreaks nfkc evidence rule clause circular review h⟩
    by_contra hmatch
    have htx : computedTxDigest row ≠ hexdigest (txText tx (orText tx.brokerId "")) := fun heq =>
      hmatch ⟨by rw [detail_txDigest hrow, heq], evidence_row hrow⟩
    have hfacts : (row.details.get? "facts").isSome = true := by
      rw [hrow]
      rfl
    have hne : hexdigest (txText tx (orText tx.brokerId "")) ≠ "" := fun h0 => by
      have hlen := length_hexdigest (txText tx (orText tx.brokerId ""))
      simp [h0] at hlen
    exact not_silent_stageBreaks nfkc evidence rule clause circular review (detail_txDigest hrow) hne
      hfacts htx hsilent
  · exact iff_of_true (silent_of_not_parentsFound nfkc evidence hp) (.inr hp)

theorem silent_verify_iff {S : Session} {transactionId : String} {sequenceNum : Option Int}
    {row : LedgerRow} {o : PolicyOutcome} (nfkc : String → String) (evidence : Evidence)
    (hrow : row.toPayload = outcomePayload explain tx result o)
    (hfetch : S.ledgerRow transactionId sequenceNum = some row) :
    Silent (verifyDecisionProvenance nfkc S transactionId evidence sequenceNum).breaks ↔
      DigestsMatch row ∨ ¬ S.ParentsFound row := by
  rw [← silent_rowBreaks_iff nfkc S evidence hrow]
  unfold verifyDecisionProvenance
  rw [hfetch]

/-- **A recorded decision verifies exactly when the transaction names its broker.** For every row
appended for a matched policy: the digests rebuilt from it are the stored ones exactly when the
transaction has a broker (or two different texts collide), and a verification of the row reports
neither stage 8 nor stage 10 exactly then, or when it ends early for want of the row's parents. -/
theorem recorded_decision_verifies (explain : PolicyOutcome → List String) (tx : TransactionPayload)
    (result : EvaluationResult) (hm : result.matchedPolicies ≠ [])
    (rows : List LedgerRow) (calls : List (ComplianceEvaluationEvent × Stamp))
    (hev : buildLedgerEvents explain tx result = .ok (calls.map (·.1)))
    (row : LedgerRow) (hrow : row ∈ appendEntries rows calls) (hnew : row ∉ rows) :
    (DigestsMatch row ↔
      truthy tx.brokerId = true ∨ Collision (txText tx "unknown") (txText tx "")) ∧
    (∀ (nfkc : String → String) (S : Session) (transactionId : String) (evidence : Evidence)
      (sequenceNum : Option Int), S.ledgerRow transactionId sequenceNum = some row →
      (Silent (verifyDecisionProvenance nfkc S transactionId evidence sequenceNum).breaks ↔
        (truthy tx.brokerId = true ∨ Collision (txText tx "unknown") (txText tx "")) ∨
          ¬ S.ParentsFound row)) := by
  obtain ⟨c, hc, hpay⟩ := payload_of_appendEntries hrow hnew
  obtain ⟨o, -, ho⟩ := exists_outcome hm hev (List.mem_map_of_mem hc)
  have hiff := digestsMatch_iff (hpay.trans ho)
  refine ⟨hiff, fun nfkc S transactionId evidence sequenceNum hfetch => ?_⟩
  rw [← hiff]
  exact silent_verify_iff nfkc evidence (hpay.trans ho) hfetch

/-- A transaction of this broker, and its evaluation: one policy that allows. -/
def tradeOf (broker : Option String) : TransactionPayload :=
  ⟨"T1", "Stockbroker", [("upfront_margin_pct", .int 30)], broker⟩

def allowedTrade : EvaluationResult :=
  { transactionId := "T1"
    decision := .allow
    matchedPolicies := [{ ruleId := "a:1", package := "p", allow := some true }]
    evaluatedAt := .ofInstant 7 (by decide) }

theorem exists_tradeRow (broker : Option String) :
    ∃ (calls : List (ComplianceEvaluationEvent × Stamp)) (row : LedgerRow),
      buildLedgerEvents (fun _ => []) (tradeOf broker) allowedTrade = .ok (calls.map (·.1)) ∧
      row ∈ appendEntries [] calls ∧ row.toPayload = outcomePayload (fun _ => []) (tradeOf broker)
        allowedTrade { ruleId := "a:1", package := "p", allow := some true } := by
  let p := outcomePayload (fun _ => []) (tradeOf broker) allowedTrade
    { ruleId := "a:1", package := "p", allow := some true }
  let e : ComplianceEvaluationEvent := { p with hitlReviewIdConsistency := ⟨nofun, nofun⟩ }
  exact ⟨[(e, ⟨1, .ofInstant 0 (by decide)⟩)], _, rfl, List.mem_singleton.2 rfl, rfl⟩

theorem recorded_decision_verifies_broker :
    ∃ (calls : List (ComplianceEvaluationEvent × Stamp)) (row : LedgerRow),
      buildLedgerEvents (fun _ => []) (tradeOf (some "B1")) allowedTrade = .ok (calls.map (·.1)) ∧
      row ∈ appendEntries [] calls ∧ DigestsMatch row := by
  obtain ⟨calls, row, hev, hrow, -⟩ := exists_tradeRow (some "B1")
  refine ⟨calls, row, hev, hrow, ?_⟩
  exact (recorded_decision_verifies (fun _ => []) (tradeOf (some "B1")) allowedTrade (by decide) []
    calls hev row hrow (by simp)).1.2 (.inl rfl)

/-- **A transaction without a broker does not verify**, in any database that holds the parents of its
row. -/
theorem recorded_decision_breaks :
    ∃ (calls : List (ComplianceEvaluationEvent × Stamp)) (row : LedgerRow),
      buildLedgerEvents (fun _ => []) (tradeOf none) allowedTrade = .ok (calls.map (·.1)) ∧
      row ∈ appendEntries [] calls ∧ ¬ DigestsMatch row ∧
      ∀ (nfkc : String → String) (S : Session) (evidence : Evidence) (sequenceNum : Option Int),
        S.ledgerRow "T1" sequenceNum = some row → S.ParentsFound row →
        ¬ Silent (verifyDecisionProvenance nfkc S "T1" evidence sequenceNum).breaks := by
  obtain ⟨calls, row, hev, hrow, hpay⟩ := exists_tradeRow none
  have hmatch : ¬ DigestsMatch row := by
    rw [digestsMatch_iff hpay, not_or]
    refine ⟨by decide, fun hcol => absurd hcol.2 ?_⟩
    decide +kernel
  refine ⟨calls, row, hev, hrow, hmatch, fun nfkc S evidence sequenceNum hfetch hparents => ?_⟩
  rw [silent_verify_iff nfkc evidence hpay hfetch, not_or, not_not]
  exact ⟨hmatch, hparents⟩

end RegEngine.Ledger
