import RegEngine.Hitl.Proof.Ingestion
import RegEngine.Hitl.Stages

/-!
# What the stages change besides the rules

The stages write the states of the circular and of its clauses (`StatusOnly`); rules and reviews are
written by the compilation of the clauses that are not completed.

* `statusOnly_extractionStage`, `statusOnly_settleStages`: the stages around the compilation.
* `rerun_unchanged_iff`: processing a finished circular again leaves it finished exactly when no
  review of its clauses is blocking.
-/

namespace RegEngine.Hitl

open Lib Lib.Python Parsing

/-- What identifies a clause, beside its status. -/
def Clause.identity (c : Clause) : Nat × Option String × String × String :=
  (c.circularId, c.clauseNumber, c.text, c.sha256)

/-- Only the states of one circular and of clauses change. -/
structure StatusOnly (s s' : Store) (circularId : Nat) : Prop where
  rules : s'.rules = s.rules
  reviews : s'.reviews = s.reviews
  clauses : ∀ k, (s'.clauses.get? k).map Clause.identity = (s.clauses.get? k).map Clause.identity
  circulars : ∀ j, j ≠ circularId → s'.circulars.get? j = s.circulars.get? j
  present : (s'.circulars.get? circularId).isSome = (s.circulars.get? circularId).isSome

section
variable {s s' s'' : Store} {circularId : Nat}

theorem StatusOnly.refl (s : Store) (circularId : Nat) : StatusOnly s s circularId :=
  ⟨rfl, rfl, fun _ => rfl, fun _ _ => rfl, rfl⟩

theorem StatusOnly.trans (h : StatusOnly s s' circularId) (h' : StatusOnly s' s'' circularId) :
    StatusOnly s s'' circularId where
  rules := h'.rules.trans h.rules
  reviews := h'.reviews.trans h.reviews
  clauses k := (h'.clauses k).trans (h.clauses k)
  circulars j hj := (h'.circulars j hj).trans (h.circulars j hj)
  present := h'.present.trans h.present

theorem statusOnly_setClauseStatus (s : Store) (circularId k : Nat) (status : ClauseStatus)
    (errorMessage : Option (Option String)) :
    StatusOnly s (setClauseStatus s k status errorMessage) circularId where
  rules := rfl
  reviews := rfl
  clauses j := by
    simp only [setClauseStatus, Table.get?_update]
    split
    · cases s.clauses.get? j <;> rfl
    · rfl
  circulars _ _ := rfl
  present := rfl

theorem statusOnly_transition (s : Store) (circularId : Nat) (toState : ProcessingState)
    (errorMessage : Option String) (details : Json) :
    StatusOnly s (transitionCircularState s circularId toState errorMessage details)
      circularId := by
  unfold transitionCircularState
  split
  · exact .refl s circularId
  · rename_i circular hcircular
    refine ⟨rfl, rfl, fun _ => rfl, fun j hj => ?_, ?_⟩
    · simp only [Table.get?_update, if_neg hj]
    · simp only [Table.get?_update, if_true, hcircular, Option.map_some, Option.isSome_some]

/-- A loop whose body changes states only. -/
theorem statusOnly_foldl {α : Type} {f : Store → α → Store}
    (hf : ∀ s a, StatusOnly s (f s a) circularId) :
    ∀ (l : List α) (s : Store), StatusOnly s (l.foldl f s) circularId
  | [], s => .refl s circularId
  | a :: l, s => (hf s a).trans (statusOnly_foldl hf l (f s a))

theorem statusOnly_extracted (keys : List Nat) (s : Store) (result : ClauseChunk × Extraction) :
    StatusOnly s (extracted keys s result) circularId := by
  unfold extracted
  split
  · exact statusOnly_setClauseStatus ..
  · exact statusOnly_setClauseStatus ..
  · exact .refl s circularId

/-- **The extraction changes states only.** -/
theorem statusOnly_extractionStage (c : StageCall) (s : Store) :
    StatusOnly s (c.extractionStage s) c.circularId := by
  unfold StageCall.extractionStage
  dsimp only
  refine StatusOnly.trans ?_ (statusOnly_transition ..)
  refine StatusOnly.trans ?_ (statusOnly_transition ..)
  refine StatusOnly.trans ?_ (statusOnly_foldl (fun s a => statusOnly_extracted _ s a) _ _)
  refine StatusOnly.trans ?_ (statusOnly_transition ..)
  refine StatusOnly.trans ?_ (statusOnly_foldl (fun s k => statusOnly_setClauseStatus ..) _ _)
  exact statusOnly_foldl (fun s k => statusOnly_setClauseStatus ..) _ _

theorem statusOnly_settleStages (s : Store) (circularId : Nat) (clauseIds : List Nat) :
    StatusOnly s (settleStages s circularId clauseIds) circularId :=
  statusOnly_transition ..

/-! ## The state of the circular -/

theorem get?_transition {toState : ProcessingState} {errorMessage : Option String} {details : Json}
    {circular : Circular} (h : s.circulars.get? circularId = some circular) :
    ∃ circular', (transitionCircularState s circularId toState errorMessage details).circulars.get?
        circularId = some circular' ∧ circular'.processingState = toState := by
  simp only [transitionCircularState, h, Table.get?_update, if_true, Option.map_some,
    Option.some.injEq, exists_eq_left']

/-- The state a circular has at the end of the stages. -/
theorem get?_settleStages (clauseIds : List Nat)
    (h : (s.circulars.get? circularId).isSome = true) :
    ∃ circular, (settleStages s circularId clauseIds).circulars.get? circularId = some circular ∧
      circular.processingState =
        if pendingOrBlocking s clauseIds ≠ [] then .awaitingHitl else .approved := by
  obtain ⟨circular, hcircular⟩ := Option.isSome_iff_exists.1 h
  exact get?_transition hcircular

/-! ## Completed clauses -/

theorem mem_completedClauseIds {clauseIds : List Nat} {k : Nat} :
    k ∈ completedClauseIds s clauseIds ↔ k ∈ clauseIds ∧ ∃ j r, s.rules.get? j = some r ∧
      r.clauseId = k ∧ isCompiledRule r = true := by
  simp only [completedClauseIds, Store.rulesIn, List.mem_filter, List.any_eq_true,
    decide_eq_true_eq]
  refine and_congr_right fun hk => ?_
  constructor
  · rintro ⟨x, hx, hclause, hcompiled⟩
    exact ⟨x.1, x.2, (Table.mem_select.1 hx).1, hclause, hcompiled⟩
  · rintro ⟨j, r, hr, rfl, hcompiled⟩
    exact ⟨(j, r), Table.mem_select.2 ⟨hr, by simpa using hk⟩, rfl, hcompiled⟩

theorem compileClauses_completed {o : Outside} {tenantId : String} {chunks : List ClauseChunk}
    {results : List (ClauseChunk × Extraction)} {completed : List Nat} {i : Nat} :
    ∀ {ks : List Nat}, (∀ k ∈ ks, k ∈ completed) →
      compileClauses o tenantId chunks results completed i s ks = .ok s
  | [], _ => rfl
  | k :: ks, h => by
    rw [compileClauses, if_pos (h k List.mem_cons_self)]
    exact compileClauses_completed fun k' hk' => h k' (List.mem_cons_of_mem _ hk')

/-- An execution whose clauses are all completed changes states only. -/
theorem execute_completed {c : StageCall} (h : ∀ k ∈ c.clauseIds, k ∈ c.completed s) :
    c.execute s = (settleStages (c.extractionStage s) c.circularId c.clauseIds, .ok ()) := by
  unfold StageCall.execute
  dsimp only
  rw [compileClauses_completed h]

end

/-! ## A finished circular -/

/-- What the rerun of a finished circular is to leave as it is: the state of the circular, the active
rules and the unresolved reviews. -/
structure Unchanged (s s' : Store) (circularId : Nat) : Prop where
  processingState : (s'.circulars.get? circularId).map (·.processingState) =
    (s.circulars.get? circularId).map (·.processingState)
  active : s'.rules.select (·.isActive) = s.rules.select (·.isActive)
  unresolved : s'.reviews.select (fun r => r.status ≠ .resolved) =
    s.reviews.select fun r => r.status ≠ .resolved

/-- A circular that is approved, whose clauses are compiled and whose reviews are resolved. -/
structure Finished (s : Store) (circularId : Nat) : Prop where
  approved : (s.circulars.get? circularId).map (·.processingState) = some .approved
  compiled : ∀ k clause, s.clauses.get? k = some clause → clause.circularId = circularId →
    ∃ j r, s.rules.get? j = some r ∧ r.clauseId = k ∧ isCompiledRule r = true
  resolved : ∀ i v clause, s.reviews.get? i = some v → s.clauses.get? v.clauseId = some clause →
    clause.circularId = circularId → v.status = .resolved

theorem fillSource_state (doc : Identity) (c : Circular) :
    (fillSource doc c).processingState = c.processingState := by
  unfold fillSource
  split <;> rfl

section
variable {nfkc : String → String} {decode : List UInt8 → String} {s s₁ : Store}
variable {parsed : ParseResult} {fileBytes : List UInt8} {circularId : Nat} {clauseIds : List Nat}

/-- A document whose circular is there: only its file digest may be filled in. -/
theorem persistCircular_again {circular : Circular} (hget : s.circulars.get? circularId = some circular)
    (h : persistCircular nfkc decode s parsed fileBytes = .ok (circularId, s₁)) :
    s₁.clauses = s.clauses ∧ s₁.rules = s.rules ∧ s₁.reviews = s.reviews ∧
      ∃ circular', s₁.circulars.get? circularId = some circular' ∧
        circular'.processingState = circular.processingState := by
  rcases persistCircular_cases h with ⟨c, -, rfl, hc, rfl⟩ | ⟨-, rfl, -⟩
  · refine ⟨rfl, rfl, rfl, fillSource (identityOf nfkc decode parsed fileBytes) c.2, ?_, ?_⟩
    · rw [Table.get?_update, if_pos rfl, hc, Option.map_some]
    · rw [fillSource_state, ← Option.some.inj (hget.symm.trans hc)]
  · exact absurd (Table.lt_next_of_get? hget) (Nat.lt_irrefl _)

/-- The rerun of a finished circular goes through the stages without a clause to compile. -/
theorem process_finished (tenantId : String) (o : Outside) (hfin : Finished s circularId)
    (hcircular : persistCircular nfkc decode s parsed fileBytes = .ok (circularId, s₁))
    (hclauses : persistClauses circularId s₁ parsed.chunks = .ok (clauseIds, s₁)) :
    ∃ compiling, StatusOnly s₁ compiling circularId ∧
      (processCircularPdf nfkc decode s parsed fileBytes tenantId o).1 =
        settleStages compiling circularId clauseIds := by
  obtain ⟨circular, hget, hstate⟩ := Option.map_eq_some_iff.1 hfin.approved
  obtain ⟨hc, hr, -, circular', hget', hstate'⟩ := persistCircular_again hget hcircular
  rw [hstate] at hstate'
  have hdone : ∀ k ∈ clauseIds, k ∈ completedClauseIds s₁ clauseIds := by
    intro k hk
    obtain ⟨clause, hclause, hcirc⟩ := persistClauses_keys hclauses k hk
    refine mem_completedClauseIds.2 ⟨hk, ?_⟩
    rw [hr]
    exact hfin.compiled k clause (hc ▸ hclause) hcirc
  have hingested : ingested s₁ circularId circular' clauseIds = s₁ := by
    simp [ingested, hstate']
  refine ⟨(stageCallOf circularId clauseIds parsed tenantId o).extractionStage s₁,
    statusOnly_extractionStage (stageCallOf circularId clauseIds parsed tenantId o) s₁, ?_⟩
  unfold processCircularPdf
  simp only [hcircular, hclauses, hget', hstate', reduceCtorEq, if_false, hingested,
    StageCall.executeProcessingStages]
  rw [execute_completed (c := stageCallOf circularId clauseIds parsed tenantId o) hdone]
  rfl

end

/-- **Processing a finished circular again leaves it finished exactly when** no review of the
document's clauses is blocking. -/
theorem rerun_unchanged_iff (nfkc : String → String) (decode : List UInt8 → String) (s s₁ : Store)
    (parsed : ParseResult) (fileBytes : List UInt8) (circularId : Nat) (clauseIds : List Nat)
    (tenantId : String) (o : Outside) (hfin : Finished s circularId)
    (hcircular : persistCircular nfkc decode s parsed fileBytes = .ok (circularId, s₁))
    (hclauses : persistClauses circularId s₁ parsed.chunks = .ok (clauseIds, s₁)) :
    Unchanged s (processCircularPdf nfkc decode s parsed fileBytes tenantId o).1 circularId ↔
      ∀ x ∈ s.reviewsIn clauseIds, x.2.severity ≠ .blocking := by
  obtain ⟨circular, hget, hstate⟩ := Option.map_eq_some_iff.1 hfin.approved
  obtain ⟨hc, hr, hv, circular', hget', -⟩ := persistCircular_again hget hcircular
  obtain ⟨compiling, hstatus, hresult⟩ := process_finished tenantId o hfin hcircular hclauses
  have hsettle := statusOnly_settleStages compiling circularId clauseIds
  have hpresent : (compiling.circulars.get? circularId).isSome = true := by
    rw [hstatus.present, hget', Option.isSome_some]
  obtain ⟨final, hfinal, hfinalState⟩ := get?_settleStages clauseIds hpresent
  -- no review of the clauses is open
  have hunsettled : pendingOrBlocking compiling clauseIds ≠ [] ↔
      ∃ x ∈ s.reviewsIn clauseIds, x.2.severity = .blocking := by
    have hin : compiling.reviewsIn clauseIds = s.reviewsIn clauseIds := by
      rw [Store.reviewsIn, hstatus.reviews, hv, Store.reviewsIn]
    rw [pendingOrBlocking, hin, ne_eq, List.filter_eq_nil_iff]
    simp only [not_forall, not_not, exists_prop, decide_eq_true_eq]
    refine exists_congr fun x => and_congr_right fun hx => or_iff_right fun hpending => ?_
    obtain ⟨hrow, hmem⟩ := Table.mem_select.1 hx
    obtain ⟨clause, hclause, hcirc⟩ := persistClauses_keys hclauses _ (of_decide_eq_true hmem)
    have hresolved := hfin.resolved _ _ clause hrow (hc ▸ hclause) hcirc
    simp [isPending, hresolved] at hpending
  rw [hresult]
  constructor
  · intro h x hx hblocking
    have hsame := h.processingState
    rw [hfinal, hget, Option.map_some, Option.map_some, Option.some.injEq, hfinalState, hstate,
      if_pos (hunsettled.2 ⟨x, hx, hblocking⟩)] at hsame
    cases hsame
  · intro h
    refine ⟨?_, ?_, ?_⟩
    · rw [hfinal, hget, Option.map_some, Option.map_some, hfinalState, hstate, if_neg]
      exact fun hne => by
        obtain ⟨x, hx, hblocking⟩ := hunsettled.1 hne
        exact h x hx hblocking
    · rw [hsettle.rules, hstatus.rules, hr]
    · rw [hsettle.reviews, hstatus.reviews, hv]

/-! ## Two clauses that are signed off -/

/-- Both clauses are compiled with these flags and all their reviews approved. -/
def approvedRun (flags : String → List HITLFlag) (reviewIds : List String) : Store :=
  run sampleClauses ([
    .compileAndPersistRules 1 "aa:1" "sebi_baseline" (sampleCompilation (flags "v1")) ["v1"],
    .compileAndPersistRules 2 "bb:2" "sebi_baseline" (sampleCompilation (flags "v2")) ["v2"]] ++
    reviewIds.map fun id => .review (sampleCall .approve id))

/-- The document of the two clauses. -/
def sampleDocument : ParseResult where
  metadata := { circularNumber := some "SEBI/HO/1" }
  chunks :=
    [{ chunkId := "chk-1"
       sha256 := sampleDigest 'a'
       text := "Every stock broker shall collect the margin."
       clauseNumber := some "1" },
     { chunkId := "chk-2"
       sha256 := sampleDigest 'b'
       text := "Every stock broker shall collect the margin."
       clauseNumber := some "2" }]
  sourceDocumentSha256 := some (sampleDigest 'f')
  extractedTextSha256 := some (sampleDigest 'e')

/-- `Finished`, read off the rows. -/
theorem finished_of_rows {s : Store} {circularId : Nat}
    (happroved : (s.circulars.get? circularId).map (·.processingState) = some .approved)
    (hcompiled : ∀ x ∈ s.clauses.rows, x.2.circularId = circularId →
      ∃ y ∈ s.rules.rows, y.2.clauseId = x.1 ∧ isCompiledRule y.2 = true)
    (hresolved : ∀ x ∈ s.reviews.rows, x.2.status = .resolved) : Finished s circularId where
  approved := happroved
  compiled k clause hclause hcirc := by
    obtain ⟨y, hy, hk, hcomp⟩ := hcompiled (k, clause) (Table.get?_eq_some_iff.1 hclause) hcirc
    exact ⟨y.1, y.2, Table.get?_eq_some_iff.2 hy, hk, hcomp⟩
  resolved i v _ hv _ _ := hresolved (i, v) (Table.get?_eq_some_iff.1 hv)

/-- The time of the sample calls. -/
def sampleNow : Calendar.DateTime := (sampleCall .approve "v1").now

/-- What the extraction and the rest of the outside answer does not matter where nothing is
extracted. -/
def quietOutside : Outside where
  extract _ := .error ⟨"TimeoutError", "no answer"⟩
  now := sampleNow
  flagIds _ _ := "f"
  reviewIds _ := "r"
  text _ := ""

theorem advisory_rerun_unchanged :
    Finished (approvedRun (fun id => [sampleFlag id .ambiguousSpan]) ["v1", "v2"]) 1 ∧
    Unchanged (approvedRun (fun id => [sampleFlag id .ambiguousSpan]) ["v1", "v2"])
      (processCircularPdf id (fun _ => "")
        (approvedRun (fun id => [sampleFlag id .ambiguousSpan]) ["v1", "v2"]) sampleDocument []
        "sebi_baseline" quietOutside).1 1 := by
  have hfin : Finished (approvedRun (fun id => [sampleFlag id .ambiguousSpan]) ["v1", "v2"]) 1 :=
    finished_of_rows (by decide) (by decide) (by decide)
  refine ⟨hfin, ?_⟩
  refine (rerun_unchanged_iff id (fun _ => "") _ _ sampleDocument [] 1 [1, 2] "sebi_baseline"
    quietOutside hfin rfl rfl).2 ?_
  decide

/-- **The sign-offs of the two rules are blocking reviews**: the rerun takes the approved circular
back to `AWAITING_HITL`. -/
theorem signed_off_rerun_changes :
    Finished (approvedRun (fun _ => []) ["v1", "v2"]) 1 ∧
    ¬ Unchanged (approvedRun (fun _ => []) ["v1", "v2"])
      (processCircularPdf id (fun _ => "") (approvedRun (fun _ => []) ["v1", "v2"]) sampleDocument []
        "sebi_baseline" quietOutside).1 1 := by
  refine ⟨finished_of_rows (by decide) (by decide) (by decide), fun h => ?_⟩
  exact absurd h.processingState (by decide)

end RegEngine.Hitl
