import RegEngine.Hitl.Proof.Pipeline
import RegEngine.Hitl.Proof.Runs

/-!
# A clause that fails

The stages write one clause after another; a clause whose extraction failed gets a placeholder rule
`RULE-FAILED-<number>`.

* `compileClause_touches`, `compileClauses_settles`: one clause, and the loop over the clauses.
* `failed_clauses_kept`: in every run, an execution under whose names no other clause has a rule
  returns, and every clause has its rule or its placeholder.
-/

namespace RegEngine.Hitl

open Lib Lib.Calendar Lib.Except Compiler Parsing

/-! ## The flags of an audited rule -/

theorem compileAuditedRule_hitlFlags {a : AuditedComplianceRule} {ruleVersion : Int}
    {now : DateTime} {uuids : Nat → String} {result : CompilationResult}
    (h : compileAuditedRule a ruleVersion now uuids = .ok result) :
    result.hitlFlags = collectHitlFlags a uuids := by
  unfold compileAuditedRule at h
  dsimp only at h
  split at h
  · cases h
    rfl
  · obtain ⟨_, _, h⟩ := bind_ok_iff.1 h
    obtain ⟨_, _, h⟩ := bind_ok_iff.1 h
    obtain ⟨_, _, h⟩ := bind_ok_iff.1 h
    cases h
    rfl

/-- A reason that the table of reviews allows; an audit that was not approved is blocking. -/
def HITLFlag.Writable (f : HITLFlag) : Prop :=
  f.reasonCode ≠ .selfHealedRequiresReview ∧ (f.reasonCode = .auditNotApproved → f.severity = .blocking)

theorem invalidFact_writable {t : NumericalThreshold} {evidence : String} {i : Nat} {f : HITLFlag}
    (h : invalidFact t evidence i = some f) : f.Writable := by
  unfold invalidFact at h
  dsimp only at h
  split at h <;> cases h <;> exact ⟨by simp [flag], by simp [flag]⟩

theorem collectHitlFlags_writable {a : AuditedComplianceRule} {uuids : Nat → String} {f : HITLFlag}
    (h : f ∈ collectHitlFlags a uuids) : f.Writable := by
  simp only [collectHitlFlags, List.mem_map] at h
  obtain ⟨⟨g, n⟩, hg, rfl⟩ := h
  obtain ⟨hlt, hget⟩ := List.mem_zipIdx' hg
  have hmem := List.getElem_mem hlt
  rw [← hget] at hmem
  show g.Writable
  simp only [List.mem_append] at hmem
  rcases hmem with ((((((h | h) | h) | h) | h) | h) | h) | h
  · simp only [flagAuditNotApproved] at h
    split at h
    · cases h
    · obtain rfl := List.mem_singleton.1 h
      exact ⟨by simp [flag], fun _ => rfl⟩
  · simp only [flagLowConfidence] at h
    split at h
    · cases h
    · obtain rfl := List.mem_singleton.1 h
      exact ⟨by simp [flag], by simp [flag]⟩
  · obtain ⟨_, _, h⟩ := List.mem_filterMap.1 h
    exact invalidFact_writable h
  · obtain ⟨_, _, h⟩ := List.mem_flatMap.1 h
    dsimp only at h
    split at h
    · obtain rfl := List.mem_singleton.1 h
      exact ⟨by simp [flag], by simp [flag]⟩
    · cases h
  · simp only [flagNoDeterministicLogic] at h
    split at h
    · cases h
    · split at h
      · cases h
      · obtain rfl := List.mem_singleton.1 h
        exact ⟨by simp [flag], by simp [flag]⟩
  all_goals
    obtain ⟨_, _, rfl⟩ := List.mem_map.1 h
    exact ⟨by simp [flag], by simp [flag]⟩

/-- The flags of a rule can be written where their ids are drawn, different and free. -/
theorem collectHitlFlags_free {s : Store} {drawn : String → Prop} {a : AuditedComplianceRule}
    {uuids : Nat → String}
    (huuids : ∀ n, uuids n ≠ "" ∧ drawn (uuids n) ∧ IdFree s (uuids n))
    (hinj : Function.Injective uuids) : FlagsFree s drawn (collectHitlFlags a uuids) where
  ids f hf := by
    obtain ⟨g, -, rfl⟩ := List.mem_map.1 hf
    exact huuids g.2
  reasons f hf := collectHitlFlags_writable hf
  nodup := by
    rw [collectHitlFlags, List.map_map]
    show (List.map (uuids ∘ Prod.snd) _).Nodup
    rw [← List.map_map, List.zipIdx_map_snd]
    exact List.Nodup.map hinj (List.nodup_range' ..)

/-! ## One clause -/

/-- The ids that are drawn for the `i`-th clause. -/
def Outside.draws (o : Outside) (i : Nat) (id : String) : Prop :=
  id = o.reviewIds i ∨ ∃ n, id = o.flagIds i n

/-- What `uuid4` promises: no id is drawn twice. -/
structure Outside.Unique (o : Outside) : Prop where
  nonempty : ∀ i n, o.flagIds i n ≠ ""
  injective : ∀ i, Function.Injective (o.flagIds i)
  disjoint : ∀ i i' id, o.draws i id → o.draws i' id → i = i'

/-- No review has an id that is drawn from the `i`-th clause on. -/
def Outside.Fresh (o : Outside) (s : Store) (i : Nat) : Prop :=
  ∀ m, i ≤ m → ∀ id, o.draws m id → IdFree s id

/-- The name under which the rule or the placeholder of a clause is written. -/
def ruleIdFor (chunks : List ClauseChunk) (results : List (ClauseChunk × Extraction)) (k : Nat)
    (clause : Clause) : String :=
  match extractionOf results clause with
  | .error _ => failedRuleId k clause (chunkIdOf chunks k clause)
  | .ok a => a.rule.ruleId

/-- The clause has what its extraction comes to: its rule, or its own placeholder. -/
def Settled (o : Outside) (chunks : List ClauseChunk) (results : List (ClauseChunk × Extraction))
    (s : Store) (k : Nat) (clause : Clause) : Prop :=
  match extractionOf results clause with
  | .error _ => HasPlaceholder s k (failedRuleId k clause (chunkIdOf chunks k clause))
  | .ok a => ∃ i compilation, compileAuditedRule a 1 o.now (o.flagIds i) = .ok compilation ∧
      HasRule s k a.rule.ruleId compilation

section
variable {o : Outside} {tenantId : String} {chunks : List ClauseChunk}
  {results : List (ClauseChunk × Extraction)} {s s' : Store} {i k : Nat} {clause : Clause}

/-- Clauses of one identity differ in their status only. -/
theorem eq_of_identity {c c' : Clause} (h : c.identity = c'.identity) :
    c = { c' with processingStatus := c.processingStatus, errorMessage := c.errorMessage } := by
  cases c
  cases c'
  simp only [Clause.identity, Prod.mk.injEq] at h
  obtain ⟨rfl, rfl, rfl, rfl⟩ := h
  rfl

theorem extractionOf_congr {clause' : Clause} (h : clause.identity = clause'.identity) :
    extractionOf results clause = extractionOf results clause' := by
  rw [eq_of_identity h]
  rfl

theorem ruleIdFor_congr {clause' : Clause} (h : clause.identity = clause'.identity) :
    ruleIdFor chunks results k clause = ruleIdFor chunks results k clause' := by
  rw [eq_of_identity h]
  rfl

theorem settled_congr {clause' : Clause} (h : clause.identity = clause'.identity) :
    Settled o chunks results s k clause ↔ Settled o chunks results s k clause' := by
  rw [eq_of_identity h]
  exact Iff.rfl

/-- The status of a clause is no part of its rules and reviews. -/
theorem touches_setClauseStatus {ruleId : String} {drawn : String → Prop} {status : ClauseStatus}
    {errorMessage : Option (Option String)} (hs : Tidy s) :
    Touches s (setClauseStatus s k status errorMessage) k ruleId drawn where
  tidy := ⟨hs.rules, hs.links, hs.reasons, hs.audits⟩
  clauses := (statusOnly_setClauseStatus s 0 k status errorMessage).clauses
  rows _ r' hr' := .inl ⟨r', hr', .refl r'⟩
  keepsRule _ _ hr _ := hr
  ids _ v' hv' := .inl ⟨v', hv', rfl⟩
  keepsReview _ _ hv _ := hv

/-- **One clause is written**, whether its extraction failed or not. -/
theorem compileClause_touches (huniq : o.Unique) (hs : Tidy s) (hfresh : o.Fresh s i)
    (hclause : s.clauses.get? k = some clause)
    (hfree : NameFree s k (ruleIdFor chunks results k clause) tenantId)
    (hcompiles : ∀ a, extractionOf results clause = .ok a →
      ∃ compilation, compileAuditedRule a 1 o.now (o.flagIds i) = .ok compilation) :
    ∃ s', compileClause o tenantId chunks results i s k = .ok s' ∧
      Touches s s' k (ruleIdFor chunks results k clause) (o.draws i) ∧
      Settled o chunks results s' k clause := by
  have hdrawn : o.draws i (o.reviewIds i) := .inl rfl
  have hreview : IdFree s (o.reviewIds i) := hfresh i le_rfl _ hdrawn
  unfold compileClause
  simp only [hclause, ruleIdFor, Settled] at hfree ⊢
  cases hextract : extractionOf results clause with
  | error e =>
    simp only [hextract] at hfree ⊢
    obtain ⟨j, t, hpersist, htouch, hplace⟩ :=
      persistFailedClauseRule_touches (some (e.typeName ++ ": " ++ e.message)) hs hfree hreview hdrawn
    have hok : (Op.persistFailedClauseRule k (chunkIdOf chunks k clause)
        (some (e.typeName ++ ": " ++ e.message)) tenantId (o.reviewIds i)).result s = .ok t := by
      simp only [Op.result, hclause, hpersist]
      rfl
    exact ⟨_, bind_ok_iff.2 ⟨t, mapError_ok_iff.2 hok, rfl⟩,
      htouch.trans (touches_setClauseStatus htouch.tidy), hplace⟩
  | ok a =>
    simp only [hextract] at hfree ⊢
    obtain ⟨compilation, hcompiled⟩ := hcompiles a hextract
    have hflags : FlagsFree s (o.draws i) compilation.hitlFlags := by
      rw [compileAuditedRule_hitlFlags hcompiled]
      exact collectHitlFlags_free
        (fun n => ⟨huniq.nonempty i n, .inr ⟨n, rfl⟩, hfresh i le_rfl _ (.inr ⟨n, rfl⟩)⟩)
        (huniq.injective i)
    obtain ⟨j, t, hpersist, htouch, hrule⟩ :=
      compileAndPersistRules_touches clause hs hfree hflags hreview hdrawn
    have hok : (Op.compileAndPersistRules k a.rule.ruleId tenantId compilation
        [o.reviewIds i]).result s = .ok t := by
      simp only [Op.result, hclause, hpersist]
      rfl
    exact ⟨_, bind_ok_iff.2 ⟨compilation, mapError_ok_iff.2 hcompiled,
        bind_ok_iff.2 ⟨t, mapError_ok_iff.2 hok, rfl⟩⟩,
      htouch.trans (touches_setClauseStatus htouch.tidy), i, compilation, hcompiled, hrule⟩

/-! ## The loop over the clauses -/

/-- The rules and the reviews of clause `k` stay as they are. -/
structure Keeps (s s' : Store) (k : Nat) : Prop where
  rule : ∀ j r, s.rules.get? j = some r → r.clauseId = k → s'.rules.get? j = some r
  review : ∀ i v, s.reviews.get? i = some v → v.clauseId = k → s'.reviews.get? i = some v

theorem Keeps.trans {s'' : Store} (h : Keeps s s' k) (h' : Keeps s' s'' k) : Keeps s s'' k :=
  ⟨fun j r hr hk => h'.rule j r (h.rule j r hr hk) hk,
    fun n v hv hk => h'.review n v (h.review n v hv hk) hk⟩

theorem Touches.keeps {k' : Nat} {name : String} {drawn : String → Prop}
    (h : Touches s s' k name drawn) (hne : k' ≠ k) : Keeps s s' k' :=
  ⟨fun j r hr hk => h.keepsRule j r hr (hk.trans_ne hne),
    fun n v hv hk => h.keepsReview n v hv (hk.trans_ne hne)⟩

theorem Keeps.settled (h : Keeps s s' k) (hsettled : Settled o chunks results s k clause) :
    Settled o chunks results s' k clause := by
  unfold Settled at hsettled ⊢
  split at hsettled
  · obtain ⟨j, r, n, v, hr, hid, hk, hcomp, hv, hlink, hvk, hsev⟩ := hsettled
    exact ⟨j, r, n, v, h.rule j r hr hk, hid, hk, hcomp, h.review n v hv hvk, hlink, hvk, hsev⟩
  · obtain ⟨n, compilation, hcompiled, j, r, hr, hid, hk, hrest⟩ := hsettled
    exact ⟨n, compilation, hcompiled, j, r, h.rule j r hr hk, hid, hk, hrest⟩

theorem Touches.fresh {name : String} (huniq : o.Unique) (h : Touches s s' k name (o.draws i))
    (hfresh : o.Fresh s i) : o.Fresh s' (i + 1) := by
  intro m hm id hid n v' hv'
  rcases h.ids n v' hv' with ⟨v, hv, hvid⟩ | hdrawn
  · exact hvid ▸ hfresh m (Nat.le_of_succ_le hm) id hid n v hv
  · rintro rfl
    exact absurd (huniq.disjoint i m _ hdrawn hid) (Nat.ne_of_lt hm)

/-- A name that another clause was not written under is as free as before. -/
theorem Touches.nameFree {k' : Nat} {ruleId name : String} {drawn : String → Prop}
    (h : Touches s s' k name drawn) (hne : ruleId = name → k' = k)
    (hfree : NameFree s k' ruleId tenantId) : NameFree s' k' ruleId tenantId := by
  intro j r' hr' hid htenant hversion
  rcases h.rows j r' hr' with ⟨r, hr, hkey⟩ | ⟨hname, hk⟩
  · rw [hkey.clauseId]
    exact hfree j r hr (hkey.ruleId.symm.trans hid) (hkey.tenantId.symm.trans htenant)
      (hkey.ruleVersion.symm.trans hversion)
  · exact hk.trans (hne (hid.symm.trans hname)).symm

/-- The clauses of a loop have their rows, their names are free, and their rules compile. -/
structure Placeable (o : Outside) (tenantId : String) (chunks : List ClauseChunk)
    (results : List (ClauseChunk × Extraction)) (s : Store) (ks : List Nat) : Prop where
  clauses : ∀ k ∈ ks, ∃ clause, s.clauses.get? k = some clause
  free : ∀ k ∈ ks, ∀ clause, s.clauses.get? k = some clause →
    NameFree s k (ruleIdFor chunks results k clause) tenantId
  distinct : ∀ k ∈ ks, ∀ k' ∈ ks, ∀ clause clause', s.clauses.get? k = some clause →
    s.clauses.get? k' = some clause' →
    ruleIdFor chunks results k clause = ruleIdFor chunks results k' clause' → k = k'
  compiles : ∀ k ∈ ks, ∀ clause a i, s.clauses.get? k = some clause →
    extractionOf results clause = .ok a →
    ∃ compilation, compileAuditedRule a 1 o.now (o.flagIds i) = .ok compilation

/-- The row of a clause before it was touched. -/
theorem clause_before (h : ∀ j, (s'.clauses.get? j).map Clause.identity =
      (s.clauses.get? j).map Clause.identity) {clause' : Clause}
    (hclause : s'.clauses.get? k = some clause') :
    ∃ clause, s.clauses.get? k = some clause ∧ clause'.identity = clause.identity := by
  have hk := h k
  rw [hclause, Option.map_some] at hk
  obtain ⟨clause, hget, hid⟩ := Option.map_eq_some_iff.1 hk.symm
  exact ⟨clause, hget, hid.symm⟩

theorem Placeable.transfer {ks : List Nat} (hp : Placeable o tenantId chunks results s ks)
    (hclauses : ∀ j, (s'.clauses.get? j).map Clause.identity = (s.clauses.get? j).map Clause.identity)
    (hfree : ∀ k ∈ ks, ∀ clause, s.clauses.get? k = some clause →
      NameFree s' k (ruleIdFor chunks results k clause) tenantId) :
    Placeable o tenantId chunks results s' ks where
  clauses k hk := by
    obtain ⟨clause, hget⟩ := hp.clauses k hk
    obtain ⟨clause', hget', -⟩ := clause_before (fun j => (hclauses j).symm) hget
    exact ⟨clause', hget'⟩
  free k hk clause' hget := by
    obtain ⟨clause, hget₀, hid⟩ := clause_before hclauses hget
    rw [ruleIdFor_congr hid]
    exact hfree k hk clause hget₀
  distinct a ha b hb ca cb hca hcb heq := by
    obtain ⟨ca₀, hca₀, hida⟩ := clause_before hclauses hca
    obtain ⟨cb₀, hcb₀, hidb⟩ := clause_before hclauses hcb
    rw [ruleIdFor_congr hida, ruleIdFor_congr hidb] at heq
    exact hp.distinct a ha b hb ca₀ cb₀ hca₀ hcb₀ heq
  compiles k hk clause' a n hget hextract := by
    obtain ⟨clause, hget₀, hid⟩ := clause_before hclauses hget
    rw [extractionOf_congr hid] at hextract
    exact hp.compiles k hk clause a n hget₀ hextract

theorem Touches.placeable {ks : List Nat} (hk : k ∈ ks) (hclause : s.clauses.get? k = some clause)
    (h : Touches s s' k (ruleIdFor chunks results k clause) (o.draws i))
    (hp : Placeable o tenantId chunks results s ks) : Placeable o tenantId chunks results s' ks :=
  hp.transfer h.clauses fun k' hk' clause' hget =>
    h.nameFree (hp.distinct k' hk' k hk clause' clause hget hclause) (hp.free k' hk' clause' hget)

/-- **The loop returns**: every clause that is not completed is settled, and nothing else changes. -/
theorem compileClauses_settles (huniq : o.Unique) {completed pending : List Nat} :
    ∀ {ks : List Nat} {i : Nat} {s : Store}, (∀ k ∈ ks, k ∉ completed → k ∈ pending) → Tidy s →
      o.Fresh s i → Placeable o tenantId chunks results s pending →
      ∃ s', compileClauses o tenantId chunks results completed i s ks = .ok s' ∧ Tidy s' ∧
        (∀ k ∈ ks, k ∉ completed → ∀ clause, s.clauses.get? k = some clause →
          Settled o chunks results s' k clause) ∧
        ∀ k, (k ∈ ks → k ∈ completed) → Keeps s s' k
  | [], _, s, _, hs, _, _ => ⟨s, rfl, hs, by simp, fun _ _ => ⟨fun _ _ h _ => h, fun _ _ h _ => h⟩⟩
  | k :: ks, i, s, hpending, hs, hfresh, hp => by
    have hks : ∀ k ∈ ks, k ∉ completed → k ∈ pending :=
      fun k' hk' => hpending k' (List.mem_cons_of_mem _ hk')
    rw [compileClauses]
    by_cases hdone : k ∈ completed
    · rw [if_pos hdone]
      obtain ⟨s', hok, htidy, hsettled, hkeeps⟩ := compileClauses_settles huniq hks hs hfresh hp
      refine ⟨s', hok, htidy, fun k' hk' hnot => ?_, fun k' hk' =>
        hkeeps k' fun hmem => hk' (List.mem_cons_of_mem _ hmem)⟩
      rcases List.mem_cons.1 hk' with rfl | hk'
      · exact absurd hdone hnot
      · exact hsettled k' hk' hnot
    · have hk := hpending k List.mem_cons_self hdone
      obtain ⟨clause, hclause⟩ := hp.clauses k hk
      obtain ⟨t, hcompile, htouch, hthis⟩ := compileClause_touches huniq hs hfresh hclause
        (hp.free k hk clause hclause) fun a ha => hp.compiles k hk clause a i hclause ha
      obtain ⟨s', hok, htidy, hsettled, hkeeps⟩ := compileClauses_settles huniq hks htouch.tidy
        (htouch.fresh huniq hfresh) (htouch.placeable hk hclause hp)
      have hbefore : ∀ k' clause', s.clauses.get? k' = some clause' →
          ∃ clause'', t.clauses.get? k' = some clause'' ∧ clause'.identity = clause''.identity :=
        fun _ _ hget => clause_before (fun j => (htouch.clauses j).symm) hget
      refine ⟨s', ?_, htidy, fun k' hk' hnot clause' hget => ?_, fun k' hk' => ?_⟩
      · rw [if_neg hdone]
        exact bind_ok_iff.2 ⟨t, hcompile, hok⟩
      · by_cases hagain : k' ∈ ks
        · obtain ⟨clause'', hget', hid⟩ := hbefore k' clause' hget
          exact (settled_congr hid).2 (hsettled k' hagain hnot clause'' hget')
        · -- the clause was written just now, and the rest of the loop leaves it
          obtain rfl := (List.mem_cons.1 hk').resolve_right hagain
          obtain rfl := Option.some.inj (hclause.symm.trans hget)
          exact (hkeeps k' fun hmem => absurd hmem hagain).settled hthis
      · have hne : k' ≠ k := by
          rintro rfl
          exact hdone (hk' List.mem_cons_self)
        exact (htouch.keeps hne).trans (hkeeps k' fun hmem => hk' (List.mem_cons_of_mem _ hmem))

end

/-! ## Executions -/

section
variable (c : StageCall) (s : Store)

/-- The clauses of a call that are not completed. -/
def StageCall.pending : List Nat := c.clauseIds.filter fun k => k ∉ c.completed s

/-- What an execution needs: ids that are drawn once, names that no other clause has, and rules that
compile. -/
structure StageCall.Ready : Prop where
  unique : c.outside.Unique
  fresh : c.outside.Fresh s 0
  placeable : Placeable c.outside c.tenantId c.chunks (c.results s) s (c.pending s)

/-- The execution returns, every clause that was not completed is settled, and what was there for the
others stays. -/
structure StageCall.Finishes : Prop where
  returns : (c.execute s).2 = .ok ()
  settled : ∀ k ∈ c.clauseIds, k ∉ c.completed s → ∀ clause, s.clauses.get? k = some clause →
    Settled c.outside c.chunks (c.results s) (c.execute s).1 k clause
  kept : ∀ k, (k ∈ c.clauseIds → k ∈ c.completed s) → Keeps s (c.execute s).1 k

end

section
variable {c : StageCall} {s s' : Store} {circularId : Nat}

theorem StatusOnly.keeps (h : StatusOnly s s' circularId) (k : Nat) : Keeps s s' k :=
  ⟨fun j r hr _ => by rw [h.rules, hr], fun n v hv _ => by rw [h.reviews, hv]⟩

/-- **An execution that is ready finishes.** -/
theorem execute_finishes (hs : Tidy s) (h : c.Ready s) : c.Finishes s ∧ Tidy (c.execute s).1 := by
  have hstatus := statusOnly_extractionStage c s
  have hplaceable : Placeable c.outside c.tenantId c.chunks (c.results s) (c.extractionStage s)
      (c.pending s) := by
    refine h.placeable.transfer hstatus.clauses fun k hk clause hget j r hr => ?_
    rw [hstatus.rules] at hr
    exact h.placeable.free k hk clause hget j r hr
  have hfresh : c.outside.Fresh (c.extractionStage s) 0 := by
    intro m hm id hid i v hv
    rw [hstatus.reviews] at hv
    exact h.fresh m hm id hid i v hv
  have hpending : ∀ k ∈ c.clauseIds, k ∉ c.completed s → k ∈ c.pending s :=
    fun k hk hnot => List.mem_filter.2 ⟨hk, by simpa using hnot⟩
  obtain ⟨t, hok, htidy, hsettled, hkeeps⟩ := compileClauses_settles h.unique hpending
    (hs.congr hstatus.rules hstatus.reviews) hfresh hplaceable
  have hexecute : c.execute s = (settleStages t c.circularId c.clauseIds, .ok ()) := by
    simp only [StageCall.execute, hok]
  have hsettle := statusOnly_settleStages t c.circularId c.clauseIds
  rw [hexecute]
  refine ⟨⟨by rw [hexecute], fun k hk hnot clause hget => ?_, fun k hk => ?_⟩, htidy.congr hsettle.rules hsettle.reviews⟩
  · obtain ⟨clause', hget', hid⟩ := clause_before (fun j => (hstatus.clauses j).symm) hget
    rw [hexecute]
    exact (hsettle.keeps k).settled ((settled_congr hid).2 (hsettled k hk hnot clause' hget'))
  · rw [hexecute]
    exact (hstatus.keeps k).trans ((hkeeps k hk).trans (hsettle.keeps k))

theorem Ingests.tidy (h : Ingests s s' circularId) (hs : Tidy s) : Tidy s' :=
  hs.congr h.rules h.reviews

theorem Tidy.step {nfkc : String → String} {decode : List UInt8 → String} {e : Event} (hs : Tidy s)
    (h : AtStages nfkc decode StageCall.Ready s e) : Tidy (e.step nfkc decode s) := by
  cases hstages : e.stages nfkc decode s with
  | some x =>
    rw [step_of_stages hstages]
    exact (execute_finishes ((stages_store hstages).1.tidy hs) (h x.1 x.2 hstages)).2
  | none =>
    by_cases he : ∃ call, e = .review call
    · obtain ⟨call, rfl⟩ := he
      simp only [Event.step, commit]
      split
      · rename_i s' hresult
        obtain ⟨k, review, closed, u, -, hdecides, -⟩ := result_decides hresult
        exact hs.decides hdecides
      · exact hs
    · rcases step_of_not_stages (fun call hcall => he ⟨call, hcall⟩) hstages with hsame | ⟨i, hi, -⟩
      · rw [hsame]
        exact hs
      · exact hi.tidy hs

theorem along_finishes {nfkc : String → String} {decode : List UInt8 → String} :
    ∀ {events : List Event} {s : Store}, Tidy s → 
      Along nfkc decode (AtStages nfkc decode StageCall.Ready) s events →
      Along nfkc decode (AtStages nfkc decode StageCall.Finishes) s events
  | [], _, _, _ => trivial
  | _ :: _, _, hs, h =>
    ⟨fun c t hstages => (execute_finishes ((stages_store hstages).1.tidy hs) (h.1 c t hstages)).1,
      along_finishes (hs.step h.1) h.2⟩

end

/-- **Failed clauses stop no circular** in a run whose executions are ready: from a database in which
nothing is compiled yet, every execution returns, and every clause has its rule or its own
placeholder. -/
theorem failed_clauses_kept (nfkc : String → String) (decode : List UInt8 → String) (s : Store)
    (hrules : s.rules = Table.empty) (hreviews : s.reviews = Table.empty) (events : List Event)
    (h : Along nfkc decode (AtStages nfkc decode StageCall.Ready) s events) :
    Along nfkc decode (AtStages nfkc decode StageCall.Finishes) s events :=
  along_finishes (tidy_of_none hrules hreviews) h

/-! ## Two clauses -/

/-- How often `c` occurs tells the clause, and how often `g` the flag. -/
theorem sampleOutside_unique (extract : ClauseChunk → Extraction) : (sampleOutside extract).Unique where
  nonempty i n h := by
    have := congrArg String.toList h
    simp [sampleOutside] at this
  injective i n n' h := by
    have := congrArg (fun s => s.toList.count 'g') h
    simpa [sampleOutside, List.count_replicate] using this
  disjoint i i' id h h' := by
    have hcount : ∀ i, (sampleOutside extract).draws i id → id.toList.count 'c' = i := by
      rintro i (rfl | ⟨n, rfl⟩)
      · simp [sampleOutside]
      · simp [sampleOutside, List.count_replicate]
    exact (hcount i h).symm.trans (hcount i' h')

/-- The extraction of the clause with number 1 fails. -/
def firstFails (chunk : ClauseChunk) : Extraction :=
  if chunk.clauseNumber = some "1" then .error ⟨"TimeoutError", "no answer"⟩
  else .ok (approvedRule "Broker")

/-- The clause that fails has its placeholder, and the other one its rule. -/
theorem failing_clause_kept :
    Along id (fun _ => "") (AtStages id (fun _ => "") StageCall.Finishes) sampleClauses
      [.resume 1 "sebi_baseline" (sampleOutside firstFails)] := by
  refine failed_clauses_kept id (fun _ => "") sampleClauses rfl rfl _ ⟨fun c t hstages => ?_, trivial⟩
  have hclauses := (stages_store hstages).2
  obtain ⟨rfl, rfl⟩ := Prod.mk.inj (Option.some.inj hstages)
  have hnone : ∀ id, IdFree sampleClauses id := fun id i v hv => by simp [sampleClauses] at hv
  have hrows : ∀ k clause, sampleClauses.clauses.get? k = some clause →
      k = 1 ∧ clause = sampleClause "1" 'a' ∨ k = 2 ∧ clause = sampleClause "2" 'b' := by
    intro k clause hget
    have hmem := Table.get?_eq_some_iff.1 hget
    simpa [sampleClauses, Table.insert, Table.empty] using hmem
  refine ⟨sampleOutside_unique firstFails, fun m _ id _ => hnone id, ⟨?_, ?_, ?_, ?_⟩⟩
  · intro k hk
    obtain ⟨clause, hget, -⟩ := hclauses k (List.mem_filter.1 hk).1
    exact ⟨clause, hget⟩
  · intro k _ clause _ j r hr
    simp [sampleClauses] at hr
  · intro k _ k' _ clause clause' hget hget' heq
    rcases hrows k clause hget with ⟨rfl, rfl⟩ | ⟨rfl, rfl⟩
    · rcases hrows k' clause' hget' with ⟨rfl, rfl⟩ | ⟨rfl, rfl⟩
      · rfl
      · exact absurd heq (by decide)
    · rcases hrows k' clause' hget' with ⟨rfl, rfl⟩ | ⟨rfl, rfl⟩
      · exact absurd heq (by decide)
      · rfl
  · intro k _ clause a i hget hextract
    rcases hrows k clause hget with ⟨rfl, rfl⟩ | ⟨rfl, rfl⟩
    · cases hextract
    · obtain rfl := Except.ok.inj hextract
      obtain ⟨result, -, hok, -⟩ := approvedRule_compiles "Broker" (sampleOutside firstFails).now
        ((sampleOutside firstFails).flagIds i)
      exact ⟨result, hok⟩

def allFail (_ : ClauseChunk) : Extraction := .error ⟨"TimeoutError", "no answer"⟩

/-- Two fragments of one clause, with its number. -/
def fragmentClauses : Store :=
  { sampleClauses with
    clauses := (Table.empty.insert (sampleClause "1" 'a')).insert (sampleClause "1" 'b') }

/-- **Two failed clauses of one number** get placeholders of one name: the second one breaks the
unique constraint, and the execution raises. -/
theorem equal_numbers_raise :
    (∃ c t, (Event.resume 1 "sebi_baseline" (sampleOutside allFail)).stages id (fun _ => "")
        fragmentClauses = some (c, t) ∧
      (c.execute t).2 =
        .error (.raised (.integrityError "uq_compiled_rules_rule_id_rule_version"))) ∧
    ¬ Along id (fun _ => "") (AtStages id (fun _ => "") StageCall.Finishes) fragmentClauses
      [.resume 1 "sebi_baseline" (sampleOutside allFail)] := by
  refine ⟨⟨_, _, rfl, rfl⟩, fun h => ?_⟩
  have hreturns := (h.1 _ _ rfl).returns
  cases hreturns

end RegEngine.Hitl
