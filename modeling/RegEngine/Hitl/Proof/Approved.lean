import RegEngine.Hitl.Proof.Frame

/-!
# Active rules and compiled rules

The pipeline operations make no rule active (`pipeline_active`), and an approval looks at the reviews
of a rule only.

* `active_compiled_iff`: along a run, every active rule is compiled exactly when each approval that
  passes the gate is of a compiled rule.
-/

namespace RegEngine.Hitl

open Lib Lib.Calendar

/-- Every active rule is compiled and has a Rego text. -/
def ActiveCompiled (s : Store) : Prop :=
  ∀ k r, s.rules.get? k = some r → r.isActive = true → r.isCompiled = true ∧ r.regoPolicy ≠ none

/-- The active rules of `s'` were active in `s`, with the same compiled text. -/
def ActiveFrom (s s' : Store) : Prop :=
  ∀ k r', s'.rules.get? k = some r' → r'.isActive = true →
    ∃ r, s.rules.get? k = some r ∧ r.isActive = true ∧ r.isCompiled = r'.isCompiled ∧
      r.regoPolicy = r'.regoPolicy

theorem ActiveFrom.activeCompiled {s s' : Store} (h : ActiveFrom s s') (hs : ActiveCompiled s) :
    ActiveCompiled s' := by
  intro k r' hr' ha
  obtain ⟨r, hr, hact, hcomp, hrego⟩ := h k r' hr' ha
  rw [← hcomp, ← hrego]
  exact hs k r hr hact

/-- The pipeline operations make no rule active. -/
theorem pipeline_active {s s' : Store} {op : Op} (hop : ∀ c, op ≠ .review c)
    (h : op.result s = .ok s') : ActiveFrom s s' := by
  obtain ⟨k, hframe, hoff⟩ := pipeline_frame hop h
  intro j r' hr' ha
  have hj : some j ≠ some k := by
    rintro ⟨⟩
    simp [hoff r' hr'] at ha
  obtain ⟨r, hr, rfl | rfl⟩ := hframe.rule j r' hj hr'
  · exact ⟨r', hr, ha, rfl, rfl⟩
  · cases ha

/-! ## Runs -/

/-- An approval of the last open review of a rule is of a compiled rule. -/
def ApprovesCompiled (s : Store) (op : Op) : Prop :=
  ∀ c, op = .review c → c.verdict = .approve →
    ∀ k review rule r, getReviewOr404 s c.reviewId = .ok (k, review) → review.status = .pending →
      review.compiledRuleId = some rule → s.rules.get? rule = some r →
      (∀ x ∈ s.reviewsOf rule, x.1 ≠ k → x.2.status = .resolved) →
      r.isCompiled = true ∧ r.regoPolicy ≠ none

/-- Each operation of a run meets the condition in the store it acts on. -/
def RunApprovesCompiled : Store → List Op → Prop
  | _, [] => True
  | s, op :: ops => ApprovesCompiled s op ∧ RunApprovesCompiled (step s op) ops

theorem activeCompiled_step {s : Store} {op : Op} (hs : ActiveCompiled s) :
    ActiveCompiled (step s op) ↔ ApprovesCompiled s op := by
  constructor
  · rintro h c rfl hverdict k review rule r hget hst hlink hrule hothers
    obtain ⟨s', r', hres, hr', ha, hcomp, hrego⟩ := approve_last hverdict hget hst hlink hrule hothers
    have hstep : step s (.review c) = s' := by simp [step, Op.result, hres, commit]
    rw [← hcomp, ← hrego]
    exact h rule r' (hstep ▸ hr') ha
  · intro hop
    cases hres : op.result s with
    | error e => simpa [step, commit, hres] using hs
    | ok s' =>
      have hstep : step s op = s' := by simp [step, commit, hres]
      rw [hstep]
      by_cases hc : ∃ c, op = .review c
      · obtain ⟨c, rfl⟩ := hc
        intro k r' hr' ha
        obtain ⟨r, hr, hcomp, hrego, hact | hact⟩ := result_active hres hr' ha
        · rw [← hcomp, ← hrego]
          exact hs k r hr hact
        · obtain ⟨i, review, r₁, hget, hst, hlink, hrule, hothers⟩ := activates_some hact
          rw [← hcomp, ← hrego]
          exact hop c rfl (activates_verdict hact) i review k r hget hst hlink hr hothers
      · exact (pipeline_active (fun c h => hc ⟨c, h⟩) hres).activeCompiled hs

/-- **Along a run from a store whose active rules are compiled, every active rule stays compiled
exactly when each approval that passes the gate is of a compiled rule.** -/
theorem active_compiled_iff : ∀ (ops : List Op) (s : Store), ActiveCompiled s →
    ((∀ n, ActiveCompiled (run s (ops.take n))) ↔ RunApprovesCompiled s ops)
  | [], s, hs => by simpa [RunApprovesCompiled, run] using hs
  | op :: ops, s, hs => by
    rw [RunApprovesCompiled, ← activeCompiled_step hs]
    constructor
    · intro h
      have hstep : ActiveCompiled (step s op) := by simpa [run] using h 1
      exact ⟨hstep, (active_compiled_iff ops _ hstep).1 fun n => by simpa [run] using h (n + 1)⟩
    · rintro ⟨hstep, hrun⟩ n
      cases n with
      | zero => simpa [run] using hs
      | succ n => simpa [run] using (active_compiled_iff ops _ hstep).2 hrun n

theorem activeCompiled_sampleClauses : ActiveCompiled sampleClauses := by
  intro k r hr
  simp [sampleClauses] at hr

/-- A compiled clause is signed off: its rule is active. -/
theorem active_compiled_signOff :
    ActiveCompiled (run sampleClauses [
      .compileAndPersistRules 1 "aa:1" "sebi_baseline" (sampleCompilation []) ["v1"],
      .review (sampleCall .approve "v1")]) := by
  have hrun : RunApprovesCompiled sampleClauses [
      .compileAndPersistRules 1 "aa:1" "sebi_baseline" (sampleCompilation []) ["v1"],
      .review (sampleCall .approve "v1")] := by
    refine ⟨fun c hc => by simp at hc, ?_, trivial⟩
    intro c hc _ k review rule r hget _ hlink hrule _
    obtain rfl : sampleCall .approve "v1" = c := Op.review.inj hc
    obtain ⟨rfl, rfl⟩ := Prod.mk.inj (Except.ok.inj hget)
    obtain rfl := Option.some.inj hlink
    obtain rfl := Option.some.inj hrule
    exact ⟨rfl, by decide⟩
  exact (active_compiled_iff _ _ activeCompiled_sampleClauses).2 hrun 2

/-- A clause whose extraction failed: the approval of its only review activates the placeholder. -/
theorem failed_rule_active :
    ∃ r, (run sampleClauses [
        .persistFailedClauseRule 1 "chunk-1" (some "TimeoutError: no answer") "sebi_baseline" "v1",
        .review (sampleCall .approve "v1")]).rules.get? 1 = some r ∧
      isFailedRuleId r.ruleId = true ∧ r.isActive = true ∧ r.isCompiled = false ∧
      r.regoPolicy = none :=
  ⟨_, rfl, by decide, rfl, rfl, rfl⟩

end RegEngine.Hitl

/-!
## Active rules and their approvals

* `active_approved`: in every reachable store the reviews of an active rule are all resolved, and no
  two rules of one `rule_id` are active.
* `approvals_bound`: as long as no recompilation changes the text of a rule with a resolved review,
  the resolved reviews of a rule approved its present text and version.
-/

namespace RegEngine.Hitl

open Lib Lib.Calendar Lib.Python Lib.Sha256

/-! ### Approved and unique -/

/-- The reviews of an active rule are resolved, and a `rule_id` has at most one active rule. -/
structure ActiveApproved (s : Store) : Prop where
  approved : ∀ k r, s.rules.get? k = some r → r.isActive = true →
    ∀ x ∈ s.reviewsOf k, x.2.status = .resolved
  unique : ∀ j k q r, s.rules.get? j = some q → s.rules.get? k = some r → q.isActive = true →
    r.isActive = true → q.ruleId = r.ruleId → j = k

/-- No rule is active yet. -/
def NoneActive (s : Store) : Prop := ∀ k, Inactive s k

theorem NoneActive.activeApproved {s : Store} (h : NoneActive s) : ActiveApproved s where
  approved k r hr ha := by simp [h k r hr] at ha
  unique j _ q _ hq _ haq := by simp [h j q hq] at haq

section
variable {s s' : Store} {link : Option Nat}

/-- An active rule outside the frame was active before, with the same reviews. -/
theorem Frame.active (h : Frame s s' link) {j : Nat} (hj : some j ≠ link) {r' : CompiledRule}
    (hr' : s'.rules.get? j = some r') (ha : r'.isActive = true) : s.rules.get? j = some r' := by
  obtain ⟨r, hr, rfl | rfl⟩ := h.rule j r' hj hr'
  · exact hr
  · cases ha

theorem Frame.mem_reviewsOf (h : Frame s s' link) {j : Nat} (hj : some j ≠ link)
    {x : Nat × HITLReview} (hx : x ∈ s'.reviewsOf j) : x ∈ s.reviewsOf j := by
  obtain ⟨hrow, hlink⟩ := Hitl.mem_reviewsOf.1 hx
  exact Hitl.mem_reviewsOf.2 ⟨h.review _ _ j hlink hj hrow, hlink⟩

theorem ActiveApproved.of_frame (hs : ActiveApproved s) (h : Frame s s' link)
    (htouched : ∀ j, link = some j → Inactive s' j ∨ Passed s' j) : ActiveApproved s' := by
  -- an active rule in the frame went through the gate
  have hpassed : ∀ j r, s'.rules.get? j = some r → r.isActive = true → some j = link →
      Passed s' j := by
    intro j r hr ha hj
    rcases htouched j hj.symm with hoff | hpassed
    · simp [hoff r hr] at ha
    · exact hpassed
  constructor
  · intro k r hr ha x hx
    by_cases hk : some k = link
    · exact (hpassed k r hr ha hk).resolved x hx
    · exact hs.approved k r (h.active hk hr ha) ha x (h.mem_reviewsOf hk hx)
  · intro j k q r hq hr haq har hid
    by_contra hne
    by_cases hj : some j = link
    · have hoff := (hpassed j q hq haq hj).only k r q (Ne.symm hne) hr hq hid.symm
      simp [hoff] at har
    · by_cases hk : some k = link
      · have hoff := (hpassed k r hr har hk).only j q r hne hq hr hid
        simp [hoff] at haq
      · exact hne (hs.unique j k q r (h.active hj hq haq) (h.active hk hr har) haq har hid)

theorem ActiveApproved.step {op : Op} (hs : ActiveApproved s) : ActiveApproved (step s op) := by
  cases hres : op.result s with
  | error e => simpa [Hitl.step, commit, hres] using hs
  | ok s' =>
    obtain ⟨link, hframe, htouched⟩ := op_frame hres
    simpa [Hitl.step, commit, hres] using hs.of_frame hframe htouched

theorem ActiveApproved.run : ∀ {s : Store}, ActiveApproved s → ∀ ops : List Op,
    ActiveApproved (run s ops)
  | _, hs, [] => hs
  | _, hs, _ :: ops => ActiveApproved.run hs.step ops

end

/-- **In every store reached from one without active rules, the reviews of an active rule are all
resolved, and at most one rule of a `rule_id` is active.** -/
theorem active_approved (s : Store) (hs : NoneActive s) (ops : List Op) :
    (∀ k r, (run s ops).rules.get? k = some r → r.isActive = true →
      ∀ i v, (run s ops).reviews.get? i = some v → v.compiledRuleId = some k →
        v.status = .resolved) ∧
    ∀ ruleId j k q r, (run s ops).rules.get? j = some q → (run s ops).rules.get? k = some r →
      q.ruleId = ruleId → r.ruleId = ruleId → q.isActive = true → r.isActive = true → j = k := by
  have hinv := hs.activeApproved.run ops
  refine ⟨fun k r hr ha i v hv hlink => ?_, fun ruleId j k q r hq hr hqid hrid haq har => ?_⟩
  · exact hinv.approved k r hr ha (i, v) (mem_reviewsOf.2 ⟨hv, hlink⟩)
  · exact hinv.unique j k q r hq hr haq har (hqid.trans hrid.symm)

theorem noneActive_sampleClauses : NoneActive sampleClauses := by
  intro k r hr
  simp [sampleClauses] at hr

/-- One clause compiled for two tenants: the approval of the second rule switches the first off. -/
def twoTenants : List Op :=
  [.compileAndPersistRules 1 "aa:1" "sebi_baseline" (sampleCompilation []) ["v1"],
    .review (sampleCall .approve "v1"),
    .compileAndPersistRules 2 "aa:1" "stockbroker_a" (sampleCompilation []) ["v2"],
    .review (sampleCall .approve "v2")]

theorem active_approved_twoTenants :
    (∃ r, (run sampleClauses twoTenants).rules.get? 2 = some r ∧ r.isActive = true) ∧
    ∀ r, (run sampleClauses twoTenants).rules.get? 1 = some r → r.isActive = false := by
  obtain ⟨r₁, h₁, hid₁⟩ : ∃ r, (run sampleClauses twoTenants).rules.get? 1 = some r ∧
      r.ruleId = "aa:1" := ⟨_, rfl, rfl⟩
  obtain ⟨r₂, h₂, hid₂, ha₂⟩ : ∃ r, (run sampleClauses twoTenants).rules.get? 2 = some r ∧
      r.ruleId = "aa:1" ∧ r.isActive = true := ⟨_, rfl, rfl, rfl⟩
  refine ⟨⟨r₂, h₂, ha₂⟩, fun r hr => ?_⟩
  obtain rfl := Option.some.inj (h₁.symm.trans hr)
  by_contra ha
  have hall := (active_approved sampleClauses noneActive_sampleClauses twoTenants).2
  have := hall "aa:1" 1 2 r₁ r₂ h₁ h₂ hid₁ hid₂ (by simpa using ha) ha₂
  omega

/-! ### Approvals and texts -/

/-- The review approved the rule as it is. -/
def Approves (v : HITLReview) (r : CompiledRule) : Prop :=
  v.approvedPolicySha256 = r.policySha256 ∧ v.approvedRuleVersion = some r.ruleVersion

/-- Reviews are linked to rows that exist or existed, the digest of a rule is that of its text, and a
resolved review approved its rule as it is. -/
structure Bound (s : Store) : Prop where
  linked : ∀ i v j, s.reviews.get? i = some v → v.compiledRuleId = some j → j < s.rules.next
  hashed : ∀ j r, s.rules.get? j = some r → policyHash r = r.policySha256
  approved : ∀ i v j r, s.reviews.get? i = some v → v.compiledRuleId = some j →
    s.rules.get? j = some r → v.status = .resolved → Approves v r

/-- No review is resolved yet. -/
structure Unapproved (s : Store) : Prop where
  linked : ∀ i v j, s.reviews.get? i = some v → v.compiledRuleId = some j → j < s.rules.next
  hashed : ∀ j r, s.rules.get? j = some r → policyHash r = r.policySha256
  unresolved : ∀ i v, s.reviews.get? i = some v → v.status ≠ .resolved

theorem Unapproved.bound {s : Store} (h : Unapproved s) : Bound s where
  linked := h.linked
  hashed := h.hashed
  approved i v _ _ hv _ _ hst := absurd hst (h.unresolved i v hv)

theorem policyHash_congr {r r' : CompiledRule} (hrego : r'.regoPolicy = r.regoPolicy)
    (hsha : r'.policySha256 = r.policySha256) : policyHash r' = policyHash r := by
  simp only [policyHash, hrego, hsha]

theorem hexdigest_ne_empty (text : String) : hexdigest text ≠ "" := by
  intro h
  have := length_hexdigest text
  simp [h] at this

/-- The digest that is written is the one an approval would compute. -/
theorem Writes.hashed {compilation : CompilationResult} {r : CompiledRule}
    (h : Writes compilation r) : policyHash r = r.policySha256 := by
  unfold policyHash
  rw [h.sha, h.rego, regoSha256]
  cases compilation.rego with
  | none => rfl
  | some rego =>
    by_cases hcode : rego.regoCode = ""
    · simp [hcode, truthy]
    · simp [hcode, truthy, hexdigest_ne_empty]

/-- A rule keeps its text and version; its digest stays or is computed from the text. -/
def SameText (r r' : CompiledRule) : Prop :=
  r'.regoPolicy = r.regoPolicy ∧ r'.ruleVersion = r.ruleVersion ∧
    (r'.policySha256 = r.policySha256 ∨ r'.policySha256 = policyHash r)

section
variable {s s' : Store}

/-- Every rule of `s'` is one of `s`, with the same text. -/
def TextsFrom (rules rules' : Table CompiledRule) : Prop :=
  rules'.next = rules.next ∧
    ∀ j r', rules'.get? j = some r' → ∃ r, rules.get? j = some r ∧ SameText r r'

theorem textsFrom_update {rules : Table CompiledRule} {k : Nat} {f : CompiledRule → CompiledRule}
    (hf : ∀ r, rules.get? k = some r → SameText r (f r)) : TextsFrom rules (rules.update k f) := by
  refine ⟨rfl, fun j r' hr' => ?_⟩
  rw [Table.get?_update] at hr'
  split at hr'
  · rename_i hj
    obtain ⟨r, hr, rfl⟩ := Option.map_eq_some_iff.1 hr'
    exact ⟨r, hr, hf r (hj ▸ hr)⟩
  · exact ⟨r', hr', rfl, rfl, .inl rfl⟩

theorem textsFrom_updateRuleOf {review : HITLReview} {f : CompiledRule → CompiledRule}
    (hf : ∀ r, SameText r (f r)) : TextsFrom s.rules (updateRuleOf s review f) := by
  unfold updateRuleOf
  split
  · exact textsFrom_update fun r _ => hf r
  · exact ⟨rfl, fun j r' hr' => ⟨r', hr', rfl, rfl, .inl rfl⟩⟩

theorem textsFrom_activate {rules : Table CompiledRule} {k : Nat} {rule : CompiledRule}
    (hrule : rules.get? k = some rule) : TextsFrom rules (activate rules k rule) := by
  refine ⟨rfl, fun j r' hr' => ?_⟩
  rw [activate, Table.get?_modify] at hr'
  obtain ⟨r, hr, rfl⟩ := Option.map_eq_some_iff.1 hr'
  refine ⟨r, hr, ?_⟩
  split
  · rename_i hj
    obtain rfl : rule = r := Option.some.inj (hrule.symm.trans (hj ▸ hr))
    exact ⟨rfl, rfl, .inr rfl⟩
  · split
    · exact ⟨rfl, rfl, .inl rfl⟩
    · exact ⟨rfl, rfl, .inl rfl⟩

/-- The review is closed as resolved only with the digest and version of its rule. -/
def ClosesBound (s : Store) (review closed : HITLReview) : Prop :=
  closed.status = .resolved → ∀ j r, review.compiledRuleId = some j → s.rules.get? j = some r →
    closed.approvedPolicySha256 = policyHash r ∧ closed.approvedRuleVersion = some r.ruleVersion

/-- **A call changes no text**, and approves the one there is. -/
theorem result_texts {c : ReviewCall} (h : c.result s = .ok s') :
    ∃ k review closed, Closes s s' k review closed ∧ ClosesBound s review closed ∧
      TextsFrom s.rules s'.rules := by
  unfold ReviewCall.result at h
  split at h
  · obtain ⟨a, ha, rfl⟩ := Lib.Except.map_ok_iff.1 h
    obtain ⟨k, review, hget, hst, ⟨ruleKey, rule, hlink, hrule, rfl⟩ | ⟨hlink, rfl⟩⟩ :=
      approveReview_ok ha
    · refine ⟨k, review, _, approveLinked_closes (getReviewOr404_ok hget) hst _ _ _ _ _, ?_, ?_⟩
      · intro _ j r hj hr
        obtain rfl : ruleKey = j := Option.some.inj (hlink.symm.trans hj)
        obtain rfl : rule = r := Option.some.inj (hrule.symm.trans hr)
        exact ⟨rfl, rfl⟩
      · rcases approveLinked_cases s k review ruleKey rule c.officer c.notes c.now with
          ⟨hrules, -⟩ | ⟨status, hrules⟩
        · rw [hrules]
          exact textsFrom_activate hrule
        · rw [hrules]
          refine textsFrom_update fun r hr => ?_
          obtain rfl : rule = r := Option.some.inj (hrule.symm.trans hr)
          exact ⟨rfl, rfl, .inr rfl⟩
    · refine ⟨k, review, _, approveUnlinked_closes (getReviewOr404_ok hget) hst _ _ _, ?_, ?_⟩
      · intro _ j r hj
        cases hlink.symm.trans hj
      · simp only [approveUnlinked, settleCircular_rules]
        exact ⟨rfl, fun j r' hr' => ⟨r', hr', rfl, rfl, .inl rfl⟩⟩
  · obtain ⟨k, review, hget, hst, rfl⟩ := rejectReview_ok h
    refine ⟨k, review, _, refuse_closes (getReviewOr404_ok hget) hst _ _ _, ?_, ?_⟩
    · intro hres
      cases hres
    · simp only [refuse, failCircular_rules]
      exact textsFrom_updateRuleOf fun r => ⟨rfl, rfl, .inl rfl⟩
  · obtain ⟨k, review, hget, hst, rfl⟩ := requestRevision_ok h
    refine ⟨k, review, _, revise_closes (getReviewOr404_ok hget) hst _ _ _, ?_, ?_⟩
    · intro hres
      cases hres
    · exact textsFrom_updateRuleOf fun r => ⟨rfl, rfl, .inl rfl⟩

/-- A review call keeps the store bound. -/
theorem Bound.review {c : ReviewCall} (hs : Bound s) (h : c.result s = .ok s') : Bound s' := by
  obtain ⟨k, review, closed, hcl, hbound, hnext, htexts⟩ := result_texts h
  -- the digest of a rule is the one its text had
  have hrule : ∀ j r', s'.rules.get? j = some r' → ∃ r, s.rules.get? j = some r ∧
      r'.regoPolicy = r.regoPolicy ∧ r'.ruleVersion = r.ruleVersion ∧
      r'.policySha256 = r.policySha256 := by
    intro j r' hr'
    obtain ⟨r, hr, hrego, hversion, hsha | hsha⟩ := htexts j r' hr'
    · exact ⟨r, hr, hrego, hversion, hsha⟩
    · exact ⟨r, hr, hrego, hversion, hsha.trans (hs.hashed j r hr)⟩
  -- a review is an old one or the closed one
  have hreview : ∀ i v j, s'.reviews.get? i = some v → v.compiledRuleId = some j →
      s.reviews.get? i = some v ∨ v = closed ∧ review.compiledRuleId = some j := by
    intro i v j hv hj
    rw [hcl.reviews, Table.get?_update] at hv
    split at hv
    · obtain ⟨w, -, rfl⟩ := Option.map_eq_some_iff.1 hv
      rcases hcl.link with hlink | hlink
      · exact .inr ⟨rfl, hlink.symm.trans hj⟩
      · cases hlink.symm.trans hj
    · exact .inl hv
  constructor
  · intro i v j hv hj
    rw [hnext]
    rcases hreview i v j hv hj with hold | ⟨-, hj⟩
    · exact hs.linked i v j hold hj
    · exact hs.linked k review j hcl.found hj
  · intro j r' hr'
    obtain ⟨r, hr, hrego, -, hsha⟩ := hrule j r' hr'
    rw [policyHash_congr hrego hsha, hsha]
    exact hs.hashed j r hr
  · intro i v j r' hv hj hr' hst
    obtain ⟨r, hr, -, hversion, hsha⟩ := hrule j r' hr'
    rw [Approves, hversion, hsha]
    rcases hreview i v j hv hj with hold | ⟨rfl, hj⟩
    · exact hs.approved i v j r hold hj hr hst
    · obtain ⟨hv, hver⟩ := hbound hst j r hj hr
      exact ⟨hv.trans (hs.hashed j r hr), hver⟩

/-- What a pipeline operation must show of the rule it writes. -/
structure Rewrites (s s' : Store) (k : Nat) : Prop where
  frame : Frame s s' (some k)
  next : s.rules.next ≤ s'.rules.next
  below : k < s'.rules.next
  hashed : ∀ r, s'.rules.get? k = some r → policyHash r = r.policySha256
  approved : ∀ i v r, s'.reviews.get? i = some v → v.compiledRuleId = some k →
    s'.rules.get? k = some r → v.status = .resolved → Approves v r

theorem Bound.rewrites {k : Nat} (hs : Bound s) (h : Rewrites s s' k) : Bound s' := by
  constructor
  · intro i v j hv hj
    by_cases hjk : j = k
    · exact hjk ▸ h.below
    · exact (hs.linked i v j (h.frame.review i v j hj (by simpa using hjk) hv) hj).trans_le h.next
  · intro j r' hr'
    by_cases hjk : j = k
    · subst hjk
      exact h.hashed r' hr'
    · obtain ⟨r, hr, rfl | rfl⟩ := h.frame.rule j r' (by simpa using hjk) hr'
      · exact hs.hashed j r' hr
      · exact hs.hashed j r hr
  · intro i v j r' hv hj hr' hst
    by_cases hjk : j = k
    · subst hjk
      exact h.approved i v r' hv hj hr' hst
    · have hv' := h.frame.review i v j hj (by simpa using hjk) hv
      obtain ⟨r, hr, rfl | rfl⟩ := h.frame.rule j r' (by simpa using hjk) hr'
      · exact hs.approved i v j r' hv' hj hr hst
      · exact hs.approved i v j r hv' hj hr hst

/-- The resolved reviews of rule `k` are old ones, perhaps with a new description. -/
def OldApprovals (s s' : Store) (k : Nat) : Prop :=
  ∀ i v', s'.reviews.get? i = some v' → v'.compiledRuleId = some k → v'.status = .resolved →
    ∃ v, s.reviews.get? i = some v ∧ v.compiledRuleId = some k ∧ v.status = .resolved ∧
      ∀ r, Approves v r → Approves v' r

theorem AddsReviews.oldApprovals {k : Nat} (h : AddsReviews s s' k) : OldApprovals s s' k := by
  intro i v' hv' hlink hst
  rcases h.review i v' hv' with hv | ⟨-, hpending | ⟨v, text, hv, rfl⟩⟩
  · exact ⟨v', hv, hlink, hst, fun _ h => h⟩
  · simp [hst] at hpending
  · exact ⟨v, hv, hlink, hst, fun _ h => h⟩

/-- The rule was there, and its digest is kept if a review of it is resolved. -/
theorem rewrites_old {k : Nat} {r₀ : CompiledRule} (hs : Bound s) (hframe : Frame s s' (some k))
    (hr₀ : s.rules.get? k = some r₀) (hnext : s'.rules.next = s.rules.next)
    (hrow : ∀ r, s'.rules.get? k = some r →
      policyHash r = r.policySha256 ∧ r.ruleVersion = r₀.ruleVersion)
    (hkeep : ∀ r i v, s'.rules.get? k = some r → s.reviews.get? i = some v →
      v.compiledRuleId = some k → v.status = .resolved → r.policySha256 = r₀.policySha256)
    (hold : OldApprovals s s' k) : Rewrites s s' k where
  frame := hframe
  next := hnext.ge
  below := hnext ▸ Table.lt_next_of_get? hr₀
  hashed r hr := (hrow r hr).1
  approved i v' r hv' hlink hr hst := by
    obtain ⟨v, hv, hvlink, hvst, happ⟩ := hold i v' hv' hlink hst
    obtain ⟨hsha, hversion⟩ := hs.approved i v k r₀ hv hvlink hr₀ hvst
    refine happ r ⟨?_, ?_⟩
    · rw [hkeep r i v hr hv hvlink hvst, hsha]
    · rw [(hrow r hr).2, hversion]

/-- The rule is new, so that no review of it is resolved. -/
theorem rewrites_new (hs : Bound s) (hframe : Frame s s' (some s.rules.next))
    (hnext : s'.rules.next = s.rules.next + 1)
    (hrow : ∀ r, s'.rules.get? s.rules.next = some r → policyHash r = r.policySha256)
    (hold : OldApprovals s s' s.rules.next) : Rewrites s s' s.rules.next where
  frame := hframe
  next := by omega
  below := by omega
  hashed := hrow
  approved i v' r hv' hlink hr hst := by
    obtain ⟨v, hv, hvlink, -⟩ := hold i v' hv' hlink hst
    exact absurd (hs.linked i v _ hv hvlink) (Nat.lt_irrefl _)

/-- The placeholder of a failed clause has no text, or the one it had. -/
theorem Bound.persistFailed {clauseId : Nat} {clause : Clause} {chunkId tenantId uuid : String}
    {error : Option String} {k : Nat} (hs : Bound s)
    (h : persistFailedClauseRule s clauseId clause chunkId error tenantId uuid = .ok (k, s')) :
    Bound s' := by
  have hframe := (persistFailedClauseRule_frame h).1
  obtain ⟨t, hrule, hadds⟩ := persistFailedClauseRule_ok h
  have hold := hadds.oldApprovals
  rcases failedRule_ok hrule with ⟨rfl, r₀, hr₀, -⟩ | ⟨rule, rfl, rfl, -, hrego, hsha⟩
  · have hrow : ∀ r, s'.rules.get? k = some r → r = { r₀ with
        isActive := false, isCompiled := false, hitlStatus := .blocking } := by
      intro r hr
      rw [hadds.rules, Table.get?_update, if_pos rfl, hr₀] at hr
      exact (Option.some.inj hr).symm
    refine hs.rewrites (rewrites_old hs hframe hr₀ (by rw [hadds.rules]; rfl) ?_ ?_ hold)
    · intro r hr
      rw [hrow r hr]
      exact ⟨hs.hashed k r₀ hr₀, rfl⟩
    · intro r i v hr _ _ _
      rw [hrow r hr]
  · refine hs.rewrites (rewrites_new hs hframe (by rw [hadds.rules]; rfl) ?_ hold)
    intro r hr
    rw [hadds.rules, Table.get?_insert, if_pos rfl] at hr
    rw [← Option.some.inj hr, policyHash, hrego, hsha]
    rfl

/-- A recompilation leaves the digest of a rule with a resolved review as it is. -/
def KeepsApproved (s : Store) : Op → Prop
  | .compileAndPersistRules clauseId ruleId _ compilation _ =>
    ∀ k r i v, s.rules.get? k = some r → r.ruleId = ruleId → r.clauseId = clauseId →
      isFailedRuleId ruleId = false → s.reviews.get? i = some v → v.compiledRuleId = some k →
      v.status = .resolved → regoSha256 compilation = r.policySha256
  | _ => True

theorem Bound.compile {clauseId : Nat} {clause : Clause} {ruleId tenantId : String}
    {compilation : CompilationResult} {uuids : List String} {k : Nat} (hs : Bound s)
    (hkeeps : KeepsApproved s (.compileAndPersistRules clauseId ruleId tenantId compilation uuids))
    (h : compileAndPersistRules s clauseId clause ruleId tenantId compilation uuids = .ok (k, s')) :
    Bound s' := by
  have hframe := (compileAndPersistRules_frame h).1
  obtain ⟨t, u, status, hrule, hadds, rfl⟩ := compileAndPersistRules_ok h
  -- a resolved review was there before the placeholders went
  have hold : OldApprovals s { u with rules := u.rules.update k fun r =>
      { r with hitlStatus := status } } k := by
    intro i v' hv' hlink hst
    obtain ⟨v, hv, hvlink, hvst, happ⟩ := hadds.oldApprovals i v' hv' hlink hst
    rw [compiledRule_reviews hrule] at hv
    exact ⟨v, (frame_deleteFailedRules s clauseId none).review i v k hvlink (by simp) hv, hvlink,
      hvst, happ⟩
  rcases compiledRule_ok hrule with ⟨f, rfl, hf, r₀, hr₀, hid, hclause⟩ | ⟨rule, hk, rfl, hw⟩
  · obtain ⟨hr₀', hfailed⟩ := get?_deleteFailedRules hr₀
    have hrow : ∀ r, (u.rules.update k fun r => { r with hitlStatus := status }).get? k = some r →
        r = { f r₀ with hitlStatus := status } := by
      intro r hr
      rw [Table.get?_update, if_pos rfl, hadds.rules, Table.get?_update, if_pos rfl, hr₀] at hr
      exact (Option.some.inj hr).symm
    refine hs.rewrites (rewrites_old hs hframe hr₀' (by rw [Table.next_update, hadds.rules]; rfl)
      ?_ ?_ hold)
    · intro r hr
      rw [hrow r hr]
      exact ⟨(hf r₀).1.hashed, (hf r₀).2⟩
    · intro r i v hr hv hlink hst
      rw [hrow r hr]
      exact (hf r₀).1.sha.trans
        (hkeeps k r₀ i v hr₀' hid hclause (hid ▸ hfailed hclause) hv hlink hst)
  · obtain rfl : k = s.rules.next := hk
    refine hs.rewrites (rewrites_new hs hframe (by rw [Table.next_update, hadds.rules]; rfl) ?_
      hold)
    intro r hr
    rw [Table.get?_update, if_pos rfl, hadds.rules, Table.get?_insert, if_pos (by rfl)] at hr
    rw [← Option.some.inj hr]
    exact hw.hashed

/-! ### Runs -/

/-- Each operation of a run meets the condition in the store it acts on. -/
def RunKeepsApproved : Store → List Op → Prop
  | _, [] => True
  | s, op :: ops => KeepsApproved s op ∧ RunKeepsApproved (step s op) ops

theorem Bound.step {op : Op} (hs : Bound s) (hop : KeepsApproved s op) : Bound (step s op) := by
  cases hres : op.result s with
  | error e => simpa [Hitl.step, commit, hres] using hs
  | ok s' =>
    have hstep : Hitl.step s op = s' := by simp [Hitl.step, commit, hres]
    rw [hstep]
    cases op with
    | review c => exact hs.review hres
    | compileAndPersistRules clauseId ruleId tenantId compilation uuids =>
      simp only [Op.result] at hres
      split at hres
      · obtain ⟨⟨k, t⟩, ht, rfl⟩ := Lib.Except.map_ok_iff.1 hres
        exact hs.compile hop ht
      · cases hres
    | persistFailedClauseRule clauseId chunkId error tenantId uuid =>
      simp only [Op.result] at hres
      split at hres
      · obtain ⟨⟨k, t⟩, ht, rfl⟩ := Lib.Except.map_ok_iff.1 hres
        exact hs.persistFailed ht
      · cases hres

theorem Bound.run : ∀ {ops : List Op} {s : Store}, Bound s → RunKeepsApproved s ops → ∀ n,
    Bound (run s (ops.take n))
  | [], _, hs, _, n => by simpa [Hitl.run] using hs
  | _ :: _, _, hs, _, 0 => hs
  | _ :: _, _, hs, h, n + 1 => Bound.run (hs.step h.1) h.2 n

end

/-- **As long as no recompilation changes the digest of a rule with a resolved review, every resolved
review of an active rule approved its digest and version.** -/
theorem approvals_bound (s : Store) (hs : Unapproved s) (ops : List Op)
    (hops : RunKeepsApproved s ops) (n : Nat) :
    ∀ k r, (run s (ops.take n)).rules.get? k = some r → r.isActive = true →
      ∀ i v, (run s (ops.take n)).reviews.get? i = some v → v.compiledRuleId = some k →
        v.status = .resolved →
        v.approvedPolicySha256 = r.policySha256 ∧ v.approvedRuleVersion = some r.ruleVersion :=
  fun k r hr _ i v hv hlink hst => (hs.bound.run hops n).approved i v k r hv hlink hr hst

theorem unapproved_sampleClauses : Unapproved sampleClauses where
  linked i v _ hv := by simp [sampleClauses] at hv
  hashed j r hr := by simp [sampleClauses] at hr
  unresolved i v hv := by simp [sampleClauses] at hv

/-- The compilation of a clause with two advisory flags. -/
def flaggedCompilation (regoCode : String) : CompilationResult :=
  { sampleCompilation [sampleFlag "v1" .ambiguousSpan, sampleFlag "v2" .unresolvedEntity] with
    rego := some
      { ruleId := "RULE-1"
        package := "sebi.broking.clause"
        regoCode := regoCode
        thresholdsCompiled := 1 } }

/-- A clause is compiled and its first review approved; it is compiled again, and the second review
is approved. -/
def recompiledBetween (regoCode : String) : List Op :=
  [.compileAndPersistRules 1 "aa:1" "sebi_baseline"
      (flaggedCompilation "package sebi.broking.clause") [],
    .review (sampleCall .approve "v1"),
    .compileAndPersistRules 1 "aa:1" "sebi_baseline" (flaggedCompilation regoCode) [],
    .review (sampleCall .approve "v2")]

/-- The same text comes out: the rule is active with the text both reviews approved. -/
theorem approvals_bound_same :
    ∃ r v, (run sampleClauses (recompiledBetween "package sebi.broking.clause")).rules.get? 1 =
        some r ∧ r.isActive = true ∧
      (run sampleClauses (recompiledBetween "package sebi.broking.clause")).reviews.get? 1 =
        some v ∧ v.approvedPolicySha256 = r.policySha256 := by
  have hsha : ∀ k r, (run sampleClauses
      ((recompiledBetween "package sebi.broking.clause").take 2)).rules.get? k = some r →
      regoSha256 (flaggedCompilation "package sebi.broking.clause") = r.policySha256 := by
    intro k r hr
    have hall : ∀ x ∈ (run sampleClauses
        ((recompiledBetween "package sebi.broking.clause").take 2)).rules.rows,
        regoSha256 (flaggedCompilation "package sebi.broking.clause") = x.2.policySha256 := by
      decide +kernel
    exact hall (k, r) (Table.get?_eq_some_iff.1 hr)
  have hops : RunKeepsApproved sampleClauses (recompiledBetween "package sebi.broking.clause") :=
    ⟨fun k r i v hr => by simp [sampleClauses] at hr, trivial,
      fun k r i v hr _ _ _ _ _ _ => hsha k r hr, trivial, trivial⟩
  obtain ⟨r, hr, ha⟩ := Option.map_eq_some_iff.1 (by decide +kernel :
    ((run sampleClauses (recompiledBetween "package sebi.broking.clause")).rules.get? 1).map
      (·.isActive) = some true)
  obtain ⟨v, hv, hlink⟩ := Option.map_eq_some_iff.1 (by decide +kernel :
    ((run sampleClauses (recompiledBetween "package sebi.broking.clause")).reviews.get? 1).map
      (fun v => (v.compiledRuleId, v.status)) = some (some 1, .resolved))
  obtain ⟨hlink, hst⟩ := Prod.mk.inj hlink
  exact ⟨r, v, hr, ha, hv, (approvals_bound sampleClauses unapproved_sampleClauses _ hops 4 1 r hr ha
    1 v hv hlink hst).1⟩

/-- Another text comes out: the rule is active with a text that the first review did not approve. -/
theorem approval_of_old_text :
    ∃ r v, (run sampleClauses (recompiledBetween "package sebi.broking.other")).rules.get? 1 =
        some r ∧ r.isActive = true ∧
      (run sampleClauses (recompiledBetween "package sebi.broking.other")).reviews.get? 1 =
        some v ∧ v.compiledRuleId = some 1 ∧ v.status = .resolved ∧
      v.approvedPolicySha256 ≠ r.policySha256 := by
  obtain ⟨r, hr, hra⟩ := Option.map_eq_some_iff.1 (by decide +kernel :
    ((run sampleClauses (recompiledBetween "package sebi.broking.other")).rules.get? 1).map
      (fun r => (r.isActive, r.policySha256)) =
        some (true, some (hexdigest "package sebi.broking.other")))
  obtain ⟨v, hv, hva⟩ := Option.map_eq_some_iff.1 (by decide +kernel :
    ((run sampleClauses (recompiledBetween "package sebi.broking.other")).reviews.get? 1).map
      (fun v => (v.compiledRuleId, v.status, v.approvedPolicySha256)) =
        some (some 1, .resolved, some (hexdigest "package sebi.broking.clause")))
  simp only [Prod.mk.injEq] at hra hva
  refine ⟨r, v, hr, hra.1, hv, hva.1, hva.2.1, ?_⟩
  rw [hra.2, hva.2.2]
  decide +kernel

end RegEngine.Hitl
