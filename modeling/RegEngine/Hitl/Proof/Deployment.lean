import RegEngine.Execution.Proof.Coherence
import RegEngine.Hitl.Status
import RegEngine.Hitl.Proof.Approved

/-!
# OPA and the registry against the active rules

A publication replaces what OPA and the registry hold of its `rule_id`, and nothing is ever revoked:
a rule that is switched off stays served until another rule of its `rule_id` is published. An active
rule has no pending review (`ActiveApproved`), so only the pipeline and the activation of another rule
of its `rule_id` switch it off (`review_keeps`, `pipeline_keeps`).

* `serves_active_run`: along a run that switches off no served rule, but for the publication of
  another one, OPA and the registry hold active rules only.
* `recompiled_still_served`: a rule that is compiled again is not active and still served.
-/

namespace RegEngine.Hitl

open Lib Lib.Python Compiler Execution

/-! ## What switches an active rule off -/

section
variable {s s' : Store}

/-- The store after a call that activates a rule. -/
theorem activates_rules {c : ReviewCall} {k : Nat} (h : c.activates s = some k) :
    ∃ q s', s.rules.get? k = some q ∧ c.result s = .ok s' ∧ s'.rules = activate s.rules k q := by
  have hverdict := activates_verdict h
  simp only [ReviewCall.activates, hverdict] at h
  split at h
  · rename_i a ha
    split at h
    · rename_i hgate
      obtain ⟨i, review, -, -, ⟨ruleKey, rule, -, hrule, rfl⟩ | ⟨-, rfl⟩⟩ := approveReview_ok ha
      · obtain rfl := Option.some.inj h
        refine ⟨rule, (approveLinked s i review ruleKey rule c.officer c.notes c.now).store, hrule,
          ?_, ?_⟩
        · simp only [ReviewCall.result, hverdict, ha, Except.map]
        · simp only [approveLinked] at hgate
          simp [approveLinked, hgate]
      · cases hgate
    · cases h
  · cases h

/-- A call that activates none switches the rule of a pending review off, at most. -/
theorem result_rules_of_not_activates {c : ReviewCall} (h : c.result s = .ok s')
    (hact : c.activates s = none) :
    ∃ i review f, s.reviews.get? i = some review ∧ review.status = .pending ∧
      s'.rules = updateRuleOf s review f := by
  unfold ReviewCall.result at h
  split at h
  · rename_i hverdict
    obtain ⟨a, ha, rfl⟩ := Lib.Except.map_ok_iff.1 h
    simp only [ReviewCall.activates, hverdict, ha] at hact
    obtain ⟨i, review, hget, hst, ⟨ruleKey, rule, hlink, -, rfl⟩ | ⟨hlink, rfl⟩⟩ :=
      approveReview_ok ha
    · have hrules : ∃ f, (approveLinked s i review ruleKey rule c.officer c.notes c.now).store.rules =
          updateRuleOf s review f := by
        simp only [approveLinked, settleCircular_rules, updateRuleOf, hlink] at hact ⊢
        split
        · rename_i hgate
          simp [hgate] at hact
        · exact ⟨_, rfl⟩
      obtain ⟨f, hf⟩ := hrules
      exact ⟨i, review, f, getReviewOr404_ok hget, hst, hf⟩
    · refine ⟨i, review, id, getReviewOr404_ok hget, hst, ?_⟩
      simp [approveUnlinked, updateRuleOf, hlink]
  · obtain ⟨i, review, hget, hst, rfl⟩ := rejectReview_ok h
    exact ⟨i, review, _, getReviewOr404_ok hget, hst, failCircular_rules _ _ _⟩
  · obtain ⟨i, review, hget, hst, rfl⟩ := requestRevision_ok h
    exact ⟨i, review, _, getReviewOr404_ok hget, hst, rfl⟩

/-- **A call that activates none leaves the active rules as they are**: a rule it changes has a
pending review. -/
theorem review_keeps {c : ReviewCall} (hs : ActiveApproved s) (h : c.result s = .ok s')
    (hact : c.activates s = none) {k : Nat} {r : CompiledRule} (hr : s.rules.get? k = some r)
    (ha : r.isActive = true) : s'.rules.get? k = some r := by
  obtain ⟨i, review, f, hget, hst, hrules⟩ := result_rules_of_not_activates h hact
  rw [hrules, updateRuleOf]
  split
  · rename_i j hlink
    have hne : k ≠ j := by
      rintro rfl
      have hresolved := hs.approved k r hr ha (i, review) (mem_reviewsOf.2 ⟨hget, hlink⟩)
      simp [hst] at hresolved
    rw [Table.get?_update, if_neg hne, hr]
  · exact hr

/-- An activation leaves the rules with another `rule_id` as they are. -/
theorem activate_keeps {rules : Table CompiledRule} {j k : Nat} {q r : CompiledRule}
    (hq : rules.get? k = some q) (hr : rules.get? j = some r) (hid : r.ruleId ≠ q.ruleId) :
    (activate rules k q).get? j = some r := by
  have hne : j ≠ k := by
    rintro rfl
    rw [hq, Option.some.injEq] at hr
    exact hid (by rw [hr])
  rw [activate, Table.get?_modify, hr, Option.map_some, if_neg hne, if_neg hid]

/-- The row is overwritten or deleted by a pipeline operation. -/
def Overwritten (s : Store) (r : CompiledRule) : Op → Prop
  | .review _ => False
  | .compileAndPersistRules clauseId ruleId _ _ _ =>
    r.clauseId = clauseId ∧ (r.ruleId = ruleId ∨ isFailedRuleId r.ruleId = true)
  | .persistFailedClauseRule clauseId chunkId _ _ _ =>
    r.clauseId = clauseId ∧ ∃ clause, s.clauses.get? clauseId = some clause ∧
      r.ruleId = failedRuleId clauseId clause chunkId

theorem get?_update_keeps {rules : Table CompiledRule} {j k : Nat} {r : CompiledRule}
    {f : CompiledRule → CompiledRule} (hr : rules.get? k = some r) (hne : k ≠ j) :
    (rules.update j f).get? k = some r := by
  rw [Table.get?_update, if_neg hne, hr]

theorem get?_insert_keeps {rules : Table CompiledRule} {k : Nat} {r rule : CompiledRule}
    (hr : rules.get? k = some r) : (rules.insert rule).get? k = some r := by
  rw [Table.get?_insert, if_neg (Nat.ne_of_lt (Table.lt_next_of_get? hr)), hr]

/-- **A pipeline operation leaves the rows that it does not overwrite as they are.** -/
theorem pipeline_keeps {op : Op} (hop : ∀ c, op ≠ .review c) (h : op.result s = .ok s') {k : Nat}
    {r : CompiledRule} (hr : s.rules.get? k = some r) (hkeep : ¬ Overwritten s r op) :
    s'.rules.get? k = some r := by
  cases op with
  | review c => exact absurd rfl (hop c)
  | compileAndPersistRules clauseId ruleId tenantId compilation uuids =>
    simp only [Op.result] at h
    split at h
    · obtain ⟨⟨j, u⟩, hcompile, rfl⟩ := Lib.Except.map_ok_iff.1 h
      obtain ⟨t, v, status, hrule, hadds, rfl⟩ := compileAndPersistRules_ok hcompile
      have hdel : (deleteFailedRules s clauseId).rules.get? k = some r := by
        refine get?_deleteFailedRules_keeps hr fun hclause => ?_
        exact Bool.eq_false_iff.2 fun hfailed => hkeep ⟨hclause, .inr hfailed⟩
      dsimp only
      rw [hadds.rules]
      rcases compiledRule_ok hrule with ⟨f, rfl, -, q, hq, hid, hclause⟩ | ⟨rule, rfl, rfl, -⟩
      · have hne : k ≠ j := by
          rintro rfl
          rw [hdel, Option.some.injEq] at hq
          exact hkeep ⟨hq ▸ hclause, .inl (hq ▸ hid)⟩
        exact get?_update_keeps (get?_update_keeps hdel hne) hne
      · exact get?_update_keeps (get?_insert_keeps hdel) (Nat.ne_of_lt (Table.lt_next_of_get? hdel))
    · cases h
  | persistFailedClauseRule clauseId chunkId error tenantId uuid =>
    simp only [Op.result] at h
    split at h
    · rename_i clause hclause
      obtain ⟨⟨j, u⟩, hpersist, rfl⟩ := Lib.Except.map_ok_iff.1 h
      obtain ⟨t, hrule, hadds⟩ := persistFailedClauseRule_ok hpersist
      dsimp only
      rw [hadds.rules]
      rcases failedRule_ok hrule with ⟨rfl, q, hq, hid, hq'⟩ | ⟨rule, rfl, rfl, -⟩
      · refine get?_update_keeps hr ?_
        rintro rfl
        rw [hr, Option.some.injEq] at hq
        exact hkeep ⟨hq ▸ hq', clause, hclause, hq ▸ hid⟩
      · exact get?_insert_keeps hr
    · cases h

end

/-! ## A publication -/

section
variable {T : Type} {P : PolicyPublisher} {d : Deployment T} {rule : CompiledRule}

/-- An entry after a registration for every entity type. -/
theorem mem_entries_register {R : PolicyRegistry} {c : CompiledRego} {key : String} {e : PolicyEntry}
    (h : e ∈ (R.register c ["*"]).entries key) :
    (e = entry c ∧ key = "*") ∨ e ∈ R.entries key ∧ (key = "*" → e.ruleId ≠ c.ruleId) := by
  by_cases hkey : key ∈ scopeOf ["*"]
  · rw [PolicyRegistry.register, PolicyRegistry.entries_foldl_registerKey_of_mem hkey,
      List.mem_append, List.mem_filter, List.mem_singleton] at h
    rcases h with ⟨he, hid⟩ | rfl
    · exact .inr ⟨he, fun _ => by simpa using hid⟩
    · exact .inl ⟨rfl, List.mem_singleton.1 hkey⟩
  · rw [PolicyRegistry.register, PolicyRegistry.entries_foldl_registerKey_of_notMem hkey] at h
    exact .inr ⟨h, fun hstar => absurd (hstar ▸ List.mem_singleton_self "*") hkey⟩

theorem regoPolicy_of_publishable (h : Publishable rule) :
    rule.regoPolicy = some (publishedRego rule).regoCode := by
  obtain ⟨hrego, -⟩ := h
  cases hr : rule.regoPolicy with
  | none => simp [hr, truthy] at hrego
  | some code => simp [publishedRego, hr]

/-- What is published is the module of the row, by the publisher and by the subscriber. -/
theorem publish_opa (h : Publishable rule) (k : Nat) (officer : String) :
    (d.publish P k rule officer).opa = publishPolicy d.opa (publishedRego rule) := by
  unfold Deployment.publish Process.publishApproved Process.publishActive
  rw [if_pos h]
  funext id
  simp only [publishPolicy, PolicyEvent.compiled, publishedRego]
  by_cases hid : id = rule.ruleId <;> simp [hid]

theorem publish_registry (h : Publishable rule) (k : Nat) (officer : String) :
    ∃ R : PolicyRegistry,
      (R = d.process.registry ∨ R = d.process.registry.register (publishedRego rule) ["*"]) ∧
      (d.publish P k rule officer).process.registry = R.register (publishedRego rule) ["*"] := by
  have hpackage : rule.opaPackageName.getD "" = orText rule.opaPackageName "" := by
    unfold orText
    split
    · split
      · rename_i hname hempty
        rw [hname, hempty, Option.getD_some]
      · rename_i hname _
        rw [hname, Option.getD_some]
    · rename_i hname
      rw [hname, Option.getD_none]
  unfold Deployment.publish Process.publishApproved Process.publishActive
  rw [if_pos h]
  refine ⟨(d.process.publish P (·.register (publishedRego rule) ["*"]) ["*"]).registry, ?_, ?_⟩
  · rw [publish_eq]
    by_cases hr : P.policyRegistry = true
    · exact .inr (by simp [hr])
    · exact .inl (by simp [hr])
  · simp only [Process.apply, Process.applyActive, Process.invalidate, h.1, if_true,
      PolicyEvent.compiled, hpackage]
    rfl

/-- **What a publication leaves in the registry**: its own entry, and those of other rules. -/
theorem mem_entries_publish {k : Nat} {officer : String} {key : String} {e : PolicyEntry}
    (hpub : Publishable rule)
    (h : e ∈ (d.publish P k rule officer).process.registry.entries key) :
    (e = entry (publishedRego rule) ∧ key = "*") ∨
      e ∈ d.process.registry.entries key ∧ (key = "*" → e.ruleId ≠ rule.ruleId) := by
  obtain ⟨R, hR, hreg⟩ := publish_registry (P := P) (d := d) hpub k officer
  rw [hreg] at h
  rcases mem_entries_register h with h | ⟨h, hne⟩
  · exact .inl h
  · rcases hR with rfl | rfl
    · exact .inr ⟨h, hne⟩
    · exact mem_entries_register h

end

/-! ## Runs -/

/-- An active rule with this property. -/
def SomeActive (s : Store) (p : CompiledRule → Prop) : Prop :=
  ∃ k r, s.rules.get? k = some r ∧ r.isActive = true ∧ p r

/-- OPA and the registry hold active rules only: each module is the text of an active rule of its
`rule_id`, and each entry is that of an active rule. -/
structure ServesActive {T : Type} (d : Deployment T) : Prop where
  opa : ∀ id text, d.opa id = some text →
    SomeActive d.store fun r => r.ruleId = id ∧ r.regoPolicy = some text
  registry : ∀ key, ∀ e ∈ d.process.registry.entries key,
    SomeActive d.store fun r => e = entry (publishedRego r)

/-- OPA or the registry holds something under this `rule_id`. -/
def Served {T : Type} (d : Deployment T) (ruleId : String) : Prop :=
  (∃ text, d.opa ruleId = some text) ∨ ∃ key, d.process.registry.Lists key ruleId

/-- No active rule that is served is overwritten or deleted, and the last open review of a rule is
approved only where the rule can be published or its `rule_id` is not served. -/
structure KeepsServed {T : Type} (d : Deployment T) (op : Op) : Prop where
  overwrites : ∀ k r, d.store.rules.get? k = some r → r.isActive = true →
    Overwritten d.store r op → ¬ Served d r.ruleId
  activates : ∀ c, op = .review c → c.verdict = .approve →
    ∀ k review rule r, getReviewOr404 d.store c.reviewId = .ok (k, review) →
      review.status = .pending → review.compiledRuleId = some rule →
      d.store.rules.get? rule = some r →
      (∀ x ∈ d.store.reviewsOf rule, x.1 ≠ k → x.2.status = .resolved) →
      Publishable r ∨ ¬ Served d r.ruleId

/-- Each operation of a run meets the condition in the state it acts on. -/
def RunKeepsServed {T : Type} (P : PolicyPublisher) : Deployment T → List Op → Prop
  | _, [] => True
  | d, op :: ops => KeepsServed d op ∧ RunKeepsServed P (d.step P op) ops

/-- What holds in every state: the registry is written under `"*"` only. -/
structure Synced {T : Type} (d : Deployment T) : Prop where
  approved : ActiveApproved d.store
  star : ∀ key, key ≠ "*" → d.process.registry.entries key = []
  serves : ServesActive d

section
variable {T : Type} {P : PolicyPublisher} {d d' : Deployment T}

/-- Nothing is published, and the rules that are served stay. -/
theorem ServesActive.of_keeps (h : ServesActive d) (hopa : d'.opa = d.opa)
    (hregistry : d'.process.registry = d.process.registry)
    (hkeep : ∀ k r, d.store.rules.get? k = some r → r.isActive = true → Served d r.ruleId →
      d'.store.rules.get? k = some r) : ServesActive d' where
  opa id text htext := by
    rw [hopa] at htext
    obtain ⟨k, r, hr, ha, hid, hrego⟩ := h.opa id text htext
    exact ⟨k, r, hkeep k r hr ha (.inl ⟨text, hid ▸ htext⟩), ha, hid, hrego⟩
  registry key e he := by
    rw [hregistry] at he
    obtain ⟨k, r, hr, ha, hentry⟩ := h.registry key e he
    exact ⟨k, r, hkeep k r hr ha (.inr ⟨key, e, he, by rw [hentry]; rfl⟩), ha, hentry⟩

/-- A rule is published, and the served rules of other `rule_id`s stay. -/
theorem ServesActive.publish {k : Nat} {q : CompiledRule} {officer : String} (h : ServesActive d)
    (hstar : ∀ key, key ≠ "*" → d.process.registry.entries key = [])
    (hopa : d'.opa = d.opa) (hregistry : d'.process.registry = d.process.registry)
    (hpub : Publishable q) (hq : d'.store.rules.get? k = some q) (ha : q.isActive = true)
    (hkeep : ∀ k r, d.store.rules.get? k = some r → r.isActive = true → r.ruleId ≠ q.ruleId →
      d'.store.rules.get? k = some r) : ServesActive (d'.publish P k q officer) := by
  have hstore : (d'.publish P k q officer).store = d'.store := by
    unfold Deployment.publish
    split <;> rfl
  constructor
  · intro id text htext
    rw [hstore]
    rw [publish_opa hpub, publishPolicy] at htext
    split at htext
    · rename_i hid
      refine ⟨k, q, hq, ha, hid.symm, ?_⟩
      rw [← htext]
      exact regoPolicy_of_publishable hpub
    · rename_i hid
      rw [hopa] at htext
      obtain ⟨j, r, hr, har, rfl, hrego⟩ := h.opa id text htext
      exact ⟨j, r, hkeep j r hr har hid, har, rfl, hrego⟩
  · intro key e he
    rw [hstore]
    rcases mem_entries_publish hpub he with ⟨rfl, -⟩ | ⟨he, hne⟩
    · exact ⟨k, q, hq, ha, rfl⟩
    · rw [hregistry] at he
      have hkey : key = "*" := by
        by_contra hkey
        rw [hstar key hkey] at he
        cases he
      obtain ⟨j, r, hr, har, rfl⟩ := h.registry key e he
      exact ⟨j, r, hkeep j r hr har (hne hkey), har, rfl⟩

theorem publish_store (k : Nat) (q : CompiledRule) (officer : String) :
    (d.publish P k q officer).store = d.store := by
  unfold Deployment.publish
  split <;> rfl

theorem publish_of_not_publishable {k : Nat} {q : CompiledRule} {officer : String}
    (h : ¬ Publishable q) : d.publish P k q officer = d := by
  simp [Deployment.publish, Process.publishApproved, Process.publishActive, h]

/-- A publication writes nothing beside `"*"`. -/
theorem publish_star (h : ∀ key, key ≠ "*" → d.process.registry.entries key = []) (k : Nat)
    (q : CompiledRule) (officer : String) (key : String) (hkey : key ≠ "*") :
    (d.publish P k q officer).process.registry.entries key = [] := by
  by_cases hpub : Publishable q
  · refine List.eq_nil_iff_forall_not_mem.2 fun e he => ?_
    rcases mem_entries_publish hpub he with ⟨-, hstar⟩ | ⟨he, -⟩
    · exact hkey hstar
    · rw [h key hkey] at he
      cases he
  · rw [publish_of_not_publishable hpub]
    exact h key hkey

theorem step_store (op : Op) : (d.step P op).store = Hitl.step d.store op := by
  unfold Deployment.step
  dsimp only
  split
  · split
    · exact publish_store ..
    · rfl
  · rfl
  · rfl

/-- A call that activates none publishes nothing. -/
theorem step_of_not_activates {c : ReviewCall} (h : c.activates d.store = none) :
    d.step P (.review c) = { d with store := Hitl.step d.store (.review c) } := by
  simp [Deployment.step, Deployment.activated, h]

theorem step_of_pipeline {op : Op} (h : ∀ c, op ≠ .review c) :
    d.step P op = { d with store := Hitl.step d.store op } := by
  cases op with
  | review c => exact absurd rfl (h c)
  | compileAndPersistRules => rfl
  | persistFailedClauseRule => rfl

/-- The row of a rule after its activation. -/
def CompiledRule.activated (q : CompiledRule) : CompiledRule :=
  { q with isActive := true, hitlStatus := .resolved, policySha256 := policyHash q }

theorem get?_activate_self {rules : Table CompiledRule} {k : Nat} {q : CompiledRule}
    (hq : rules.get? k = some q) : (activate rules k q).get? k = some q.activated := by
  rw [activate, Table.get?_modify, hq, Option.map_some, if_pos rfl, CompiledRule.activated]

/-- A call that activates a rule publishes it where it can be. -/
theorem step_of_activates {c : ReviewCall} {k : Nat} {q : CompiledRule}
    (hact : c.activates d.store = some k)
    (hrow : (Hitl.step d.store (.review c)).rules.get? k = some q.activated) :
    d.step P (.review c) =
      if Publishable q then
        ({ d with store := Hitl.step d.store (.review c) } : Deployment T).publish P k q.activated
          c.officer
      else { d with store := Hitl.step d.store (.review c) } := by
  simp only [Deployment.step, Deployment.activated, hact, Option.bind_some, hrow, Option.filter_some]
  by_cases hrego : truthy q.activated.regoPolicy = true
  · rw [if_pos hrego, Option.map_some]
    dsimp only
    split
    · rfl
    · rename_i hpub
      exact publish_of_not_publishable hpub
  · have hpub : ¬ Publishable q := fun h => hrego h.1
    rw [if_neg hrego, if_neg hpub]
    rfl

theorem Served.ne_of_not {r q : CompiledRule} (h : Served d r.ruleId) (hq : ¬ Served d q.ruleId) :
    r.ruleId ≠ q.ruleId := by
  intro hid
  rw [hid] at h
  exact hq h

theorem ServesActive.step {op : Op} (h : Synced d) (hop : KeepsServed d op) :
    ServesActive (d.step P op) := by
  -- an operation that raises leaves the store as it was
  have hraise : ∀ {e}, op.result d.store = .error e → Hitl.step d.store op = d.store := by
    intro e he
    simp [Hitl.step, commit, he]
  have hreturn : ∀ {s'}, op.result d.store = .ok s' → Hitl.step d.store op = s' := by
    intro s' hs'
    simp [Hitl.step, commit, hs']
  by_cases hc : ∃ c, op = .review c
  · obtain ⟨c, rfl⟩ := hc
    cases hact : c.activates d.store with
    | none =>
      rw [step_of_not_activates hact]
      refine h.serves.of_keeps rfl rfl fun k r hr ha _ => ?_
      cases hres : (Op.review c).result d.store with
      | error e => rwa [hraise hres]
      | ok s' =>
        rw [hreturn hres]
        exact review_keeps h.approved hres hact hr ha
    | some k =>
      obtain ⟨q, s', hq, hres, hrules⟩ := activates_rules hact
      have hstep : Hitl.step d.store (.review c) = s' := hreturn hres
      have hrow : (Hitl.step d.store (.review c)).rules.get? k = some q.activated := by
        rw [hstep, hrules]
        exact get?_activate_self hq
      rw [step_of_activates hact hrow]
      split
      · rename_i hpub
        refine h.serves.publish h.star rfl rfl hpub hrow rfl fun j r hr _ hid => ?_
        rw [hstep, hrules]
        exact activate_keeps hq hr hid
      · rename_i hpub
        obtain ⟨i, review, q', hget, hst, hlink, hq', hothers⟩ := activates_some hact
        obtain rfl : q = q' := Option.some.inj (hq.symm.trans hq')
        have hserved := (hop.activates c rfl (activates_verdict hact) i review k q hget hst hlink hq
          hothers).resolve_left hpub
        refine h.serves.of_keeps rfl rfl fun j r hr _ hr' => ?_
        rw [hstep, hrules]
        exact activate_keeps hq hr (hr'.ne_of_not hserved)
  · have hc' : ∀ c, op ≠ .review c := fun c h => hc ⟨c, h⟩
    rw [step_of_pipeline hc']
    refine h.serves.of_keeps rfl rfl fun k r hr ha hserved => ?_
    cases hres : op.result d.store with
    | error e => rwa [hraise hres]
    | ok s' =>
      rw [hreturn hres]
      exact pipeline_keeps hc' hres hr fun hover => hop.overwrites k r hr ha hover hserved

theorem Synced.step {op : Op} (h : Synced d) (hop : KeepsServed d op) : Synced (d.step P op) where
  approved := by
    rw [step_store]
    exact h.approved.step
  star key hkey := by
    unfold Deployment.step
    dsimp only
    split
    · split
      · refine publish_star ?_ _ _ _ key hkey
        exact h.star
      · exact h.star key hkey
    · exact h.star key hkey
    · exact h.star key hkey
  serves := ServesActive.step h hop

theorem Synced.run : ∀ {ops : List Op} {d : Deployment T}, Synced d → RunKeepsServed P d ops →
    ∀ n, Synced (d.run P (ops.take n))
  | [], _, h, _, _ => by simpa [Deployment.run] using h
  | op :: ops, _, h, hrun, n => by
    cases n with
    | zero => simpa [Deployment.run] using h
    | succ n => simpa [Deployment.run] using Synced.run (h.step hrun.1) hrun.2 n

end

theorem synced_undeployed (T : Type) {s : Store} (hs : NoneActive s) : Synced (undeployed T s) where
  approved := hs.activeApproved
  star _ _ := rfl
  serves :=
    { opa := fun _ _ h => by cases h
      registry := fun _ _ h => by cases h }

/-- **OPA and the registry hold active rules only**, after each operation of a run that overwrites no
served rule and in which a rule that takes the place of a served one can be published. -/
theorem serves_active_run (T : Type) (P : PolicyPublisher) (s : Store) (hs : NoneActive s)
    (ops : List Op) (h : RunKeepsServed P (undeployed T s) ops) (n : Nat) :
    ServesActive ((undeployed T s).run P (ops.take n)) :=
  ((synced_undeployed T hs).run h n).serves

/-- A clause is compiled and its rule signed off. -/
def signedOff : List Op :=
  [.compileAndPersistRules 1 "aa:1" "sebi_baseline" (sampleCompilation []) ["v1"],
    .review (sampleCall .approve "v1")]

theorem serves_active_signedOff :
    ServesActive ((undeployed Int sampleClauses).run ⟨true, true⟩ signedOff) ∧
      ((undeployed Int sampleClauses).run ⟨true, true⟩ signedOff).opa "aa:1" =
        some "package sebi.broking.clause" := by
  have hrun : RunKeepsServed ⟨true, true⟩ (undeployed Int sampleClauses) signedOff := by
    refine ⟨⟨fun k r hr => ?_, fun c hc => by simp at hc⟩, ⟨fun k r _ _ ho => ho.elim, ?_⟩, trivial⟩
    · simp [undeployed, sampleClauses] at hr
    · intro c hc _ k review rule r hget _ hlink hrule _
      obtain rfl : sampleCall .approve "v1" = c := Op.review.inj hc
      obtain ⟨rfl, rfl⟩ := Prod.mk.inj (Except.ok.inj hget)
      obtain rfl := Option.some.inj hlink
      obtain rfl := Option.some.inj hrule
      exact .inl (by decide)
  exact ⟨serves_active_run Int ⟨true, true⟩ sampleClauses noneActive_sampleClauses signedOff hrun 2,
    by decide⟩

/-- **A rule that is compiled again** is switched off and not revoked. -/
theorem recompiled_still_served :
    ¬ ServesActive ((undeployed Int sampleClauses).run ⟨true, true⟩ (signedOff ++
      [.compileAndPersistRules 1 "aa:1" "sebi_baseline" (sampleCompilation []) ["v2"]])) := by
  intro h
  have hoff : ∀ x ∈ ((undeployed Int sampleClauses).run ⟨true, true⟩ (signedOff ++
      [.compileAndPersistRules 1 "aa:1" "sebi_baseline" (sampleCompilation []) ["v2"]])).store.rules.rows,
      x.2.isActive = false := by decide
  obtain ⟨k, r, hr, ha, -⟩ := h.opa "aa:1" "package sebi.broking.clause" (by decide)
  have hr' : r.isActive = false := hoff (k, r) (Table.get?_eq_some_iff.1 hr)
  rw [hr'] at ha
  cases ha

end RegEngine.Hitl
