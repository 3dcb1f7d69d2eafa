import RegEngine.Hitl.Proof.Revision

/-!
# What an operation leaves alone

Every operation on the store touches at most one rule. `Frame s s' k`: every rule of `s'` but `k` is
one of `s`, possibly switched off, and the reviews linked to rules other than `k` are those of `s`.

* `review_frame`: a call of the review service touches the rule of its review, and leaves it inactive
  unless it passes the gate, which leaves no other rule of that `rule_id` active.
* `persistFailedClauseRule_frame`, `compileAndPersistRules_frame`: a pipeline operation touches the
  rule it writes, and leaves it inactive.
-/

namespace RegEngine.Hitl

open Lib Lib.Calendar

/-- Only rule `k` and its reviews are touched; other rules may be switched off. -/
structure Frame (s s' : Store) (k : Option Nat) : Prop where
  rule : ∀ j r', some j ≠ k → s'.rules.get? j = some r' →
    ∃ r, s.rules.get? j = some r ∧ (r' = r ∨ r' = { r with isActive := false })
  review : ∀ i v j, v.compiledRuleId = some j → some j ≠ k → s'.reviews.get? i = some v →
    s.reviews.get? i = some v

section
variable {s s' s'' : Store} {k : Option Nat}

theorem Frame.trans (h : Frame s s' k) (h' : Frame s' s'' k) : Frame s s'' k where
  rule j r'' hj hr'' := by
    obtain ⟨r', hr', hor'⟩ := h'.rule j r'' hj hr''
    obtain ⟨r, hr, hor⟩ := h.rule j r' hj hr'
    refine ⟨r, hr, ?_⟩
    rcases hor with rfl | rfl
    · exact hor'
    · rcases hor' with rfl | rfl
      · exact .inr rfl
      · exact .inr rfl
  review i v j hv hj hi := h.review i v j hv hj (h'.review i v j hv hj hi)

/-- A change of rule `j` alone. -/
theorem frame_update (s : Store) (j : Nat) (f : CompiledRule → CompiledRule) :
    Frame s { s with rules := s.rules.update j f } (some j) where
  rule i r' hi hr' := by
    rw [Table.get?_update, if_neg fun h => hi (congrArg some h)] at hr'
    exact ⟨r', hr', .inl rfl⟩
  review _ _ _ _ _ hi := hi

theorem inactive_update {s : Store} {j : Nat} {f : CompiledRule → CompiledRule}
    (hf : ∀ r, (f r).isActive = false) :
    Inactive { s with rules := s.rules.update j f } j := by
  intro r' hr'
  simp only [Table.get?_update, if_true, Option.map_eq_some_iff] at hr'
  obtain ⟨r, -, rfl⟩ := hr'
  exact hf r

/-! ## Inserting -/

theorem insertRule_ok {rule : CompiledRule} {j : Nat} (h : insertRule s rule = .ok (j, s')) :
    j = s.rules.next ∧ s' = { s with rules := s.rules.insert rule } := by
  unfold insertRule at h
  split at h
  · cases h
  · obtain ⟨rfl, rfl⟩ := Prod.mk.inj (Except.ok.inj h)
    exact ⟨rfl, rfl⟩

theorem frame_insert (s : Store) (rule : CompiledRule) :
    Frame s { s with rules := s.rules.insert rule } (some s.rules.next) where
  rule i r' hi hr' := by
    rw [Table.get?_insert, if_neg fun h => hi (congrArg some h)] at hr'
    exact ⟨r', hr', .inl rfl⟩
  review _ _ _ _ _ hi := hi

theorem inactive_insert {s : Store} {rule : CompiledRule} (hoff : rule.isActive = false) :
    Inactive { s with rules := s.rules.insert rule } s.rules.next := by
  intro r' hr'
  simp only [Table.get?_insert, if_true] at hr'
  rw [← Option.some.inj hr', hoff]

/-- Only the reviews of rule `k` change: new ones are pending, old ones keep all but their text. -/
structure AddsReviews (s s' : Store) (k : Nat) : Prop where
  rules : s'.rules = s.rules
  review : ∀ i v', s'.reviews.get? i = some v' → s.reviews.get? i = some v' ∨
    v'.compiledRuleId = some k ∧ (v'.status = .pending ∨
      ∃ v text, s.reviews.get? i = some v ∧ v' = { v with description := text })

theorem AddsReviews.refl (s : Store) (k : Nat) : AddsReviews s s k where
  rules := rfl
  review _ _ h := .inl h

theorem AddsReviews.trans {k : Nat} (h : AddsReviews s s' k) (h' : AddsReviews s' s'' k) :
    AddsReviews s s'' k where
  rules := h'.rules.trans h.rules
  review i v'' hv'' := by
    rcases h'.review i v'' hv'' with hv' | ⟨hlink, hst | ⟨v', text, hv', rfl⟩⟩
    · exact h.review i v'' hv'
    · exact .inr ⟨hlink, .inl hst⟩
    · rcases h.review i v' hv' with hv | ⟨-, hst | ⟨v, text', hv, rfl⟩⟩
      · exact .inr ⟨hlink, .inr ⟨v', text, hv, rfl⟩⟩
      · exact .inr ⟨hlink, .inl hst⟩
      · exact .inr ⟨hlink, .inr ⟨v, text, hv, rfl⟩⟩

theorem AddsReviews.frame {k : Nat} (h : AddsReviews s s' k) : Frame s s' (some k) where
  rule j r' _ hr' := ⟨r', h.rules ▸ hr', .inl rfl⟩
  review i v j hv hj hi := by
    rcases h.review i v hi with h | ⟨hlink, -⟩
    · exact h
    · exact absurd (hv.symm.trans hlink) hj

theorem insertReview_adds {review : HITLReview} {k : Nat} (h : insertReview s review = .ok s')
    (hlink : review.compiledRuleId = some k) (hst : review.status = .pending) :
    AddsReviews s s' k := by
  unfold insertReview at h
  split at h
  · cases h
  · split at h
    · cases h
    · obtain rfl := Except.ok.inj h
      refine ⟨rfl, fun i v' hv' => ?_⟩
      rw [Table.get?_insert] at hv'
      split at hv'
      · obtain rfl := Option.some.inj hv'
        exact .inr ⟨hlink, .inl hst⟩
      · exact .inl hv'

theorem flagReviews_adds {clauseId k : Nat} {tenantId : String} :
    ∀ {flags : List HITLFlag} {uuids : List String} {s : Store} {reasons : List ReasonCode},
      flagReviews clauseId k tenantId flags uuids s reasons = .ok s' → AddsReviews s s' k
  | [], _, s, _, h => by
    obtain rfl := Except.ok.inj h
    exact .refl s k
  | flag :: flags, uuids, s, reasons, h => by
    rw [flagReviews] at h
    split at h
    · exact flagReviews_adds h
    · obtain ⟨t, ht, h⟩ := Lib.Except.bind_ok_iff.1 h
      exact (insertReview_adds ht rfl rfl).trans (flagReviews_adds h)

theorem addReviews_adds {clauseId k : Nat} {clause : Clause} {ruleId tenantId : String}
    {compilation : CompilationResult} {uuids : List String}
    (h : addReviews s clauseId k clause ruleId tenantId compilation uuids = .ok s') :
    AddsReviews s s' k := by
  unfold addReviews at h
  dsimp only at h
  split at h
  · exact flagReviews_adds h
  · split at h
    · exact insertReview_adds h rfl rfl
    · obtain rfl := Except.ok.inj h
      exact .refl s k

/-! ## `_persist_failed_clause_rule` -/

theorem existingRule_ok {ruleId : String} {clauseId j : Nat}
    (h : existingRule s ruleId clauseId = .ok (some j)) :
    ∃ r, s.rules.get? j = some r ∧ r.ruleId = ruleId ∧ r.clauseId = clauseId := by
  unfold existingRule at h
  split at h
  · cases h
  · rename_i r hr
    obtain rfl := Option.some.inj (Except.ok.inj h)
    obtain ⟨hget, hid⟩ := Table.get?_of_select_eq hr
    exact ⟨r.2, hget, by simpa using hid⟩
  · cases h

/-- A placeholder row: the rule that is found is switched off, a new one has neither text nor
digest. -/
theorem failedRule_ok {clauseId : Nat} {clause : Clause} {chunkId tenantId : String} {j : Nat}
    (h : failedRule s clauseId clause chunkId tenantId = .ok (j, s')) :
    (s' = { s with rules := s.rules.update j fun r =>
        { r with isActive := false, isCompiled := false, hitlStatus := .blocking } } ∧
      ∃ r, s.rules.get? j = some r ∧ r.ruleId = failedRuleId clauseId clause chunkId ∧
        r.clauseId = clauseId) ∨
    ∃ rule : CompiledRule, j = s.rules.next ∧ s' = { s with rules := s.rules.insert rule } ∧
      rule.isActive = false ∧ rule.regoPolicy = none ∧ rule.policySha256 = none := by
  obtain ⟨found, hfound, h⟩ := Lib.Except.bind_ok_iff.1 h
  split at h
  · obtain ⟨rfl, rfl⟩ := Prod.mk.inj (Except.ok.inj h)
    exact .inl ⟨rfl, existingRule_ok hfound⟩
  · obtain ⟨hj, hs'⟩ := insertRule_ok h
    exact .inr ⟨_, hj, hs', rfl, rfl, rfl⟩

theorem failedRule_frame {clauseId : Nat} {clause : Clause} {chunkId tenantId : String} {j : Nat}
    (h : failedRule s clauseId clause chunkId tenantId = .ok (j, s')) :
    Frame s s' (some j) ∧ Inactive s' j := by
  rcases failedRule_ok h with ⟨rfl, -⟩ | ⟨rule, rfl, rfl, hoff, -⟩
  · exact ⟨frame_update s j _, inactive_update fun _ => rfl⟩
  · exact ⟨frame_insert s rule, inactive_insert hoff⟩

/-- The rule row is written, then its review is added or gets a new text. -/
theorem persistFailedClauseRule_ok {clauseId : Nat} {clause : Clause} {chunkId tenantId uuid : String}
    {error : Option String} {j : Nat}
    (h : persistFailedClauseRule s clauseId clause chunkId error tenantId uuid = .ok (j, s')) :
    ∃ t, failedRule s clauseId clause chunkId tenantId = .ok (j, t) ∧ AddsReviews t s' j := by
  obtain ⟨⟨i, t⟩, hrule, h⟩ := Lib.Except.bind_ok_iff.1 h
  dsimp only at h
  split at h
  · obtain ⟨t', ht', h⟩ := Lib.Except.bind_ok_iff.1 h
    obtain ⟨rfl, rfl⟩ := Prod.mk.inj (Except.ok.inj h)
    exact ⟨t, hrule, insertReview_adds ht' rfl rfl⟩
  · rename_i v hv
    obtain ⟨rfl, rfl⟩ := Prod.mk.inj (Except.ok.inj h)
    obtain ⟨hget, hlink⟩ := Table.get?_of_select_eq hv
    simp only [decide_eq_true_eq] at hlink
    refine ⟨t, hrule, rfl, fun n v' hv' => ?_⟩
    rw [Table.get?_update] at hv'
    split at hv'
    · rename_i hn
      rw [hn, hget, Option.map_some, Option.some.injEq] at hv'
      subst hv'
      exact .inr ⟨hlink.2.1, .inr ⟨v.2, _, hn ▸ hget, rfl⟩⟩
    · exact .inl hv'
  · cases h

theorem Inactive.of_adds {j : Nat} (h : Inactive s j) (ha : AddsReviews s s' j) : Inactive s' j :=
  fun r hr => h r (ha.rules ▸ hr)

theorem persistFailedClauseRule_frame {clauseId : Nat} {clause : Clause}
    {chunkId tenantId uuid : String} {error : Option String} {j : Nat}
    (h : persistFailedClauseRule s clauseId clause chunkId error tenantId uuid = .ok (j, s')) :
    Frame s s' (some j) ∧ Inactive s' j := by
  obtain ⟨t, hrule, hadds⟩ := persistFailedClauseRule_ok h
  obtain ⟨hframe, hoff⟩ := failedRule_frame hrule
  exact ⟨hframe.trans hadds.frame, hoff.of_adds hadds⟩

/-! ## `compile_and_persist_rules` -/

theorem get?_deleteFailedRules {clauseId j : Nat} {r : CompiledRule}
    (h : (deleteFailedRules s clauseId).rules.get? j = some r) :
    s.rules.get? j = some r ∧ (r.clauseId = clauseId → isFailedRuleId r.ruleId = false) := by
  simp only [deleteFailedRules, Table.get?_delete, Option.filter_eq_some_iff] at h
  exact ⟨h.1, fun hclause => by simpa [hclause] using h.2⟩

theorem get?_deleteFailedRules_keeps {clauseId j : Nat} {r : CompiledRule}
    (h : s.rules.get? j = some r) (hkeep : r.clauseId = clauseId → isFailedRuleId r.ruleId = false) :
    (deleteFailedRules s clauseId).rules.get? j = some r := by
  simp only [deleteFailedRules, Table.get?_delete, h, Option.filter_some]
  rw [if_pos]
  by_cases hclause : r.clauseId = clauseId
  · simp [hkeep hclause]
  · simp [hclause]

/-- Deleting the placeholders of a clause touches no rule that stays and no link that stays. -/
theorem frame_deleteFailedRules (s : Store) (clauseId : Nat) (k : Option Nat) :
    Frame s (deleteFailedRules s clauseId) k where
  rule _ r' _ hr' := ⟨r', (get?_deleteFailedRules hr').1, .inl rfl⟩
  review i v j hv _ hi := by
    simp only [deleteFailedRules, Table.get?_modify, Option.map_eq_some_iff] at hi
    obtain ⟨w, hw, hwv⟩ := hi
    split at hwv
    · rw [← hwv] at hv
      cases hv
    · rwa [← hwv]

/-- What is written into the row of a compiled rule. -/
structure Writes (compilation : CompilationResult) (r : CompiledRule) : Prop where
  off : r.isActive = false
  rego : r.regoPolicy = compilation.rego.map (·.regoCode)
  sha : r.policySha256 = regoSha256 compilation

/-- The row of a compiled rule: an old one is overwritten in place, with its version, or a new one
is inserted. -/
theorem compiledRule_ok {clauseId : Nat} {ruleId tenantId : String}
    {compilation : CompilationResult} {j : Nat}
    (h : compiledRule s clauseId ruleId tenantId compilation = .ok (j, s')) :
    (∃ f, s' = { s with rules := s.rules.update j f } ∧
      (∀ r, Writes compilation (f r) ∧ (f r).ruleVersion = r.ruleVersion) ∧
      ∃ r, s.rules.get? j = some r ∧ r.ruleId = ruleId ∧ r.clauseId = clauseId) ∨
    ∃ rule, j = s.rules.next ∧ s' = { s with rules := s.rules.insert rule } ∧
      Writes compilation rule := by
  obtain ⟨found, hfound, h⟩ := Lib.Except.bind_ok_iff.1 h
  split at h
  · obtain ⟨rfl, rfl⟩ := Prod.mk.inj (Except.ok.inj h)
    exact .inl ⟨_, rfl, fun r => ⟨⟨rfl, rfl, rfl⟩, rfl⟩, existingRule_ok hfound⟩
  · obtain ⟨hj, hs'⟩ := insertRule_ok h
    exact .inr ⟨_, hj, hs', rfl, rfl, rfl⟩

theorem compiledRule_reviews {clauseId : Nat} {ruleId tenantId : String}
    {compilation : CompilationResult} {j : Nat}
    (h : compiledRule s clauseId ruleId tenantId compilation = .ok (j, s')) :
    s'.reviews = s.reviews := by
  rcases compiledRule_ok h with ⟨f, rfl, -⟩ | ⟨rule, -, rfl, -⟩
  · rfl
  · rfl

theorem compiledRule_frame {clauseId : Nat} {ruleId tenantId : String}
    {compilation : CompilationResult} {j : Nat}
    (h : compiledRule s clauseId ruleId tenantId compilation = .ok (j, s')) :
    Frame s s' (some j) ∧ Inactive s' j := by
  rcases compiledRule_ok h with ⟨f, rfl, hf, -⟩ | ⟨rule, rfl, rfl, hw⟩
  · exact ⟨frame_update s j f, inactive_update fun r => (hf r).1.off⟩
  · exact ⟨frame_insert s rule, inactive_insert hw.off⟩

/-- The placeholders go, the rule row is written, its reviews are added, its status is set. -/
theorem compileAndPersistRules_ok {clauseId : Nat} {clause : Clause} {ruleId tenantId : String}
    {compilation : CompilationResult} {uuids : List String} {j : Nat}
    (h : compileAndPersistRules s clauseId clause ruleId tenantId compilation uuids = .ok (j, s')) :
    ∃ t u status,
      compiledRule (deleteFailedRules s clauseId) clauseId ruleId tenantId compilation =
        .ok (j, t) ∧
      AddsReviews t u j ∧
      s' = { u with rules := u.rules.update j fun r => { r with hitlStatus := status } } := by
  obtain ⟨⟨i, t⟩, hrule, h⟩ := Lib.Except.bind_ok_iff.1 h
  obtain ⟨u, hreviews, h⟩ := Lib.Except.bind_ok_iff.1 h
  obtain ⟨rfl, rfl⟩ := Prod.mk.inj (Except.ok.inj h)
  exact ⟨t, u, _, hrule, addReviews_adds hreviews, rfl⟩

theorem compileAndPersistRules_frame {clauseId : Nat} {clause : Clause} {ruleId tenantId : String}
    {compilation : CompilationResult} {uuids : List String} {j : Nat}
    (h : compileAndPersistRules s clauseId clause ruleId tenantId compilation uuids = .ok (j, s')) :
    Frame s s' (some j) ∧ Inactive s' j := by
  obtain ⟨t, u, status, hrule, hadds, rfl⟩ := compileAndPersistRules_ok h
  obtain ⟨hframe, hoff⟩ := compiledRule_frame hrule
  refine ⟨(((frame_deleteFailedRules s clauseId _).trans hframe).trans hadds.frame).trans
    (frame_update u j _), fun r' hr' => ?_⟩
  simp only [Table.get?_update, if_true, Option.map_eq_some_iff] at hr'
  obtain ⟨r, hr, rfl⟩ := hr'
  exact hoff.of_adds hadds r hr

end

/-- **A pipeline operation touches the rule it writes, and leaves it inactive.** -/
theorem pipeline_frame {s s' : Store} {op : Op} (hop : ∀ c, op ≠ .review c)
    (h : op.result s = .ok s') : ∃ j, Frame s s' (some j) ∧ Inactive s' j := by
  cases op with
  | review c => exact absurd rfl (hop c)
  | compileAndPersistRules clauseId ruleId tenantId compilation uuids =>
    simp only [Op.result] at h
    split at h
    · obtain ⟨⟨j, t⟩, ht, rfl⟩ := Lib.Except.map_ok_iff.1 h
      exact ⟨j, compileAndPersistRules_frame ht⟩
    · cases h
  | persistFailedClauseRule clauseId chunkId error tenantId uuid =>
    simp only [Op.result] at h
    split at h
    · obtain ⟨⟨j, t⟩, ht, rfl⟩ := Lib.Except.map_ok_iff.1 h
      exact ⟨j, persistFailedClauseRule_frame ht⟩
    · cases h

/-! ## The review service -/

section
variable {s s' : Store} {k : Nat} {review closed : HITLReview}

/-- A review that is linked to another rule than the closed one is an old one. -/
theorem Closes.review_of_ne (hcl : Closes s s' k review closed) {i j : Nat} {v : HITLReview}
    (hv : v.compiledRuleId = some j) (hj : some j ≠ review.compiledRuleId)
    (hi : s'.reviews.get? i = some v) : s.reviews.get? i = some v := by
  rw [hcl.reviews, Table.get?_update] at hi
  split at hi
  · obtain ⟨w, -, rfl⟩ := Option.map_eq_some_iff.1 hi
    rcases hcl.link with hlink | hlink
    · exact absurd (hv.symm.trans hlink) hj
    · exact absurd (hv.symm.trans hlink) (by simp)
  · exact hi

theorem Closes.frame (hcl : Closes s s' k review closed)
    (h : ∀ j r', some j ≠ review.compiledRuleId → s'.rules.get? j = some r' →
      ∃ r, s.rules.get? j = some r ∧ (r' = r ∨ r' = { r with isActive := false })) :
    Frame s s' review.compiledRuleId where
  rule := h
  review _ _ _ hv hj hi := hcl.review_of_ne hv hj hi

/-- The rule of a review is the only one a change of it touches. -/
theorem get?_updateRuleOf_ne {f : CompiledRule → CompiledRule} {j : Nat} {r' : CompiledRule}
    (hj : some j ≠ review.compiledRuleId) (h : (updateRuleOf s review f).get? j = some r') :
    s.rules.get? j = some r' := by
  unfold updateRuleOf at h
  split at h
  · rename_i ruleKey hlink
    rw [hlink] at hj
    rwa [Table.get?_update, if_neg fun h => hj (congrArg some h)] at h
  · exact h

theorem get?_activate_ne {rules : Table CompiledRule} {i j : Nat} {rule r' : CompiledRule}
    (hj : j ≠ i) (h : (activate rules i rule).get? j = some r') :
    ∃ r, rules.get? j = some r ∧ (r' = r ∨ r' = { r with isActive := false }) ∧
      (r'.ruleId = rule.ruleId → r'.isActive = false) := by
  rw [activate, Table.get?_modify] at h
  obtain ⟨r, hr, rfl⟩ := Option.map_eq_some_iff.1 h
  refine ⟨r, hr, ?_⟩
  rw [if_neg hj]
  split
  · exact ⟨.inr rfl, fun _ => rfl⟩
  · rename_i hid
    exact ⟨.inl rfl, fun h => absurd h hid⟩

/-- Rule `j` went through the gate: all its reviews are resolved, and it is the only active rule of
its `rule_id`. -/
structure Passed (s : Store) (j : Nat) : Prop where
  resolved : ∀ x ∈ s.reviewsOf j, x.2.status = .resolved
  only : ∀ i r q, i ≠ j → s.rules.get? i = some r → s.rules.get? j = some q →
    r.ruleId = q.ruleId → r.isActive = false

/-- An approval passes the gate with all reviews of the rule resolved, or switches the rule off. -/
theorem approveLinked_cases (s : Store) (k : Nat) (review : HITLReview) (j : Nat)
    (rule : CompiledRule) (officer : String) (notes : Option String) (now : DateTime) :
    let a := approveLinked s k review j rule officer notes now
    (a.store.rules = activate s.rules j rule ∧ ∀ x ∈ a.store.reviewsOf j, x.2.status = .resolved) ∨
    ∃ status, a.store.rules = s.rules.update j fun r =>
      { r with isActive := false, hitlStatus := status, policySha256 := policyHash rule } := by
  simp only [approveLinked, settleCircular_rules]
  split
  · rename_i hgate
    refine .inl ⟨rfl, fun x hx => ?_⟩
    refine (evaluateRuleHitlGate_iff _).1 hgate x.2 (List.mem_map.2 ⟨x, ?_, rfl⟩)
    rw [mem_reviewsOf] at hx ⊢
    simpa using hx
  · exact .inr ⟨_, rfl⟩

theorem passed_of_activate {j : Nat} {rule : CompiledRule} (hrule : s.rules.get? j = some rule)
    (hrules : s'.rules = activate s.rules j rule)
    (hresolved : ∀ x ∈ s'.reviewsOf j, x.2.status = .resolved) : Passed s' j where
  resolved := hresolved
  only i r q hi hr hq hid := by
    rw [hrules] at hr hq
    obtain ⟨-, -, -, hoff⟩ := get?_activate_ne hi hr
    have hqid : q.ruleId = rule.ruleId := by
      rw [activate, Table.get?_modify, hrule, Option.map_some, if_pos rfl, Option.some.injEq] at hq
      rw [← hq]
    exact hoff (hid.trans hqid)

/-- A call that switches the rule of its review off. -/
theorem Closes.frame_off (hcl : Closes s s' k review closed) {f : CompiledRule → CompiledRule}
    (hf : ∀ r, (f r).isActive = false) (hrules : s'.rules = updateRuleOf s review f) :
    Frame s s' review.compiledRuleId ∧
      ∀ j, review.compiledRuleId = some j → Inactive s' j ∨ Passed s' j := by
  refine ⟨hcl.frame fun j r' hj hr' => ?_, fun j hj => .inl fun r' hr' => ?_⟩
  · rw [hrules] at hr'
    exact ⟨r', get?_updateRuleOf_ne hj hr', .inl rfl⟩
  · rw [hrules, updateRuleOf, hj, Table.get?_update, if_pos rfl] at hr'
    obtain ⟨r, -, rfl⟩ := Option.map_eq_some_iff.1 hr'
    exact hf r

/-- **A call touches the rule of its review**, and leaves it inactive or through the gate. -/
theorem review_frame {c : ReviewCall} (h : c.result s = .ok s') :
    ∃ link, Frame s s' link ∧ ∀ j, link = some j → Inactive s' j ∨ Passed s' j := by
  obtain ⟨k, review, closed, hget, hcl⟩ := result_closes h
  refine ⟨review.compiledRuleId, ?_⟩
  unfold ReviewCall.result at h
  split at h
  · obtain ⟨a, ha, rfl⟩ := Lib.Except.map_ok_iff.1 h
    obtain ⟨k', review', hget', -, ⟨ruleKey, rule, hlink, hrule, rfl⟩ | ⟨hlink, rfl⟩⟩ :=
      approveReview_ok ha
    · obtain ⟨rfl, rfl⟩ := Prod.mk.inj (Except.ok.inj (hget.symm.trans hget'))
      rcases approveLinked_cases s k review ruleKey rule c.officer c.notes c.now with
        ⟨hrules, hresolved⟩ | ⟨status, hrules⟩
      · refine ⟨hcl.frame fun j r' hj hr' => ?_, fun j hj => .inr ?_⟩
        · rw [hlink] at hj
          obtain ⟨r, hr, hor, -⟩ := get?_activate_ne (fun h => hj (congrArg some h)) (hrules ▸ hr')
          exact ⟨r, hr, hor⟩
        · obtain rfl := Option.some.inj (hlink.symm.trans hj)
          exact passed_of_activate hrule hrules hresolved
      · refine hcl.frame_off ?_ (hrules.trans (by rw [updateRuleOf, hlink]))
        exact fun _ => rfl
    · obtain ⟨rfl, rfl⟩ := Prod.mk.inj (Except.ok.inj (hget.symm.trans hget'))
      refine hcl.frame_off (f := fun r => { r with isActive := false }) (fun _ => rfl) ?_
      simp only [approveUnlinked, settleCircular_rules, updateRuleOf, hlink]
  · obtain ⟨k', review', hget', -, rfl⟩ := rejectReview_ok h
    obtain ⟨rfl, rfl⟩ := Prod.mk.inj (Except.ok.inj (hget.symm.trans hget'))
    refine hcl.frame_off ?_ (failCircular_rules _ _ _)
    exact fun _ => rfl
  · obtain ⟨k', review', hget', -, rfl⟩ := requestRevision_ok h
    obtain ⟨rfl, rfl⟩ := Prod.mk.inj (Except.ok.inj (hget.symm.trans hget'))
    refine hcl.frame_off ?_ rfl
    exact fun _ => rfl

/-- **Every operation touches at most one rule**, and leaves it inactive or through the gate. -/
theorem op_frame {op : Op} (h : op.result s = .ok s') :
    ∃ link, Frame s s' link ∧ ∀ j, link = some j → Inactive s' j ∨ Passed s' j := by
  by_cases hc : ∃ c, op = .review c
  · obtain ⟨c, rfl⟩ := hc
    exact review_frame h
  · obtain ⟨j, hframe, hoff⟩ := pipeline_frame (fun c h => hc ⟨c, h⟩) h
    refine ⟨some j, hframe, fun i hi => .inl ?_⟩
    obtain rfl := Option.some.inj hi
    exact hoff

end

end RegEngine.Hitl
