import RegEngine.Hitl.Proof.Frame
import RegEngine.Hitl.Proof.Stages

/-!
# Clauses that are written one by one

A store is `Tidy` when no two of its rules have one `rule_id` and clause, the reviews of a rule have
its clause and different reasons, and an audit that was not approved is blocking. `Touches s s' k`
says what the operations on clause `k` may change: `s'` is tidy and the rows of other clauses stay.

* `persistFailedClauseRule_touches`, `compileAndPersistRules_touches`: on a tidy store whose names are
  free, the two pipeline operations return, and only touch their clause.
-/

namespace RegEngine.Hitl

open Lib

/-- The reviews of a rule have its clause. -/
def Links (s : Store) : Prop :=
  ∀ i v j, s.reviews.get? i = some v → v.compiledRuleId = some j →
    ∃ r, s.rules.get? j = some r ∧ r.clauseId = v.clauseId

structure Tidy (s : Store) : Prop where
  rules : ∀ i j q r, s.rules.get? i = some q → s.rules.get? j = some r → q.ruleId = r.ruleId →
    q.clauseId = r.clauseId → i = j
  links : Links s
  reasons : ∀ i i' v v' j, s.reviews.get? i = some v → s.reviews.get? i' = some v' →
    v.compiledRuleId = some j → v'.compiledRuleId = some j → v.reasonCode = v'.reasonCode → i = i'
  audits : ∀ i v, s.reviews.get? i = some v → v.reasonCode = .auditNotApproved →
    v.severity = .blocking

theorem Links.congr {s s' : Store} (hrules : s'.rules = s.rules) (hreviews : s'.reviews = s.reviews)
    (hs : Links s) : Links s' := by
  intro i v j hv hlink
  rw [hreviews] at hv
  rw [hrules]
  exact hs i v j hv hlink

theorem Tidy.congr {s s' : Store} (hrules : s'.rules = s.rules) (hreviews : s'.reviews = s.reviews)
    (hs : Tidy s) : Tidy s' :=
  ⟨hrules ▸ hs.rules, hs.links.congr hrules hreviews, hreviews ▸ hs.reasons, hreviews ▸ hs.audits⟩

theorem links_of_none {s : Store} (hreviews : s.reviews = Table.empty) : Links s := by
  intro i v j hv
  rw [hreviews] at hv
  simp at hv

theorem tidy_of_none {s : Store} (hrules : s.rules = Table.empty)
    (hreviews : s.reviews = Table.empty) : Tidy s := by
  refine ⟨?_, links_of_none hreviews, ?_, ?_⟩
  · rw [hrules]
    intro i j q r hq
    simp at hq
  · rw [hreviews]
    intro i i' v v' j hv
    simp at hv
  · rw [hreviews]
    intro i v hv
    simp at hv

/-- The columns of the unique constraint, and the clause. -/
structure CompiledRule.SameKey (q r : CompiledRule) : Prop where
  ruleId : q.ruleId = r.ruleId
  tenantId : q.tenantId = r.tenantId
  ruleVersion : q.ruleVersion = r.ruleVersion
  clauseId : q.clauseId = r.clauseId

theorem CompiledRule.SameKey.refl (r : CompiledRule) : r.SameKey r := ⟨rfl, rfl, rfl, rfl⟩

theorem CompiledRule.SameKey.trans {p q r : CompiledRule} (h : p.SameKey q) (h' : q.SameKey r) :
    p.SameKey r :=
  ⟨h.1.trans h'.1, h.2.trans h'.2, h.3.trans h'.3, h.4.trans h'.4⟩

/-- What the operations on clause `k` may change, with a rule of this id and with drawn review ids. -/
structure Touches (s s' : Store) (k : Nat) (ruleId : String) (drawn : String → Prop) : Prop where
  tidy : Tidy s'
  clauses : ∀ j, (s'.clauses.get? j).map Clause.identity = (s.clauses.get? j).map Clause.identity
  rows : ∀ j r', s'.rules.get? j = some r' →
    (∃ r, s.rules.get? j = some r ∧ r'.SameKey r) ∨ r'.ruleId = ruleId ∧ r'.clauseId = k
  keepsRule : ∀ j r, s.rules.get? j = some r → r.clauseId ≠ k → s'.rules.get? j = some r
  ids : ∀ i v', s'.reviews.get? i = some v' →
    (∃ v, s.reviews.get? i = some v ∧ v'.reviewId = v.reviewId) ∨ drawn v'.reviewId
  keepsReview : ∀ i v, s.reviews.get? i = some v → v.clauseId ≠ k → s'.reviews.get? i = some v

section
variable {s s' s'' : Store} {k : Nat} {ruleId : String} {drawn : String → Prop}

theorem Touches.refl (h : Tidy s) : Touches s s k ruleId drawn where
  tidy := h
  clauses _ := rfl
  rows _ r' hr' := .inl ⟨r', hr', .refl r'⟩
  keepsRule _ _ hr _ := hr
  ids _ v' hv' := .inl ⟨v', hv', rfl⟩
  keepsReview _ _ hv _ := hv

theorem Touches.trans (h : Touches s s' k ruleId drawn) (h' : Touches s' s'' k ruleId drawn) :
    Touches s s'' k ruleId drawn where
  tidy := h'.tidy
  clauses j := (h'.clauses j).trans (h.clauses j)
  rows j r'' hr'' := by
    rcases h'.rows j r'' hr'' with ⟨r', hr', hkey'⟩ | hnew
    · rcases h.rows j r' hr' with ⟨r, hr, hkey⟩ | ⟨hid, hclause⟩
      · exact .inl ⟨r, hr, hkey'.trans hkey⟩
      · exact .inr ⟨hkey'.ruleId.trans hid, hkey'.clauseId.trans hclause⟩
    · exact .inr hnew
  keepsRule j r hr hk := h'.keepsRule j r (h.keepsRule j r hr hk) hk
  ids i v'' hv'' := by
    rcases h'.ids i v'' hv'' with ⟨v', hv', hid'⟩ | hnew
    · rcases h.ids i v' hv' with ⟨v, hv, hid⟩ | hdrawn
      · exact .inl ⟨v, hv, hid'.trans hid⟩
      · exact .inr (hid'.symm ▸ hdrawn)
    · exact .inr hnew
  keepsReview i v hv hk := h'.keepsReview i v (h.keepsReview i v hv hk) hk

/-! ## One row -/

/-- A rule of the clause is changed, but not its key. -/
theorem touches_update {j : Nat} {r₀ : CompiledRule} {f : CompiledRule → CompiledRule}
    (hs : Tidy s) (hr₀ : s.rules.get? j = some r₀) (hclause : r₀.clauseId = k)
    (hf : ∀ r, (f r).SameKey r) :
    Touches s { s with rules := s.rules.update j f } k ruleId drawn := by
  have hback : ∀ i r', (s.rules.update j f).get? i = some r' →
      ∃ r, s.rules.get? i = some r ∧ r'.SameKey r := by
    intro i r' hr'
    rw [Table.get?_update] at hr'
    split at hr'
    · obtain ⟨r, hr, rfl⟩ := Option.map_eq_some_iff.1 hr'
      exact ⟨r, hr, hf r⟩
    · exact ⟨r', hr', .refl r'⟩
  refine ⟨⟨?_, ?_, hs.reasons, hs.audits⟩, fun _ => rfl, fun i r' hr' => .inl (hback i r' hr'), ?_,
    fun _ v' hv' => .inl ⟨v', hv', rfl⟩, fun _ _ hv _ => hv⟩
  · intro i i' q r hq hr hid hk
    obtain ⟨q', hq', hqkey⟩ := hback i q hq
    obtain ⟨r', hr', hrkey⟩ := hback i' r hr
    exact hs.rules i i' q' r' hq' hr' (hqkey.ruleId.symm.trans (hid.trans hrkey.ruleId))
      (hqkey.clauseId.symm.trans (hk.trans hrkey.clauseId))
  · intro i v i' hv hlink
    obtain ⟨r, hr, hrk⟩ := hs.links i v i' hv hlink
    simp only [Table.get?_update]
    split
    · exact ⟨f r, by rw [hr, Option.map_some], (hf r).clauseId.trans hrk⟩
    · exact ⟨r, hr, hrk⟩
  · intro i r hr hrk
    have hij : i ≠ j := by
      rintro rfl
      obtain rfl : r₀ = r := Option.some.inj (hr₀.symm.trans hr)
      exact hrk hclause
    simp only [Table.get?_update, if_neg hij, hr]

/-- A first rule of its id is added to the clause. -/
theorem touches_insert {rule : CompiledRule} (hs : Tidy s) (hid : rule.ruleId = ruleId)
    (hclause : rule.clauseId = k)
    (hnew : ∀ j r, s.rules.get? j = some r → r.ruleId = ruleId → r.clauseId ≠ k) :
    Touches s { s with rules := s.rules.insert rule } k ruleId drawn := by
  have hback : ∀ i r', (s.rules.insert rule).get? i = some r' →
      (i = s.rules.next ∧ r' = rule) ∨ s.rules.get? i = some r' := by
    intro i r' hr'
    rw [Table.get?_insert] at hr'
    split at hr'
    · exact .inl ⟨‹_›, (Option.some.inj hr').symm⟩
    · exact .inr hr'
  have hkeep : ∀ i r, s.rules.get? i = some r → (s.rules.insert rule).get? i = some r := by
    intro i r hr
    rw [Table.get?_insert, if_neg (Nat.ne_of_lt (Table.lt_next_of_get? hr)), hr]
  refine ⟨⟨?_, ?_, hs.reasons, hs.audits⟩, fun _ => rfl, fun i r' hr' => ?_, fun i r hr _ => hkeep i r hr,
    fun _ v' hv' => .inl ⟨v', hv', rfl⟩, fun _ _ hv _ => hv⟩
  · intro i i' q r hq hr hqr hk
    rcases hback i q hq with ⟨rfl, rfl⟩ | hold
    · rcases hback i' r hr with ⟨rfl, rfl⟩ | hold'
      · rfl
      · exact absurd (hk.symm.trans hclause) (hnew i' r hold' (hqr.symm.trans hid))
    · rcases hback i' r hr with ⟨rfl, rfl⟩ | hold'
      · exact absurd (hk.trans hclause) (hnew i q hold (hqr.trans hid))
      · exact hs.rules i i' q r hold hold' hqr hk
  · intro i v j hv hlink
    obtain ⟨r, hr, hrk⟩ := hs.links i v j hv hlink
    exact ⟨r, hkeep j r hr, hrk⟩
  · rcases hback i r' hr' with ⟨-, rfl⟩ | hr
    · exact .inr ⟨hid, hclause⟩
    · exact .inl ⟨r', hr, .refl r'⟩

/-- A review is added to a rule of the clause that has none of its reason. -/
theorem touches_insertReview {v : HITLReview} {j : Nat} {r : CompiledRule} (hs : Tidy s)
    (hr : s.rules.get? j = some r) (hrk : r.clauseId = k) (hlink : v.compiledRuleId = some j)
    (hvk : v.clauseId = k) (hid : drawn v.reviewId)
    (haudit : v.reasonCode = .auditNotApproved → v.severity = .blocking)
    (hnew : ∀ i w, s.reviews.get? i = some w → w.compiledRuleId = some j →
      w.reasonCode ≠ v.reasonCode) :
    Touches s { s with reviews := s.reviews.insert v } k ruleId drawn := by
  have hback : ∀ i w, (s.reviews.insert v).get? i = some w →
      (i = s.reviews.next ∧ w = v) ∨ s.reviews.get? i = some w := by
    intro i w hw
    rw [Table.get?_insert] at hw
    split at hw
    · exact .inl ⟨‹_›, (Option.some.inj hw).symm⟩
    · exact .inr hw
  refine ⟨⟨hs.rules, ?_, ?_, ?_⟩, fun _ => rfl, fun _ r' hr' => .inl ⟨r', hr', .refl r'⟩,
    fun _ _ hr _ => hr, fun i w hw => ?_, fun i w hw _ => ?_⟩
  · intro i w j' hw hwj
    rcases hback i w hw with ⟨-, rfl⟩ | hw
    · obtain rfl := Option.some.inj (hlink.symm.trans hwj)
      exact ⟨r, hr, hrk.trans hvk.symm⟩
    · exact hs.links i w j' hw hwj
  · intro i i' w w' j' hw hw' hwj hwj' hreason
    rcases hback i w hw with ⟨rfl, rfl⟩ | hold
    · rcases hback i' w' hw' with ⟨rfl, rfl⟩ | hold'
      · rfl
      · obtain rfl := Option.some.inj (hlink.symm.trans hwj)
        exact absurd hreason.symm (hnew i' w' hold' hwj')
    · rcases hback i' w' hw' with ⟨rfl, rfl⟩ | hold'
      · obtain rfl := Option.some.inj (hlink.symm.trans hwj')
        exact absurd hreason (hnew i w hold hwj)
      · exact hs.reasons i i' w w' j' hold hold' hwj hwj' hreason
  · intro i w hw hreason
    rcases hback i w hw with ⟨-, rfl⟩ | hw
    · exact haudit hreason
    · exact hs.audits i w hw hreason
  · rcases hback i w hw with ⟨-, rfl⟩ | hw
    · exact .inr hid
    · exact .inl ⟨w, hw, rfl⟩
  · simp only [Table.get?_insert, if_neg (Nat.ne_of_lt (Table.lt_next_of_get? hw)), hw]

/-- A review of the clause gets another text. -/
theorem touches_describe {i : Nat} {v₀ : HITLReview} (hs : Tidy s) (hv₀ : s.reviews.get? i = some v₀)
    (hclause : v₀.clauseId = k) (text : String) :
    Touches s { s with reviews := s.reviews.update i fun r => { r with description := text } } k
      ruleId drawn := by
  have hback : ∀ i' w, (s.reviews.update i fun r => { r with description := text }).get? i' = some w →
      ∃ v, s.reviews.get? i' = some v ∧ w = { v with description := w.description } := by
    intro i' w hw
    rw [Table.get?_update] at hw
    split at hw
    · obtain ⟨v, hv, rfl⟩ := Option.map_eq_some_iff.1 hw
      exact ⟨v, hv, rfl⟩
    · exact ⟨w, hw, rfl⟩
  refine ⟨⟨hs.rules, ?_, ?_, ?_⟩, fun _ => rfl, fun _ r' hr' => .inl ⟨r', hr', .refl r'⟩,
    fun _ _ hr _ => hr, fun i' w hw => ?_, fun i' v hv hk => ?_⟩
  · intro i' w j hw hwj
    obtain ⟨v, hv, hwv⟩ := hback i' w hw
    rw [hwv] at hwj ⊢
    exact hs.links i' v j hv hwj
  · intro a b w w' j hw hw' hwj hwj' hreason
    obtain ⟨v, hv, hwv⟩ := hback a w hw
    obtain ⟨v', hv', hwv'⟩ := hback b w' hw'
    rw [hwv] at hwj hreason
    rw [hwv'] at hwj' hreason
    exact hs.reasons a b v v' j hv hv' hwj hwj' hreason
  · intro i' w hw hreason
    obtain ⟨v, hv, hwv⟩ := hback i' w hw
    rw [hwv] at hreason ⊢
    exact hs.audits i' v hv hreason
  · obtain ⟨v, hv, hwv⟩ := hback i' w hw
    exact .inl ⟨v, hv, by rw [hwv]⟩
  · have hne : i' ≠ i := by
      rintro rfl
      obtain rfl : v₀ = v := Option.some.inj (hv₀.symm.trans hv)
      exact hk hclause
    simp only [Table.get?_update, if_neg hne, hv]

/-! ## The rule of a clause -/

/-- No other clause has a rule under this name. -/
def NameFree (s : Store) (k : Nat) (ruleId tenantId : String) : Prop :=
  ∀ j r, s.rules.get? j = some r → r.ruleId = ruleId → r.tenantId = tenantId → r.ruleVersion = 1 →
    r.clauseId = k

theorem existingRule_of_tidy (hs : Tidy s) (ruleId : String) (k : Nat) :
    (existingRule s ruleId k = .ok none ∧
      ∀ j r, s.rules.get? j = some r → r.ruleId = ruleId → r.clauseId ≠ k) ∨
    ∃ j r, existingRule s ruleId k = .ok (some j) ∧ s.rules.get? j = some r ∧ r.ruleId = ruleId ∧
      r.clauseId = k := by
  have hunique : ∀ i j q r, s.rules.get? i = some q → s.rules.get? j = some r →
      decide (q.ruleId = ruleId ∧ q.clauseId = k) = true →
      decide (r.ruleId = ruleId ∧ r.clauseId = k) = true → i = j := by
    intro i j q r hq hr hqk hrk
    obtain ⟨hqid, hqk⟩ := of_decide_eq_true hqk
    obtain ⟨hrid, hrk⟩ := of_decide_eq_true hrk
    exact hs.rules i j q r hq hr (hqid.trans hrid.symm) (hqk.trans hrk.symm)
  unfold existingRule
  rcases Table.select_eq_nil_or_singleton hunique with hnil | ⟨x, hx⟩
  · refine .inl ⟨by rw [hnil], fun j r hr hid hk => ?_⟩
    have hmem : (j, r) ∈ s.rules.select fun r => r.ruleId = ruleId ∧ r.clauseId = k :=
      Table.mem_select.2 ⟨hr, by simp [hid, hk]⟩
    rw [hnil] at hmem
    cases hmem
  · obtain ⟨hget, hmatch⟩ := Table.get?_of_select_eq hx
    exact .inr ⟨x.1, x.2, by rw [hx], hget, of_decide_eq_true hmatch⟩

/-- The rule of the clause is written: one that is found, or a new one. -/
def WritesRule (s s' : Store) (k j : Nat) (ruleId : String) (p : CompiledRule → Prop) : Prop :=
  s'.reviews = s.reviews ∧ ∃ r, s'.rules.get? j = some r ∧ r.ruleId = ruleId ∧ r.clauseId = k ∧ p r

/-- A new rule whose name no other clause has is inserted. -/
theorem insertRule_touches {rule : CompiledRule} {p : CompiledRule → Prop} (hs : Tidy s)
    (hversion : rule.ruleVersion = 1) (hid : rule.ruleId = ruleId) (hclause : rule.clauseId = k)
    (hfree : NameFree s k ruleId rule.tenantId)
    (hnew : ∀ j r, s.rules.get? j = some r → r.ruleId = ruleId → r.clauseId ≠ k) (hp : p rule) :
    ∃ j s', insertRule s rule = .ok (j, s') ∧ Touches s s' k ruleId drawn ∧
      WritesRule s s' k j ruleId p := by
  refine ⟨s.rules.next, { s with rules := s.rules.insert rule }, ?_,
    touches_insert hs hid hclause hnew, rfl, rule, Table.get?_insert_self _ _, hid, hclause, hp⟩
  unfold insertRule
  rw [if_neg]
  rw [not_not, List.eq_nil_iff_forall_not_mem]
  intro x hx
  obtain ⟨hget, hmatch⟩ := Table.mem_select.1 hx
  obtain ⟨hxid, htenant, hver⟩ := of_decide_eq_true hmatch
  have hxid' : x.2.ruleId = ruleId := hxid.trans hid
  exact hnew x.1 x.2 hget hxid' (hfree x.1 x.2 hget hxid' htenant (hver.trans hversion))

/-- The rule that is found is overwritten. -/
theorem updateRule_touches {j : Nat} {r : CompiledRule} {f : CompiledRule → CompiledRule}
    {p : CompiledRule → Prop} (hs : Tidy s) (hr : s.rules.get? j = some r) (hid : r.ruleId = ruleId)
    (hclause : r.clauseId = k) (hf : ∀ r, (f r).SameKey r) (hp : p (f r)) :
    ∃ j' s', (Except.ok (j, { s with rules := s.rules.update j f }) : Except Error (Nat × Store)) =
        .ok (j', s') ∧ Touches s s' k ruleId drawn ∧ WritesRule s s' k j' ruleId p :=
  ⟨j, _, rfl, touches_update hs hr hclause hf, rfl, f r, Table.get?_update_self f hr,
    (hf r).ruleId.trans hid, (hf r).clauseId.trans hclause, hp⟩

theorem failedRule_touches (drawn : String → Prop) {clause : Clause} {chunkId tenantId : String}
    (hs : Tidy s)
    (hfree : NameFree s k (failedRuleId k clause chunkId) tenantId) :
    ∃ j s', failedRule s k clause chunkId tenantId = .ok (j, s') ∧
      Touches s s' k (failedRuleId k clause chunkId) drawn ∧
      WritesRule s s' k j (failedRuleId k clause chunkId) fun r => r.isCompiled = false := by
  unfold failedRule
  dsimp only
  rcases existingRule_of_tidy hs (failedRuleId k clause chunkId) k with
    ⟨hfind, hnew⟩ | ⟨j, r, hfind, hr, hid, hk⟩
  · rw [hfind]
    exact insertRule_touches hs rfl rfl rfl hfree hnew rfl
  · rw [hfind]
    exact updateRule_touches hs hr hid hk (fun _ => ⟨rfl, rfl, rfl, rfl⟩) rfl

theorem compiledRule_touches (drawn : String → Prop) {tenantId : String}
    (compilation : CompilationResult) (hs : Tidy s)
    (hfree : NameFree s k ruleId tenantId) :
    ∃ j s', compiledRule s k ruleId tenantId compilation = .ok (j, s') ∧
      Touches s s' k ruleId drawn ∧
      WritesRule s s' k j ruleId fun r => r.isCompiled = compilation.compiled ∧
        r.regoPolicy = compilation.rego.map (·.regoCode) := by
  unfold compiledRule
  rcases existingRule_of_tidy hs ruleId k with ⟨hfind, hnew⟩ | ⟨j, r, hfind, hr, hid, hk⟩
  · rw [hfind]
    exact insertRule_touches hs rfl rfl rfl hfree hnew ⟨rfl, rfl⟩
  · rw [hfind]
    exact updateRule_touches hs hr hid hk (fun _ => ⟨rfl, rfl, rfl, rfl⟩) ⟨rfl, rfl⟩

/-! ## The placeholder of a failed clause -/

/-- No review has this id. -/
def IdFree (s : Store) (id : String) : Prop := ∀ i v, s.reviews.get? i = some v → v.reviewId ≠ id

theorem insertReview_of_free {v : HITLReview} (hreason : v.reasonCode ≠ .selfHealedRequiresReview)
    (hfree : IdFree s v.reviewId) :
    insertReview s v = .ok { s with reviews := s.reviews.insert v } := by
  unfold insertReview
  rw [if_neg hreason, if_neg]
  rw [not_not, List.eq_nil_iff_forall_not_mem]
  intro x hx
  obtain ⟨hget, hid⟩ := Table.mem_select.1 hx
  exact hfree x.1 x.2 hget (of_decide_eq_true hid)

/-- The clause has its own placeholder, with its own blocking review. -/
def HasPlaceholder (s : Store) (k : Nat) (ruleId : String) : Prop :=
  ∃ j r i v, s.rules.get? j = some r ∧ r.ruleId = ruleId ∧ r.clauseId = k ∧ r.isCompiled = false ∧
    s.reviews.get? i = some v ∧ v.compiledRuleId = some j ∧ v.clauseId = k ∧ v.severity = .blocking

/-- **The failure of a clause is persisted** where no other clause has the name of its placeholder. -/
theorem persistFailedClauseRule_touches {clause : Clause} {chunkId tenantId uuid : String}
    (error : Option String) (hs : Tidy s)
    (hfree : NameFree s k (failedRuleId k clause chunkId) tenantId) (huuid : IdFree s uuid)
    (hdrawn : drawn uuid) :
    ∃ j s', persistFailedClauseRule s k clause chunkId error tenantId uuid = .ok (j, s') ∧
      Touches s s' k (failedRuleId k clause chunkId) drawn ∧
      HasPlaceholder s' k (failedRuleId k clause chunkId) := by
  obtain ⟨j, t, hrule, htouch, hreviews, r, hr, hid, hk, hcomp⟩ :=
    failedRule_touches drawn hs hfree
  have ht := htouch.tidy
  unfold persistFailedClauseRule
  rw [hrule]
  have hunique : ∀ a b v w, t.reviews.get? a = some v → t.reviews.get? b = some w →
      decide (v.clauseId = k ∧ v.compiledRuleId = some j ∧ v.reasonCode = .auditNotApproved) = true →
      decide (w.clauseId = k ∧ w.compiledRuleId = some j ∧ w.reasonCode = .auditNotApproved) = true →
      a = b := by
    intro a b v w hv hw hvm hwm
    obtain ⟨-, hvj, hvr⟩ := of_decide_eq_true hvm
    obtain ⟨-, hwj, hwr⟩ := of_decide_eq_true hwm
    exact ht.reasons a b v w j hv hw hvj hwj (hvr.trans hwr.symm)
  simp only [bind, Except.bind]
  rcases Table.select_eq_nil_or_singleton hunique with hnil | ⟨x, hx⟩
  · rw [hnil]
    have hnew : ∀ i w, t.reviews.get? i = some w → w.compiledRuleId = some j →
        w.reasonCode ≠ .auditNotApproved := by
      intro i w hw hwj hreason
      obtain ⟨r', hr', hwk⟩ := ht.links i w j hw hwj
      obtain rfl : r = r' := Option.some.inj (hr.symm.trans hr')
      have hmem : (i, w) ∈ t.reviews.select fun v =>
          v.clauseId = k ∧ v.compiledRuleId = some j ∧ v.reasonCode = .auditNotApproved :=
        Table.mem_select.2 ⟨hw, by simp [← hwk, hk, hwj, hreason]⟩
      rw [hnil] at hmem
      cases hmem
    have huuid' : IdFree t uuid := fun i v hv => huuid i v (hreviews ▸ hv)
    dsimp only
    rw [insertReview_of_free (by simp) huuid']
    refine ⟨j, _, rfl, htouch.trans (touches_insertReview ht hr hk rfl rfl hdrawn (fun _ => rfl) hnew),
      j, r, _, _, hr, hid, hk, hcomp, Table.get?_insert_self _ _, rfl, rfl, rfl⟩
  · rw [hx]
    obtain ⟨hget, hmatch⟩ := Table.get?_of_select_eq hx
    obtain ⟨hxk, hxj, hxr⟩ := of_decide_eq_true hmatch
    refine ⟨j, _, rfl, htouch.trans (touches_describe ht hget hxk _), j, r, x.1, _, hr, hid, hk, hcomp,
      Table.get?_update_self _ hget, hxj, hxk, ht.audits x.1 x.2 hget hxr⟩

/-! ## The rule of a compiled clause -/

theorem get?_deleteFailedRules_review {i : Nat} {v' : HITLReview}
    (h : (deleteFailedRules s k).reviews.get? i = some v') :
    ∃ v, s.reviews.get? i = some v ∧ (v' = v ∨ v' = { v with compiledRuleId := none }) := by
  simp only [deleteFailedRules, Table.get?_modify, Option.map_eq_some_iff] at h
  obtain ⟨v, hv, rfl⟩ := h
  refine ⟨v, hv, ?_⟩
  split
  · exact .inr rfl
  · exact .inl rfl

/-- A review that stays linked is an old one. -/
theorem get?_deleteFailedRules_linked {i j : Nat} {v' : HITLReview}
    (h : (deleteFailedRules s k).reviews.get? i = some v') (hj : v'.compiledRuleId = some j) :
    s.reviews.get? i = some v' :=
  (frame_deleteFailedRules s k none).review i v' j hj (by simp) h

theorem Links.deleteFailedRules (hs : Links s) (k : Nat) : Links (deleteFailedRules s k) := by
  intro i v j hv hlink
  have hold := get?_deleteFailedRules_linked hv hlink
  obtain ⟨r, hr, hrv⟩ := hs i v j hold hlink
  refine ⟨r, get?_deleteFailedRules_keeps hr fun hclause => ?_, hrv⟩
  by_contra hfailed
  rw [Bool.not_eq_false] at hfailed
  -- a review of a deleted rule is unlinked
  simp only [Hitl.deleteFailedRules, Table.get?_modify, hold, Option.map_some,
    Option.some.injEq] at hv
  rw [if_pos] at hv
  · rw [← hv] at hlink
    cases hlink
  · rw [hlink]
    exact List.mem_map.2 ⟨(j, r), Table.mem_select.2 ⟨hr, by simp [hclause, hfailed]⟩, rfl⟩

/-- The placeholders of the clause are removed. -/
theorem deleteFailedRules_touches (hs : Tidy s) :
    Touches s (deleteFailedRules s k) k ruleId drawn := by
  refine ⟨⟨?_, hs.links.deleteFailedRules k, ?_, ?_⟩, fun _ => rfl, fun j r' hr' => ?_,
    fun j r hr hrk => ?_, fun i v' hv' => ?_, fun i v hv hvk => ?_⟩
  · intro i j q r hq hr hid hk
    exact hs.rules i j q r (get?_deleteFailedRules hq).1 (get?_deleteFailedRules hr).1 hid hk
  · intro i i' v v' j hv hv' hlink hlink' hreason
    exact hs.reasons i i' v v' j (get?_deleteFailedRules_linked hv hlink)
      (get?_deleteFailedRules_linked hv' hlink') hlink hlink' hreason
  · intro i v' hv' hreason
    obtain ⟨v, hv, rfl | rfl⟩ := get?_deleteFailedRules_review hv'
    · exact hs.audits i v' hv hreason
    · exact hs.audits i v hv hreason
  · exact .inl ⟨r', (get?_deleteFailedRules hr').1, .refl r'⟩
  · exact get?_deleteFailedRules_keeps hr fun hclause => absurd hclause hrk
  · obtain ⟨v, hv, rfl | rfl⟩ := get?_deleteFailedRules_review hv'
    · exact .inl ⟨v', hv, rfl⟩
    · exact .inl ⟨v, hv, rfl⟩
  · simp only [deleteFailedRules, Table.get?_modify, hv, Option.map_some]
    rw [if_neg]
    rintro hmem
    obtain ⟨f, hf, hlink⟩ := List.mem_map.1 hmem
    obtain ⟨hget, hmatch⟩ := Table.mem_select.1 hf
    obtain ⟨r, hr, hrv⟩ := hs.links i v f.1 hv hlink.symm
    rw [hget, Option.some.injEq] at hr
    simp only [decide_eq_true_eq, hr] at hmatch
    exact hvk (hrv.symm.trans hmatch.1)

/-- Flags that can be written: their ids are drawn, different and free. -/
structure FlagsFree (s : Store) (drawn : String → Prop) (flags : List HITLFlag) : Prop where
  ids : ∀ f ∈ flags, f.flagId ≠ "" ∧ drawn f.flagId ∧ IdFree s f.flagId
  reasons : ∀ f ∈ flags, f.reasonCode ≠ .selfHealedRequiresReview ∧
    (f.reasonCode = .auditNotApproved → f.severity = .blocking)
  nodup : (flags.map (·.flagId)).Nodup

/-- The review of a flag that has an id. -/
def flagReview (k j : Nat) (tenantId : String) (f : HITLFlag) : HITLReview where
  reviewId := f.flagId
  clauseId := k
  compiledRuleId := some j
  tenantId := tenantId
  reasonCode := f.reasonCode
  severity := f.severity
  description := f.description
  sourceExcerpt := f.sourceExcerpt
  fieldPath := f.fieldPath

theorem flagReviews_cons {j : Nat} {tenantId : String} {f : HITLFlag} {fs : List HITLFlag}
    {uuids : List String} {reasons : List ReasonCode} (hid : f.flagId ≠ "")
    (hreason : f.reasonCode ∉ reasons) :
    flagReviews k j tenantId (f :: fs) uuids s reasons =
      (insertReview s (flagReview k j tenantId f)).bind fun s =>
        flagReviews k j tenantId fs uuids s (reasons ++ [f.reasonCode]) := by
  rw [flagReviews, if_neg hreason, if_pos hid, if_pos hid]
  rfl

theorem flagReviews_touches {j : Nat} {tenantId : String} {r : CompiledRule} (hrk : r.clauseId = k) :
    ∀ {flags : List HITLFlag} (uuids : List String) {s : Store} {reasons : List ReasonCode}, Tidy s →
      s.rules.get? j = some r →
      (∀ i w, s.reviews.get? i = some w → w.compiledRuleId = some j → w.reasonCode ∈ reasons) →
      FlagsFree s drawn flags →
      ∃ s', flagReviews k j tenantId flags uuids s reasons = .ok s' ∧
        Touches s s' k ruleId drawn ∧ s'.rules = s.rules
  | [], _, s, _, hs, _, _, _ => ⟨s, rfl, .refl hs, rfl⟩
  | f :: fs, uuids, s, reasons, hs, hr, hreasons, hflags => by
    obtain ⟨hid, hdrawn, hfree⟩ := hflags.ids f List.mem_cons_self
    obtain ⟨hhealed, haudit⟩ := hflags.reasons f List.mem_cons_self
    have hnodup := List.nodup_cons.1 hflags.nodup
    have hfs : FlagsFree s drawn fs :=
      ⟨fun g hg => hflags.ids g (List.mem_cons_of_mem _ hg),
        fun g hg => hflags.reasons g (List.mem_cons_of_mem _ hg), hnodup.2⟩
    by_cases hseen : f.reasonCode ∈ reasons
    · rw [flagReviews, if_pos hseen]
      exact flagReviews_touches hrk uuids hs hr hreasons hfs
    · have htouch : Touches s { s with reviews := s.reviews.insert (flagReview k j tenantId f) } k
          ruleId drawn := by
        refine touches_insertReview hs hr hrk rfl rfl hdrawn haudit fun i w hw hwj heq => ?_
        have hmem := hreasons i w hw hwj
        rw [heq] at hmem
        exact hseen hmem
      have hback : ∀ i w, (s.reviews.insert (flagReview k j tenantId f)).get? i = some w →
          w = flagReview k j tenantId f ∨ s.reviews.get? i = some w := by
        intro i w hw
        rw [Table.get?_insert] at hw
        split at hw
        · exact .inl (Option.some.inj hw).symm
        · exact .inr hw
      have hreasons' : ∀ i w, (s.reviews.insert (flagReview k j tenantId f)).get? i = some w →
          w.compiledRuleId = some j → w.reasonCode ∈ reasons ++ [f.reasonCode] := by
        intro i w hw hwj
        rcases hback i w hw with rfl | hw
        · exact List.mem_append_right _ (List.mem_singleton_self _)
        · exact List.mem_append_left _ (hreasons i w hw hwj)
      have hfs' : FlagsFree { s with reviews := s.reviews.insert (flagReview k j tenantId f) } drawn
          fs := by
        refine ⟨fun g hg => ⟨(hfs.ids g hg).1, (hfs.ids g hg).2.1, fun i w hw => ?_⟩, hfs.reasons,
          hfs.nodup⟩
        rcases hback i w hw with rfl | hw
        · intro heq
          exact hnodup.1 (List.mem_map.2 ⟨g, hg, heq.symm⟩)
        · exact (hfs.ids g hg).2.2 i w hw
      rw [flagReviews_cons hid hseen, insertReview_of_free hhealed hfree]
      obtain ⟨s', hreturns, hrest, hrules⟩ :=
        flagReviews_touches hrk uuids htouch.tidy hr hreasons' hfs'
      exact ⟨s', hreturns, htouch.trans hrest, hrules⟩

/-- The clause has its rule, as it was compiled. -/
def HasRule (s : Store) (k : Nat) (ruleId : String) (compilation : CompilationResult) : Prop :=
  ∃ j r, s.rules.get? j = some r ∧ r.ruleId = ruleId ∧ r.clauseId = k ∧
    r.isCompiled = compilation.compiled ∧ r.regoPolicy = compilation.rego.map (·.regoCode)

theorem addReviews_touches {j : Nat} {clause : Clause} {tenantId uuid : String}
    {compilation : CompilationResult} {r : CompiledRule} (hs : Tidy s) (hr : s.rules.get? j = some r)
    (hrk : r.clauseId = k) (hflags : FlagsFree s drawn compilation.hitlFlags) (huuid : IdFree s uuid)
    (hdrawn : drawn uuid) :
    ∃ s', addReviews s k j clause ruleId tenantId compilation [uuid] = .ok s' ∧
      Touches s s' k ruleId drawn ∧ s'.rules = s.rules := by
  unfold addReviews
  dsimp only
  split
  · refine flagReviews_touches hrk [uuid] hs hr (fun i w hw hwj => ?_) hflags
    rw [List.map_map]
    exact List.mem_map.2 ⟨(i, w), mem_reviewsOf.2 ⟨hw, hwj⟩, rfl⟩
  · split
    · rename_i hnone
      refine ⟨_, insertReview_of_free (by simp [signOffReview]) huuid, ?_, rfl⟩
      refine touches_insertReview hs hr hrk rfl rfl hdrawn (fun h => by cases h) fun i w hw hwj => ?_
      have hmem := List.mem_map_of_mem (f := (·.2)) (mem_reviewsOf.2 ⟨hw, hwj⟩ : (i, w) ∈ s.reviewsOf j)
      rw [hnone] at hmem
      cases hmem
    · exact ⟨s, rfl, .refl hs, rfl⟩

/-- **A compiled clause is persisted** where no other clause has the name of its rule and the drawn
ids are free. -/
theorem compileAndPersistRules_touches (clause : Clause) {tenantId uuid : String}
    {compilation : CompilationResult} (hs : Tidy s) (hfree : NameFree s k ruleId tenantId)
    (hflags : FlagsFree s drawn compilation.hitlFlags) (huuid : IdFree s uuid) (hdrawn : drawn uuid) :
    ∃ j s', compileAndPersistRules s k clause ruleId tenantId compilation [uuid] = .ok (j, s') ∧
      Touches s s' k ruleId drawn ∧ HasRule s' k ruleId compilation := by
  have hdelete : Touches s (deleteFailedRules s k) k ruleId drawn := deleteFailedRules_touches hs
  have hfree' : NameFree (deleteFailedRules s k) k ruleId tenantId :=
    fun j r hr => hfree j r (get?_deleteFailedRules hr).1
  obtain ⟨j, t, hrule, htouch, hreviews, r, hr, hid, hk, hcompiled, hrego⟩ :=
    compiledRule_touches drawn compilation hdelete.tidy hfree'
  -- no review is added before the flags are written
  have hids : ∀ id, IdFree s id → IdFree t id := by
    intro id hfree i v hv
    rw [hreviews] at hv
    have hsame : Touches s (deleteFailedRules s k) k ruleId fun _ => False :=
      deleteFailedRules_touches hs
    rcases hsame.ids i v hv with ⟨w, hw, hwid⟩ | hnone
    · exact hwid ▸ hfree i w hw
    · exact hnone.elim
  have hflags' : FlagsFree t drawn compilation.hitlFlags :=
    ⟨fun f hf => ⟨(hflags.ids f hf).1, (hflags.ids f hf).2.1, hids _ (hflags.ids f hf).2.2⟩,
      hflags.reasons, hflags.nodup⟩
  obtain ⟨u, hadd, hreviewed, hrules⟩ :=
    addReviews_touches htouch.tidy hr hk hflags' (hids uuid huuid) hdrawn
  have hru : u.rules.get? j = some r := by rw [hrules, hr]
  unfold compileAndPersistRules
  rw [hrule]
  simp only [bind, Except.bind]
  rw [hadd]
  refine ⟨j, _, rfl, ?_, j, _, Table.get?_update_self _ hru, hid, hk, hcompiled, hrego⟩
  refine hdelete.trans (htouch.trans (hreviewed.trans ?_))
  exact touches_update hreviewed.tidy hru hk fun _ => ⟨rfl, rfl, rfl, rfl⟩

end

end RegEngine.Hitl
