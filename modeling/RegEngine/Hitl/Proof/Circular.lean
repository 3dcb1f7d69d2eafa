import RegEngine.Hitl.Proof.Pipeline
import RegEngine.Hitl.Proof.Runs

/-!
# The state of a circular against its reviews

`approve_review` approves a circular when no review of its clauses is open or refused; the stages do
when none of them is open or blocking. A revision unlinks a review from its rule, not from its clause.

* `execute_grows`: an execution adds pending reviews of its clauses, and keeps the status of the others.
* `circular_settled_run`: along a run whose executions find no refused review that does not block, and
  whose last approvals find no unlinked one, a circular is approved exactly when nothing is open.
-/

namespace RegEngine.Hitl

open Lib Lib.Except Parsing

/-! ## What an execution adds -/

/-- Reviews are added to the clauses in `p`, as pending ones; old reviews keep their status, and at
most lose their rule. Rows of other circulars stay. -/
structure Grows (s s' : Store) (circularId : Nat) (p : Nat → Prop) : Prop where
  links : Links s → Links s'
  clauses : ∀ k, (s'.clauses.get? k).map Clause.identity = (s.clauses.get? k).map Clause.identity
  circulars : ∀ j, j ≠ circularId → s'.circulars.get? j = s.circulars.get? j
  kept : ∀ i v, s.reviews.get? i = some v → ∃ v', s'.reviews.get? i = some v' ∧
    v'.status = v.status ∧ v'.severity = v.severity ∧ v'.clauseId = v.clauseId
  added : ∀ i v', s'.reviews.get? i = some v' →
    (∃ v, s.reviews.get? i = some v ∧ v'.status = v.status ∧ v'.clauseId = v.clauseId ∧
      ∀ j, v'.compiledRuleId = some j → v.compiledRuleId = some j) ∨
    v'.status = .pending ∧ p v'.clauseId

section
variable {s s' s'' : Store} {circularId k : Nat} {p : Nat → Prop}

theorem Grows.trans (h : Grows s s' circularId p) (h' : Grows s' s'' circularId p) :
    Grows s s'' circularId p where
  links hs := h'.links (h.links hs)
  clauses k := (h'.clauses k).trans (h.clauses k)
  circulars j hj := (h'.circulars j hj).trans (h.circulars j hj)
  kept i v hv := by
    obtain ⟨v', hv', hst, hsev, hk⟩ := h.kept i v hv
    obtain ⟨v'', hv'', hst', hsev', hk'⟩ := h'.kept i v' hv'
    exact ⟨v'', hv'', hst'.trans hst, hsev'.trans hsev, hk'.trans hk⟩
  added i v'' hv'' := by
    rcases h'.added i v'' hv'' with ⟨v', hv', hst', hk', hlink'⟩ | hnew
    · rcases h.added i v' hv' with ⟨v, hv, hst, hk, hlink⟩ | ⟨hst, hp⟩
      · exact .inl ⟨v, hv, hst'.trans hst, hk'.trans hk, fun j hj => hlink j (hlink' j hj)⟩
      · exact .inr ⟨hst'.trans hst, hk'.symm ▸ hp⟩
    · exact .inr hnew

theorem Grows.mono {q : Nat → Prop} (h : Grows s s' circularId p) (hpq : ∀ k, p k → q k) :
    Grows s s' circularId q :=
  ⟨h.links, h.clauses, h.circulars, h.kept, fun i v' hv' =>
    (h.added i v' hv').imp_right fun hnew => ⟨hnew.1, hpq _ hnew.2⟩⟩

theorem StatusOnly.grows (h : StatusOnly s s' circularId) : Grows s s' circularId p where
  links hs := hs.congr h.rules h.reviews
  clauses := h.clauses
  circulars := h.circulars
  kept i v hv := ⟨v, by rw [h.reviews, hv], rfl, rfl, rfl⟩
  added i v' hv' := .inl ⟨v', h.reviews ▸ hv', rfl, rfl, fun _ hj => hj⟩

theorem Grows.refl (s : Store) : Grows s s circularId p := (StatusOnly.refl s circularId).grows

/-- Rules that are there stay, with their clauses. -/
theorem grows_of_rules {rules : Table CompiledRule}
    (h : ∀ j r, s.rules.get? j = some r → ∃ r', rules.get? j = some r' ∧ r'.clauseId = r.clauseId) :
    Grows s { s with rules := rules } circularId p where
  links hs i v j hv hj := by
    obtain ⟨r, hr, hk⟩ := hs i v j hv hj
    obtain ⟨r', hr', hk'⟩ := h j r hr
    exact ⟨r', hr', hk'.trans hk⟩
  clauses _ := rfl
  circulars _ _ := rfl
  kept i v hv := ⟨v, hv, rfl, rfl, rfl⟩
  added i v' hv' := .inl ⟨v', hv', rfl, rfl, fun _ hj => hj⟩

theorem grows_update {j : Nat} {f : CompiledRule → CompiledRule}
    (hf : ∀ r, (f r).clauseId = r.clauseId) :
    Grows s { s with rules := s.rules.update j f } circularId p := by
  refine grows_of_rules fun i r hr => ?_
  rw [Table.get?_update, hr]
  split
  · exact ⟨f r, rfl, hf r⟩
  · exact ⟨r, rfl, rfl⟩

theorem grows_insert (rule : CompiledRule) :
    Grows s { s with rules := s.rules.insert rule } circularId p := by
  refine grows_of_rules fun i r hr => ⟨r, ?_, rfl⟩
  rw [Table.get?_insert, if_neg (Nat.ne_of_lt (Table.lt_next_of_get? hr)), hr]

theorem grows_deleteFailedRules (s : Store) (k : Nat) :
    Grows s (deleteFailedRules s k) circularId p where
  links hs := hs.deleteFailedRules k
  clauses _ := rfl
  circulars _ _ := rfl
  kept i v hv := by
    simp only [deleteFailedRules, Table.get?_modify, hv, Option.map_some, Option.some.injEq,
      exists_eq_left']
    split <;> exact ⟨rfl, rfl, rfl⟩
  added i v' hv' := by
    obtain ⟨v, hv, rfl | rfl⟩ := get?_deleteFailedRules_review hv'
    · exact .inl ⟨v', hv, rfl, rfl, fun _ hj => hj⟩
    · exact .inl ⟨v, hv, rfl, rfl, fun _ hj => by cases hj⟩

/-- A pending review is added to a rule of its clause. -/
theorem insertReview_grows {review : HITLReview} {j : Nat} {r : CompiledRule}
    (h : insertReview s review = .ok s') (hr : s.rules.get? j = some r)
    (hk : r.clauseId = review.clauseId) (hlink : review.compiledRuleId = some j)
    (hst : review.status = .pending) (hp : p review.clauseId) : Grows s s' circularId p := by
  obtain rfl := insertReview_ok h
  have hback : ∀ i w, (s.reviews.insert review).get? i = some w →
      w = review ∨ s.reviews.get? i = some w := by
    intro i w hw
    rw [Table.get?_insert] at hw
    split at hw
    · exact .inl (Option.some.inj hw).symm
    · exact .inr hw
  refine ⟨fun hs i v j' hv hj' => ?_, fun _ => rfl, fun _ _ => rfl, fun i v hv => ?_,
    fun i v' hv' => ?_⟩
  · rcases hback i v hv with rfl | hold
    · obtain rfl := Option.some.inj (hlink.symm.trans hj')
      exact ⟨r, hr, hk⟩
    · exact hs i v j' hold hj'
  · refine ⟨v, ?_, rfl, rfl, rfl⟩
    simp only [Table.get?_insert, if_neg (Nat.ne_of_lt (Table.lt_next_of_get? hv)), hv]
  · rcases hback i v' hv' with rfl | hold
    · exact .inr ⟨hst, hp⟩
    · exact .inl ⟨v', hold, rfl, rfl, fun _ hj => hj⟩

theorem flagReviews_grows {j : Nat} {tenantId : String} {r : CompiledRule} (hk : r.clauseId = k)
    (hp : p k) : ∀ {flags : List HITLFlag} {uuids : List String} {s : Store}
      {reasons : List ReasonCode}, s.rules.get? j = some r →
      flagReviews k j tenantId flags uuids s reasons = .ok s' → Grows s s' circularId p
  | [], _, s, _, _, h => by
    obtain rfl := Except.ok.inj h
    exact .refl s
  | flag :: flags, uuids, s, reasons, hr, h => by
    rw [flagReviews] at h
    split at h
    · exact flagReviews_grows hk hp hr h
    · obtain ⟨t, ht, h⟩ := bind_ok_iff.1 h
      have hrt : t.rules.get? j = some r := by rw [insertReview_ok ht, hr]
      exact (insertReview_grows ht hr hk rfl rfl hp).trans (flagReviews_grows hk hp hrt h)

theorem addReviews_grows {j : Nat} {clause : Clause} {ruleId tenantId : String}
    {compilation : CompilationResult} {uuids : List String} {r : CompiledRule}
    (hr : s.rules.get? j = some r) (hk : r.clauseId = k) (hp : p k)
    (h : addReviews s k j clause ruleId tenantId compilation uuids = .ok s') :
    Grows s s' circularId p := by
  unfold addReviews at h
  dsimp only at h
  split at h
  · exact flagReviews_grows hk hp hr h
  · split at h
    · exact insertReview_grows h hr hk rfl rfl hp
    · obtain rfl := Except.ok.inj h
      exact .refl s

theorem failedRule_grows {clause : Clause} {chunkId tenantId : String} {j : Nat}
    (h : failedRule s k clause chunkId tenantId = .ok (j, s')) :
    Grows s s' circularId p ∧ ∃ r, s'.rules.get? j = some r ∧ r.clauseId = k := by
  obtain ⟨found, hfound, h⟩ := bind_ok_iff.1 h
  split at h
  · obtain ⟨rfl, rfl⟩ := Prod.mk.inj (Except.ok.inj h)
    obtain ⟨r, hr, -, hk⟩ := existingRule_ok hfound
    exact ⟨grows_update fun _ => rfl, _, Table.get?_update_self _ hr, hk⟩
  · obtain ⟨rfl, rfl⟩ := insertRule_ok h
    exact ⟨grows_insert _, _, Table.get?_insert_self _ _, rfl⟩

theorem compiledRule_grows {ruleId tenantId : String} {compilation : CompilationResult} {j : Nat}
    (h : compiledRule s k ruleId tenantId compilation = .ok (j, s')) :
    Grows s s' circularId p ∧ ∃ r, s'.rules.get? j = some r ∧ r.clauseId = k := by
  obtain ⟨found, hfound, h⟩ := bind_ok_iff.1 h
  split at h
  · obtain ⟨rfl, rfl⟩ := Prod.mk.inj (Except.ok.inj h)
    obtain ⟨r, hr, -, hk⟩ := existingRule_ok hfound
    exact ⟨grows_update fun _ => rfl, _, Table.get?_update_self _ hr, hk⟩
  · obtain ⟨rfl, rfl⟩ := insertRule_ok h
    exact ⟨grows_insert _, _, Table.get?_insert_self _ _, rfl⟩

theorem grows_describe (i : Nat) (text : String) :
    Grows s { s with reviews := s.reviews.update i fun r => { r with description := text } }
      circularId p := by
  have hback : ∀ i' w, (s.reviews.update i fun r => { r with description := text }).get? i' = some w →
      ∃ v, s.reviews.get? i' = some v ∧ w = { v with description := w.description } := by
    intro i' w hw
    rw [Table.get?_update] at hw
    split at hw
    · obtain ⟨v, hv, rfl⟩ := Option.map_eq_some_iff.1 hw
      exact ⟨v, hv, rfl⟩
    · exact ⟨w, hw, rfl⟩
  refine ⟨fun hs i' w j hw hj => ?_, fun _ => rfl, fun _ _ => rfl, fun i' v hv => ?_,
    fun i' w hw => ?_⟩
  · obtain ⟨v, hv, hwv⟩ := hback i' w hw
    rw [hwv] at hj ⊢
    exact hs i' v j hv hj
  · rw [Table.get?_update, hv]
    split
    · exact ⟨_, rfl, rfl, rfl, rfl⟩
    · exact ⟨v, rfl, rfl, rfl, rfl⟩
  · obtain ⟨v, hv, hwv⟩ := hback i' w hw
    refine .inl ⟨v, hv, ?_⟩
    rw [hwv]
    exact ⟨rfl, rfl, fun _ hj => hj⟩

theorem persistFailedClauseRule_grows {clause : Clause} {chunkId tenantId uuid : String}
    {error : Option String} {j : Nat} (hp : p k)
    (h : persistFailedClauseRule s k clause chunkId error tenantId uuid = .ok (j, s')) :
    Grows s s' circularId p := by
  obtain ⟨⟨i, t⟩, hrule, h⟩ := bind_ok_iff.1 h
  obtain ⟨hgrows, r, hr, hk⟩ : Grows s t circularId p ∧
    ∃ r, t.rules.get? i = some r ∧ r.clauseId = k := failedRule_grows hrule
  dsimp only at h
  split at h
  · obtain ⟨u, hu, h⟩ := bind_ok_iff.1 h
    obtain ⟨rfl, rfl⟩ := Prod.mk.inj (Except.ok.inj h)
    exact hgrows.trans (insertReview_grows hu hr hk rfl rfl hp)
  · obtain ⟨rfl, rfl⟩ := Prod.mk.inj (Except.ok.inj h)
    exact hgrows.trans (grows_describe _ _)
  · cases h

theorem compileAndPersistRules_grows {clause : Clause} {ruleId tenantId : String}
    {compilation : CompilationResult} {uuids : List String} {j : Nat} (hp : p k)
    (h : compileAndPersistRules s k clause ruleId tenantId compilation uuids = .ok (j, s')) :
    Grows s s' circularId p := by
  obtain ⟨⟨i, t⟩, hrule, h⟩ := bind_ok_iff.1 h
  obtain ⟨u, hu, h⟩ := bind_ok_iff.1 h
  obtain ⟨rfl, rfl⟩ := Prod.mk.inj (Except.ok.inj h)
  obtain ⟨hgrows, r, hr, hk⟩ := compiledRule_grows hrule
  refine (grows_deleteFailedRules s k).trans (hgrows.trans ?_)
  exact (addReviews_grows hr hk hp hu).trans (grows_update fun _ => rfl)

/-! ## Executions -/

theorem compileClause_grows {o : Outside} {tenantId : String} {chunks : List ClauseChunk}
    {results : List (ClauseChunk × Extraction)} {i : Nat} (hp : p k)
    (h : compileClause o tenantId chunks results i s k = .ok s') : Grows s s' circularId p := by
  unfold compileClause at h
  split at h
  · cases h
  · rename_i clause hclause
    split at h
    · obtain ⟨t, ht, h⟩ := bind_ok_iff.1 h
      obtain rfl := Except.ok.inj h
      have hop := mapError_ok_iff.1 ht
      simp only [Op.result, hclause] at hop
      obtain ⟨⟨j, u⟩, hu, rfl⟩ := map_ok_iff.1 hop
      exact (persistFailedClauseRule_grows hp hu).trans (statusOnly_setClauseStatus ..).grows
    · obtain ⟨compilation, -, h⟩ := bind_ok_iff.1 h
      obtain ⟨t, ht, h⟩ := bind_ok_iff.1 h
      obtain rfl := Except.ok.inj h
      have hop := mapError_ok_iff.1 ht
      simp only [Op.result, hclause] at hop
      obtain ⟨⟨j, u⟩, hu, rfl⟩ := map_ok_iff.1 hop
      exact (compileAndPersistRules_grows hp hu).trans (statusOnly_setClauseStatus ..).grows

theorem compileClauses_grows {o : Outside} {tenantId : String} {chunks : List ClauseChunk}
    {results : List (ClauseChunk × Extraction)} {completed : List Nat} :
    ∀ {ks : List Nat} {i : Nat} {s : Store}, (∀ k ∈ ks, p k) →
      compileClauses o tenantId chunks results completed i s ks = .ok s' → Grows s s' circularId p
  | [], _, s, _, h => by
    obtain rfl := Except.ok.inj h
    exact .refl s
  | k :: ks, i, s, hp, h => by
    have hks : ∀ k ∈ ks, p k := fun k' hk' => hp k' (List.mem_cons_of_mem _ hk')
    rw [compileClauses] at h
    split at h
    · exact compileClauses_grows hks h
    · obtain ⟨t, ht, h⟩ := bind_ok_iff.1 h
      exact (compileClause_grows (hp k List.mem_cons_self) ht).trans (compileClauses_grows hks h)

/-- **An execution adds pending reviews of its clauses only**, and approves its circular only when none
of theirs is open or blocking. -/
theorem execute_grows (c : StageCall) (s : Store) :
    Grows s (c.execute s).1 c.circularId (· ∈ c.clauseIds) ∧
      ∀ circular, (c.execute s).1.circulars.get? c.circularId = some circular →
        circular.processingState = .approved →
        pendingOrBlocking (c.execute s).1 c.clauseIds = [] := by
  have hstart : Grows s (c.extractionStage s) c.circularId (· ∈ c.clauseIds) :=
    (statusOnly_extractionStage c s).grows
  unfold StageCall.execute
  dsimp only
  split
  · rename_i t ht
    have hsettle := statusOnly_settleStages t c.circularId c.clauseIds
    refine ⟨hstart.trans ((compileClauses_grows (fun _ hk => hk) ht).trans hsettle.grows),
      fun circular hget happroved => ?_⟩
    have hstate := state_transition hget
    have hsame : pendingOrBlocking (settleStages t c.circularId c.clauseIds) c.clauseIds =
        pendingOrBlocking t c.clauseIds := by
      simp only [pendingOrBlocking, Store.reviewsIn, hsettle.reviews]
    by_contra hne
    rw [hsame] at hne
    rw [happroved, if_pos hne] at hstate
    cases hstate
  · refine ⟨hstart.trans (statusOnly_transition ..).grows, fun circular hget happroved => ?_⟩
    have hstate := state_transition hget
    rw [happroved] at hstate
    cases hstate

end

/-! ## Linked reviews -/

/-- A review that is linked to a rule of the circular. -/
def Linked (s : Store) (circularId i : Nat) (v : HITLReview) : Prop :=
  s.reviews.get? i = some v ∧ ∃ j r clause, v.compiledRuleId = some j ∧ s.rules.get? j = some r ∧
    s.clauses.get? r.clauseId = some clause ∧ clause.circularId = circularId

/-- Every linked review of the circular is resolved. -/
def Clear (s : Store) (circularId : Nat) : Prop :=
  ∀ i v, Linked s circularId i v → v.status = .resolved

/-- No approved circular has a linked review that is not resolved. -/
def ApprovedClear (s : Store) : Prop :=
  ∀ circularId circular, s.circulars.get? circularId = some circular →
    circular.processingState = .approved → Clear s circularId

/-- The clause of a review is one of the circular. -/
def OfCircular (s : Store) (circularId : Nat) (v : HITLReview) : Prop :=
  ∃ clause, s.clauses.get? v.clauseId = some clause ∧ clause.circularId = circularId

section
variable {s s' t : Store} {circularId i : Nat} {v : HITLReview}

theorem linked_iff (hs : Links s) : Linked s circularId i v ↔
    s.reviews.get? i = some v ∧ (∃ j, v.compiledRuleId = some j) ∧ OfCircular s circularId v := by
  constructor
  · rintro ⟨hv, j, r, clause, hj, hr, hclause, hcirc⟩
    obtain ⟨r', hr', hk⟩ := hs i v j hv hj
    obtain rfl := Option.some.inj (hr.symm.trans hr')
    exact ⟨hv, ⟨j, hj⟩, clause, hk ▸ hclause, hcirc⟩
  · rintro ⟨hv, ⟨j, hj⟩, clause, hclause, hcirc⟩
    obtain ⟨r, hr, hk⟩ := hs i v j hv hj
    exact ⟨hv, j, r, clause, hj, hr, hk.symm ▸ hclause, hcirc⟩

theorem OfCircular.of_identity {v' : HITLReview}
    (hclauses : ∀ k, (s'.clauses.get? k).map Clause.identity = (s.clauses.get? k).map Clause.identity)
    (hk : v'.clauseId = v.clauseId) (h : OfCircular s' circularId v') : OfCircular s circularId v := by
  obtain ⟨clause', hget', hcirc⟩ := h
  have hsame := hclauses v'.clauseId
  rw [hget', Option.map_some, hk] at hsame
  obtain ⟨clause, hget, hid⟩ := Option.map_eq_some_iff.1 hsame.symm
  exact ⟨clause, hget, (congrArg Prod.fst hid).trans hcirc⟩

/-- A linked review of another circular, or of before, is an old one. -/
theorem Grows.linked {p : Nat → Prop} {circularId' : Nat} {v' : HITLReview}
    (h : Grows s s' circularId p) (hs : Links s) (hlinked : Linked s' circularId' i v') :
    (∃ v, Linked s circularId' i v ∧ v'.status = v.status) ∨
      v'.status = .pending ∧ p v'.clauseId ∧ OfCircular s circularId' v' := by
  obtain ⟨hv', ⟨j, hj⟩, hcirc⟩ := (linked_iff (h.links hs)).1 hlinked
  rcases h.added i v' hv' with ⟨v, hv, hst, hk, hlink⟩ | ⟨hst, hp⟩
  · refine .inl ⟨v, (linked_iff hs).2 ⟨hv, ⟨j, hlink j hj⟩, ?_⟩, hst⟩
    exact hcirc.of_identity h.clauses hk
  · exact .inr ⟨hst, hp, hcirc.of_identity h.clauses rfl⟩

/-- A circular that is not the one of the document has the linked reviews it had. -/
theorem Ingests.linked {circularId' : Nat} (h : Ingests s t circularId) (hne : circularId' ≠ circularId)
    (hlinked : Linked t circularId' i v) : Linked s circularId' i v := by
  obtain ⟨hv, j, r, clause, hj, hr, hclause, hcirc⟩ := hlinked
  refine ⟨h.reviews ▸ hv, j, r, clause, hj, h.rules ▸ hr, ?_, hcirc⟩
  rcases h.added _ _ hclause with hold | hnew
  · exact hold
  · exact absurd (hcirc.symm.trans hnew) hne

/-- What an execution leaves open is open before it. -/
theorem Grows.pendingOrBlocking_nil {p : Nat → Prop} {clauseIds : List Nat}
    (h : Grows s s' circularId p) (hnil : pendingOrBlocking s' clauseIds = []) :
    pendingOrBlocking s clauseIds = [] := by
  rw [List.eq_nil_iff_forall_not_mem] at hnil ⊢
  rintro ⟨i, v⟩ hmem
  obtain ⟨hin, hopen⟩ := List.mem_filter.1 hmem
  obtain ⟨hv, hk⟩ := Table.mem_select.1 hin
  obtain ⟨v', hv', hst, hsev, hk'⟩ := h.kept i v hv
  refine hnil (i, v') (List.mem_filter.2 ⟨Table.mem_select.2 ⟨hv', ?_⟩, ?_⟩)
  · rw [hk']
    exact hk
  · simp only [isPending, decide_eq_true_eq, hst, hsev] at hopen ⊢
    exact hopen

/-- **After an execution** that approves its circular only where its linked reviews were resolved. -/
theorem execute_approvedClear {c : StageCall} (hs : Links s) (hclear : ApprovedClear s)
    (hingests : Ingests s t c.circularId)
    (hclauses : ∀ k ∈ c.clauseIds, ∃ clause, t.clauses.get? k = some clause ∧
      clause.circularId = c.circularId)
    (hcond : pendingOrBlocking t c.clauseIds = [] → Clear t c.circularId) :
    ApprovedClear (c.execute t).1 := by
  have ht : Links t := hs.congr hingests.rules hingests.reviews
  obtain ⟨hgrows, happroved⟩ := execute_grows c t
  intro circularId circular hget hstate i v' hlinked
  by_cases hthis : circularId = c.circularId
  · subst hthis
    have hnil := happroved circular hget hstate
    rcases hgrows.linked ht hlinked with ⟨v, hv, hst⟩ | ⟨hst, hk, -⟩
    · rw [hst]
      exact hcond (hgrows.pendingOrBlocking_nil hnil) i v hv
    · -- a new review is open
      have hmem : (i, v') ∈ pendingOrBlocking (c.execute t).1 c.clauseIds :=
        List.mem_filter.2 ⟨Table.mem_select.2 ⟨hlinked.1, decide_eq_true hk⟩, by
          simp [isPending, hst]⟩
      rw [hnil] at hmem
      cases hmem
  · rw [hgrows.circulars circularId hthis, hingests.circulars circularId hthis] at hget
    rcases hgrows.linked ht hlinked with ⟨v, hv, hst⟩ | ⟨-, hk, hcirc⟩
    · rw [hst]
      exact hclear circularId circular hget hstate i v (hingests.linked hthis hv)
    · obtain ⟨clause, hclause, hother⟩ := hcirc
      obtain ⟨clause', hclause', hown⟩ := hclauses _ hk
      obtain rfl := Option.some.inj (hclause.symm.trans hclause')
      exact absurd (hother.symm.trans hown) hthis

/-! ## Decisions -/

theorem ReviewStatus.eq_resolved {st : ReviewStatus} (hpending : st ≠ .pending)
    (hreview : st ≠ .inReview) (hrejected : st ≠ .rejected) (hrevision : st ≠ .revisionRequired) :
    st = .resolved := by
  cases st with
  | resolved => rfl
  | pending => exact absurd rfl hpending
  | inReview => exact absurd rfl hreview
  | rejected => exact absurd rfl hrejected
  | revisionRequired => exact absurd rfl hrevision

/-- What an approval does to the circulars: none changes but the one of the review, and that one is
approved where no review of its clauses is open or refused. -/
theorem settleCircular_approved {k : Nat} {review : HITLReview} {officer : String} {circular : Circular}
    (hreview : s.reviews.get? k = some review) (hst : review.status = .resolved)
    (hget : (settleCircular s k review officer).circulars.get? circularId = some circular) :
    s.circulars.get? circularId = some circular ∨
      ∀ i v, s.reviews.get? i = some v → OfCircular s circularId v → v.status = .resolved := by
  unfold settleCircular at hget
  split at hget
  · rename_i circularId' circular' hcircular
    split at hget
    · dsimp only at hget
      split at hget
      · rename_i hsettled
        by_cases hthis : circularId = circularId'
        · subst hthis
          refine .inr fun i v hv hcirc => ?_
          obtain ⟨clause, hclause, hown⟩ := hcirc
          have hmem : (i, v) ∈ s.reviews.select fun r =>
              r.clauseId ∈ (s.clauses.select fun c => c.circularId = circularId).map (·.1) :=
            Table.mem_select.2 ⟨hv, decide_eq_true (List.mem_map.2
              ⟨(v.clauseId, clause), Table.mem_select.2 ⟨hclause, decide_eq_true hown⟩, rfl⟩)⟩
          have hunresolved := List.filter_eq_nil_iff.1 hsettled.2.1 (i, v) hmem
          have hdisqualified := List.filter_eq_nil_iff.1 hsettled.2.2 (i, v) hmem
          simp only [decide_eq_true_eq, not_or, not_and] at hunresolved hdisqualified
          by_cases hi : i = k
          · subst hi
            rw [← Option.some.inj (hreview.symm.trans hv)]
            exact hst
          · have hopen := hunresolved.2 hi
            exact ReviewStatus.eq_resolved hopen.1 hopen.2 hdisqualified.1 hdisqualified.2
        · simp only [Table.get?_update, if_neg hthis] at hget
          exact .inl hget
      · exact .inl hget
    · exact .inl hget
  · exact .inl hget

/-- An approval approves the circular of its review where all reviews of its clauses are resolved. -/
theorem settleCircular_settles {k : Nat} {review : HITLReview} {clause : Clause} {circular : Circular}
    (officer : String) (hst : review.status = .resolved)
    (hclause : s.clauses.get? review.clauseId = some clause)
    (hcircular : s.circulars.get? clause.circularId = some circular)
    (hstate : circular.processingState = .awaitingHitl)
    (hresolved : ∀ i v, s.reviews.get? i = some v → OfCircular s clause.circularId v →
      v.status = .resolved) :
    ((settleCircular s k review officer).circulars.get? clause.circularId).map (·.processingState) =
      some .approved := by
  have hof : s.circularOf review = some (clause.circularId, circular) := by
    simp [Store.circularOf, hclause, hcircular]
  have hall : ∀ x ∈ s.reviews.select fun r =>
      r.clauseId ∈ (s.clauses.select fun c => c.circularId = clause.circularId).map (·.1),
      x.2.status = .resolved := by
    intro x hx
    obtain ⟨hv, hk⟩ := Table.mem_select.1 hx
    obtain ⟨y, hy, hyk⟩ := List.mem_map.1 (of_decide_eq_true hk)
    obtain ⟨hrow, hown⟩ := Table.mem_select.1 hy
    exact hresolved x.1 x.2 hv ⟨y.2, hyk ▸ hrow, of_decide_eq_true hown⟩
  have hmem : review.clauseId ∈
      (s.clauses.select fun c => c.circularId = clause.circularId).map (·.1) :=
    List.mem_map.2 ⟨(review.clauseId, clause), Table.mem_select.2 ⟨hclause, by simp⟩, rfl⟩
  simp only [settleCircular, hof, hstate, if_true]
  rw [if_pos]
  · simp only [Table.get?_update, if_true, hcircular, Option.map_some]
  · refine ⟨List.ne_nil_of_mem hmem, List.filter_eq_nil_iff.2 fun x hx => ?_,
      List.filter_eq_nil_iff.2 fun x hx => ?_⟩
    · simp [hst, hall x hx]
    · simp [hall x hx]

theorem settleCircular_keeps_approved {k : Nat} {review : HITLReview} {circular : Circular}
    (officer : String) (hcircular : s.circulars.get? circularId = some circular)
    (hstate : circular.processingState = .approved) :
    (settleCircular s k review officer).circulars.get? circularId = some circular := by
  unfold settleCircular
  split
  · rename_i circularId' circular' hof
    split
    · rename_i hawaiting
      dsimp only
      split
      · have hne : circularId ≠ circularId' := by
          rintro rfl
          obtain ⟨clause, -, hof⟩ := Option.bind_eq_some_iff.1 hof
          obtain ⟨circular'', hget, hpair⟩ := Option.map_eq_some_iff.1 hof
          obtain ⟨hid, rfl⟩ := Prod.mk.inj hpair
          rw [hid, hcircular, Option.some.injEq] at hget
          rw [← hget, hstate] at hawaiting
          cases hawaiting
        simp only [Table.get?_update, if_neg hne, hcircular]
      · exact hcircular
    · exact hcircular
  · exact hcircular

/-- A circular that a rejection leaves approved is not the one of its review. -/
theorem failCircular_approved {closed : HITLReview} {officer : String} {circular : Circular}
    (hget : (failCircular s closed officer).circulars.get? circularId = some circular)
    (hstate : circular.processingState = .approved) :
    s.circulars.get? circularId = some circular ∧ ¬ OfCircular s circularId closed := by
  unfold failCircular at hget
  split at hget
  · rename_i circularId' circular' hof
    obtain ⟨clause, hclause, hof⟩ := Option.bind_eq_some_iff.1 hof
    obtain ⟨circular'', hrow, hpair⟩ := Option.map_eq_some_iff.1 hof
    obtain ⟨rfl, rfl⟩ := Prod.mk.inj hpair
    have hown : OfCircular s circularId closed → circularId = clause.circularId := by
      rintro ⟨clause', hclause', rfl⟩
      rw [Option.some.inj (hclause.symm.trans hclause')]
    split at hget
    · by_cases hthis : circularId = clause.circularId
      · subst hthis
        simp only [Table.get?_update, if_true] at hget
        obtain ⟨_, -, rfl⟩ := Option.map_eq_some_iff.1 hget
        cases hstate
      · simp only [Table.get?_update, if_neg hthis] at hget
        exact ⟨hget, fun h => hthis (hown h)⟩
    · rename_i hfailed
      refine ⟨hget, fun h => ?_⟩
      obtain rfl := hown h
      rw [hrow, Option.some.injEq] at hget
      rw [hget, hstate] at hfailed
      exact hfailed (by simp)
  · rename_i hof
    refine ⟨hget, ?_⟩
    rintro ⟨clause, hclause, rfl⟩
    simp [Store.circularOf, hclause, hget] at hof

/-- A linked review after a decision: the one that was decided, or an old one. -/
theorem Decides.linked {k : Nat} {review closed v' : HITLReview} (h : Decides s s' k review closed)
    (hs : Links s) (hlinked : Linked s' circularId i v') :
    (i = k ∧ v' = closed) ∨ Linked s circularId i v' := by
  obtain ⟨hv', hj, clause, hclause, hcirc⟩ := (linked_iff (hs.decides h)).1 hlinked
  obtain ⟨v, hv, -, -, -, -, hclosed | rfl⟩ := h.back hv'
  · exact .inl hclosed
  · exact .inr ((linked_iff hs).2 ⟨hv, hj, clause, h.clauses ▸ hclause, hcirc⟩)

/-- **A decision approves no circular with an open review**, and opens none of an approved one. -/
theorem review_approvedClear {c : ReviewCall} (hs : Links s) (hclear : ApprovedClear s)
    (h : c.result s = .ok s') : ApprovedClear s' := by
  obtain ⟨k, review, closed, u, -, hdecides, hst, hs', hreviews, hclauses, hcirculars, hunlinked⟩ :=
    result_decides h
  have hk : u.reviews.get? k = some closed := by
    rw [hreviews, hdecides.closes.reviews]
    exact Table.get?_update_self _ hdecides.closes.found
  intro circularId circular hget hstate i v' hlinked
  obtain ⟨hv', -, hcirc⟩ := (linked_iff (hs.decides hdecides)).1 hlinked
  have hcirc' : OfCircular u circularId v' := by
    obtain ⟨clause, hclause, hown⟩ := hcirc
    exact ⟨clause, by rw [hclauses, ← hdecides.clauses, hclause], hown⟩
  -- a circular that was approved before has its old reviews, and the decided one
  have hold : s.circulars.get? circularId = some circular → v' ≠ closed → v'.status = .resolved := by
    intro hbefore hne
    rcases hdecides.linked hs hlinked with ⟨-, rfl⟩ | hlinked
    · exact absurd rfl hne
    · exact hclear circularId circular hbefore hstate i v' hlinked
  cases hverdict : c.verdict with
  | approve =>
    rw [hverdict] at hs' hst
    by_cases heq : v' = closed
    · rw [heq, hst]
      rfl
    · rw [hs', Verdict.settle] at hget
      rcases settleCircular_approved hk hst hget with hbefore | hall
      · exact hold (hcirculars ▸ hbefore) heq
      · exact hall i v' (hreviews ▸ hv') hcirc'
  | reject =>
    rw [hverdict] at hs'
    rw [hs', Verdict.settle] at hget
    obtain ⟨hbefore, hnot⟩ := failCircular_approved hget hstate
    refine hold (hcirculars ▸ hbefore) ?_
    rintro rfl
    exact hnot hcirc'
  | requestRevision =>
    rw [hverdict] at hs'
    rw [hs', Verdict.settle, hcirculars] at hget
    refine hold hget ?_
    rintro rfl
    obtain ⟨-, ⟨j, hj⟩, -⟩ := (linked_iff (hs.decides hdecides)).1 hlinked
    rw [hunlinked hverdict] at hj
    cases hj

/-- Every clause of the circular has a compiled rule. -/
def AllCompiled (s : Store) (circularId : Nat) : Prop :=
  ∀ k clause, s.clauses.get? k = some clause → clause.circularId = circularId →
    ∃ j r, s.rules.get? j = some r ∧ r.clauseId = k ∧ isCompiledRule r = true

/-- An approval after which all linked reviews of the circular are resolved and its clauses compiled
leaves the circular approved. -/
def ApprovesLast (s : Store) (call : ReviewCall) : Prop :=
  ∀ k review clause circular s', getReviewOr404 s call.reviewId = .ok (k, review) →
    s.clauses.get? review.clauseId = some clause →
    s.circulars.get? clause.circularId = some circular → call.result s = .ok s' →
    Clear s' clause.circularId → AllCompiled s' clause.circularId →
    (s'.circulars.get? clause.circularId).map (·.processingState) = some .approved

/-- Where every other linked review of its circular is resolved, the circular awaits the approval (or
is approved), and no other review of its clauses is unlinked and not resolved. -/
def NothingUnlinked (s : Store) (call : ReviewCall) : Prop :=
  ∀ k review clause circular, getReviewOr404 s call.reviewId = .ok (k, review) →
    s.clauses.get? review.clauseId = some clause →
    s.circulars.get? clause.circularId = some circular →
    (∀ i v, i ≠ k → Linked s clause.circularId i v → v.status = .resolved) →
    (circular.processingState = .awaitingHitl ∨ circular.processingState = .approved) ∧
    ∀ i v, i ≠ k → s.reviews.get? i = some v → OfCircular s clause.circularId v →
      v.compiledRuleId = none → v.status = .resolved

/-- **The last approval moves the circular** where no unlinked review is left. -/
theorem approvesLast {call : ReviewCall} (hs : Links s) (hverdict : call.verdict = .approve)
    (hcond : NothingUnlinked s call) : ApprovesLast s call := by
  intro k review clause circular s' hget hclause hcircular hresult hclear _
  obtain ⟨k', review', closed, u, hget', hdecides, hst, hs', hreviews, hclauses, hcirculars, -⟩ :=
    result_decides hresult
  obtain ⟨rfl, rfl⟩ := Prod.mk.inj (Except.ok.inj (hget.symm.trans hget'))
  rw [hverdict] at hst hs'
  have hother : ∀ i, i ≠ k → s'.reviews.get? i = s.reviews.get? i := by
    intro i hi
    rw [hdecides.closes.reviews, Table.get?_update, if_neg hi]
  have hlinked : ∀ i v, i ≠ k → Linked s clause.circularId i v → v.status = .resolved := by
    intro i v hi hlinked
    obtain ⟨hv, hj, clause', hclause', hown⟩ := (linked_iff hs).1 hlinked
    refine hclear i v ((linked_iff (hs.decides hdecides)).2 ⟨?_, hj, clause', ?_, hown⟩)
    · rw [hother i hi, hv]
    · rw [hdecides.clauses, hclause']
  obtain ⟨hstate, hunlinked⟩ := hcond k review clause circular hget hclause hcircular hlinked
  rw [hs', Verdict.settle]
  rcases hstate with hawaiting | happroved
  · refine settleCircular_settles call.officer hst ?_ (hcirculars ▸ hcircular) hawaiting
      fun i v hv hcirc => ?_
    · rw [hclauses, hdecides.clauseId, hclause]
    · rw [hreviews] at hv
      obtain ⟨clause', hclause', hown⟩ := hcirc
      rw [hclauses] at hclause'
      by_cases hi : i = k
      · rw [hi, hdecides.closes.reviews, Table.get?_update_self _ hdecides.closes.found,
          Option.some.injEq] at hv
        rw [← hv]
        exact hst
      · rw [hother i hi] at hv
        cases hj : v.compiledRuleId with
        | none => exact hunlinked i v hi hv ⟨clause', hclause', hown⟩ hj
        | some j =>
          exact hlinked i v hi ((linked_iff hs).2 ⟨hv, ⟨j, hj⟩, clause', hclause', hown⟩)
  · rw [settleCircular_keeps_approved call.officer (hcirculars ▸ hcircular) happroved, Option.map_some,
      happroved]

end

/-! ## Runs -/

section
variable (nfkc : String → String) (decode : List UInt8 → String)

/-- The circulars after an event: a last approval has approved its circular, and no approved circular
has an open review. -/
structure SettlesCirculars (s : Store) (e : Event) : Prop where
  last : ∀ call, e = .review call → call.verdict = .approve → ApprovesLast s call
  never : ApprovedClear (e.step nfkc decode s)

/-- What a run has to keep to. -/
structure Orderly (s : Store) (e : Event) : Prop where
  approvals : ∀ call, e = .review call → call.verdict = .approve → NothingUnlinked s call
  executions : AtStages nfkc decode
    (fun c t => pendingOrBlocking t c.clauseIds = [] → Clear t c.circularId) s e

end

section
variable {nfkc : String → String} {decode : List UInt8 → String} {s : Store}

theorem Links.step (hs : Links s) (e : Event) : Links (e.step nfkc decode s) := by
  cases hstages : e.stages nfkc decode s with
  | some x =>
    rw [step_of_stages hstages]
    have hingests := (stages_store hstages).1
    exact (execute_grows x.1 x.2).1.links (hs.congr hingests.rules hingests.reviews)
  | none =>
    by_cases he : ∃ call, e = .review call
    · obtain ⟨call, rfl⟩ := he
      simp only [Event.step, commit]
      split
      · rename_i s' hresult
        obtain ⟨k, review, closed, u, -, hdecides, -⟩ := result_decides hresult
        exact hs.decides hdecides
      · exact hs
    · rcases step_of_not_stages (fun call hcall => he ⟨call, hcall⟩) hstages with hsame | ⟨i, hi, -⟩
      · rw [hsame]
        exact hs
      · exact hs.congr hi.rules hi.reviews

theorem Orderly.settles {e : Event} (hs : Links s) (hclear : ApprovedClear s)
    (h : Orderly nfkc decode s e) : SettlesCirculars nfkc decode s e := by
  refine ⟨fun call he hverdict => approvesLast hs hverdict (h.approvals call he hverdict), ?_⟩
  cases hstages : e.stages nfkc decode s with
  | some x =>
    rw [step_of_stages hstages]
    obtain ⟨hingests, hclauses⟩ := stages_store hstages
    exact execute_approvedClear hs hclear hingests hclauses (h.executions x.1 x.2 hstages)
  | none =>
    by_cases he : ∃ call, e = .review call
    · obtain ⟨call, rfl⟩ := he
      simp only [Event.step, commit]
      split
      · exact review_approvedClear hs hclear ‹_›
      · exact hclear
    · rcases step_of_not_stages (fun call hcall => he ⟨call, hcall⟩) hstages with
        hsame | ⟨circularId, hingests, hnot⟩
      · rw [hsame]
        exact hclear
      · intro circularId' circular hget hstate i v hlinked
        by_cases hthis : circularId' = circularId
        · subst hthis
          exact absurd hstate (hnot circular hget)
        · rw [hingests.circulars circularId' hthis] at hget
          exact hclear circularId' circular hget hstate i v (hingests.linked hthis hlinked)

theorem along_settles : ∀ {events : List Event} {s : Store}, Links s → ApprovedClear s →
    Along nfkc decode (Orderly nfkc decode) s events →
    Along nfkc decode (SettlesCirculars nfkc decode) s events
  | [], _, _, _, _ => trivial
  | e :: _, _, hs, hclear, h =>
    ⟨h.1.settles hs hclear, along_settles (hs.step e) (h.1.settles hs hclear).never h.2⟩

end

/-- **A circular is approved exactly when nothing is open**, in a run that is orderly, from a database
without reviews. -/
theorem circular_settled_run (nfkc : String → String) (decode : List UInt8 → String) (s : Store)
    (hreviews : s.reviews = Table.empty) (events : List Event)
    (h : Along nfkc decode (Orderly nfkc decode) s events) :
    Along nfkc decode (SettlesCirculars nfkc decode) s events := by
  refine along_settles (links_of_none hreviews) ?_ h
  intro circularId circular _ _ i v hlinked
  have hv := hlinked.1
  rw [hreviews] at hv
  simp at hv

/-! ## One clause with an advisory flag -/

def oneClause : Store :=
  { sampleClauses with clauses := Table.empty.insert (sampleClause "1" 'a') }

/-- The clause is compiled; its rule has an advisory flag. -/
def compileOne : Event :=
  .resume 1 "sebi_baseline" (sampleOutside fun _ => .ok (approvedRule "Broker"))

/-- The flag is approved, and with it the circular. -/
theorem approved_last :
    Along id (fun _ => "") (SettlesCirculars id fun _ => "") oneClause
      [compileOne, .review (sampleCall .approve "f")] ∧
    ((eventRun id (fun _ => "") oneClause
      [compileOne, .review (sampleCall .approve "f")]).circulars.get? 1).map (·.processingState) =
        some .approved := by
  refine ⟨circular_settled_run id (fun _ => "") oneClause rfl _ ⟨⟨?_, ?_⟩, ⟨?_, ?_⟩, trivial⟩,
    by decide +kernel⟩
  · intro call he
    cases he
  · intro c t hstages _ i v hlinked
    have hv := hlinked.1
    rw [(stages_store hstages).1.reviews] at hv
    cases hv
  · rintro call he - k review clause circular hget hclause hcircular -
    have hrows : (compileOne.step id (fun _ => "") oneClause).reviews.rows.map (·.1) = [1] := by
      decide +kernel
    have hclauses : (compileOne.step id (fun _ => "") oneClause).clauses.rows.map (·.2.circularId) =
        [1] := by
      decide +kernel
    have hstate : ((compileOne.step id (fun _ => "") oneClause).circulars.get? 1).map
        (·.processingState) = some .awaitingHitl := by
      decide +kernel
    have honly : ∀ i v, (compileOne.step id (fun _ => "") oneClause).reviews.get? i = some v →
        i = 1 := by
      intro i v hv
      have hmem := List.mem_map_of_mem (f := (·.1)) (Table.get?_eq_some_iff.1 hv)
      rw [hrows] at hmem
      exact List.mem_singleton.1 hmem
    have hcirc : clause.circularId = 1 := by
      have hmem := List.mem_map_of_mem (f := (·.2.circularId)) (Table.get?_eq_some_iff.1 hclause)
      rw [hclauses] at hmem
      exact List.mem_singleton.1 hmem
    rw [hcirc] at hcircular
    rw [hcircular, Option.map_some, Option.some.injEq] at hstate
    refine ⟨.inl hstate, fun i v hne hv => absurd ?_ hne⟩
    rw [honly i v hv, honly k review (getReviewOr404_ok hget)]
  · intro c t hstages
    cases hstages

/-- The flag is rejected, and the circular resumed. -/
def rejectedRun : List Event := [compileOne, .review (sampleCall .reject "f"), compileOne]

/-- **A rejected advisory review does not stop the stages**: the circular fails with the rejection, and
is approved when it is resumed. -/
theorem rejected_then_approved :
    ((eventRun id (fun _ => "") oneClause rejectedRun).circulars.get? 1).map (·.processingState) =
      some .approved ∧
    ((eventRun id (fun _ => "") oneClause rejectedRun).reviews.get? 1).map
      (fun v => (v.compiledRuleId, v.status)) = some (some 1, .rejected) ∧
    ¬ Along id (fun _ => "") (SettlesCirculars id fun _ => "") oneClause rejectedRun := by
  have hstate : ((eventRun id (fun _ => "") oneClause rejectedRun).circulars.get? 1).map
      (·.processingState) = some .approved := by
    decide +kernel
  have hreview : ((eventRun id (fun _ => "") oneClause rejectedRun).reviews.get? 1).map
      (fun v => (v.compiledRuleId, v.status)) = some (some 1, .rejected) := by
    decide +kernel
  have hrule : ((eventRun id (fun _ => "") oneClause rejectedRun).rules.get? 1).map
      (·.clauseId) = some 1 := by
    decide +kernel
  have hclause : ((eventRun id (fun _ => "") oneClause rejectedRun).clauses.get? 1).map
      (·.circularId) = some 1 := by
    decide +kernel
  refine ⟨hstate, hreview, fun h => ?_⟩
  obtain ⟨circular, hcircular, hstate⟩ := Option.map_eq_some_iff.1 hstate
  obtain ⟨v, hv, hpair⟩ := Option.map_eq_some_iff.1 hreview
  obtain ⟨hlink, hst⟩ := Prod.mk.inj hpair
  obtain ⟨r, hr, hk⟩ := Option.map_eq_some_iff.1 hrule
  obtain ⟨clause, hclause, hcirc⟩ := Option.map_eq_some_iff.1 hclause
  have hresolved := h.2.2.1.never 1 circular hcircular hstate 1 v
    ⟨hv, 1, r, clause, hlink, hr, hk.symm ▸ hclause, hcirc⟩
  rw [hst] at hresolved
  cases hresolved

end RegEngine.Hitl
