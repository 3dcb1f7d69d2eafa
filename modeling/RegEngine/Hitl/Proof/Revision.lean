import RegEngine.Hitl.Proof.Review

/-!
# Rejections and revision requests

A rule is `Blocked` when no pending review of it is left, or when one of its reviews is neither
pending nor resolved: no call of the review service then activates it (`not_activates_of_blocked`),
and every call keeps that (`blocked_result`).

* `revision_blocks_activation`: a rejection always blocks its rule; a revision request, which unlinks
  its review, blocks the rule when the other reviews do.
* `request_revision_documented_iff`: when a revision request ends as its documentation says.
-/

namespace RegEngine.Hitl

open Lib Lib.Calendar

/-- No pending review of the rule, or one that is closed otherwise than resolved. -/
def Blocked (s : Store) (rule : Nat) : Prop :=
  (∀ x ∈ s.reviewsOf rule, x.2.status ≠ .pending) ∨
    ∃ x ∈ s.reviewsOf rule, x.2.status ≠ .pending ∧ x.2.status ≠ .resolved

def Inactive (s : Store) (rule : Nat) : Prop :=
  ∀ r, s.rules.get? rule = some r → r.isActive = false

section
variable {s s' : Store} {c : ReviewCall} {rule : Nat}

theorem not_activates_of_blocked (h : Blocked s rule) (c : ReviewCall) :
    c.activates s ≠ some rule := by
  intro hact
  obtain ⟨k, review, r, hget, hpending, hlink, -, hall⟩ := activates_some hact
  have hk : (k, review) ∈ s.reviewsOf rule := mem_reviewsOf.2 ⟨getReviewOr404_ok hget, hlink⟩
  rcases h with h | ⟨x, hx, hnp, hnr⟩
  · exact h _ hk hpending
  · by_cases hxk : x.1 = k
    · -- two rows under one key are one row
      have hrow := (mem_reviewsOf.1 hx).1
      rw [hxk, getReviewOr404_ok hget] at hrow
      exact hnp (Option.some.inj hrow ▸ hpending)
    · exact hnr (hall x hx hxk)

theorem blocked_result (h : Blocked s rule) (hc : c.result s = .ok s') : Blocked s' rule := by
  obtain ⟨k, review, closed, -, hcl⟩ := result_closes hc
  rcases h with h | ⟨x, hx, hnp, hnr⟩
  · -- the closed review is not one of this rule's
    have hk : ∀ y ∈ s'.reviewsOf rule, y.1 ≠ k := by
      rintro ⟨i, y⟩ hy rfl
      obtain ⟨hrow, hlink⟩ := mem_reviewsOf.1 hy
      rw [hcl.reviews, Table.get?_update, if_pos rfl, hcl.found, Option.map_some,
        Option.some.injEq] at hrow
      rw [← hrow] at hlink
      rcases hcl.link with hl | hl
      · exact h (i, review) (mem_reviewsOf.2 ⟨hcl.found, hl.symm.trans hlink⟩) hcl.pending
      · simp [hl] at hlink
    exact .inl fun y hy => h y ((hcl.mem_reviewsOf_iff (hk y hy)).1 hy)
  · have hxk : x.1 ≠ k := by
      intro hxk
      have hrow := (mem_reviewsOf.1 hx).1
      rw [hxk, hcl.found] at hrow
      exact hnp (Option.some.inj hrow ▸ hcl.pending)
    exact .inr ⟨x, (hcl.mem_reviewsOf_iff hxk).2 hx, hnp, hnr⟩

theorem inactive_result (hb : Blocked s rule) (hi : Inactive s rule) (hc : c.result s = .ok s') :
    Inactive s' rule := by
  intro r' hr'
  by_contra ha
  obtain ⟨r, hr, -, -, hor⟩ := result_active hc hr' (by simpa using ha)
  rcases hor with hact | hact
  · simp [hi r hr] at hact
  · exact not_activates_of_blocked hb c hact

/-- What a blocked, inactive rule keeps over any calls. -/
theorem blocked_run : ∀ (calls : List ReviewCall) {s : Store}, Blocked s rule → Inactive s rule →
    Blocked (reviewRun s calls) rule ∧ Inactive (reviewRun s calls) rule
  | [], _, hb, hi => ⟨hb, hi⟩
  | c :: calls, s, hb, hi => by
    cases hc : c.result s with
    | error e => simpa [reviewRun, commit, hc] using blocked_run calls hb hi
    | ok s' =>
      simpa [reviewRun, commit, hc] using
        blocked_run calls (blocked_result hb hc) (inactive_result hb hi hc)

end

/-- What a revision request on review `k` needs to block its rule: no other review of the rule is
pending, or one of them is neither pending nor resolved. -/
def OthersBlock (s : Store) (k rule : Nat) : Prop :=
  (∀ x ∈ s.reviewsOf rule, x.1 ≠ k → x.2.status ≠ .pending) ∨
    ∃ x ∈ s.reviewsOf rule, x.1 ≠ k ∧ x.2.status ≠ .pending ∧ x.2.status ≠ .resolved

theorem blocked_of_reject {s s' : Store} {c : ReviewCall} {k rule : Nat} {review : HITLReview}
    (hverdict : c.verdict = .reject) (hc : c.result s = .ok s')
    (hk : getReviewOr404 s c.reviewId = .ok (k, review)) (hlink : review.compiledRuleId = some rule) :
    Blocked s' rule ∧ Inactive s' rule := by
  simp only [ReviewCall.result, hverdict] at hc
  obtain ⟨k', review', hget, hpending, rfl⟩ := rejectReview_ok hc
  obtain ⟨rfl, rfl⟩ := Prod.mk.inj (Except.ok.inj (hk.symm.trans hget))
  constructor
  · refine .inr ⟨(k, review.close .rejected c.officer c.notes c.now), mem_reviewsOf.2 ⟨?_, hlink⟩, ?_⟩
    · simp [refuse, Table.get?_update, getReviewOr404_ok hget]
    · simp [HITLReview.close]
  · intro r hr
    simp only [refuse, failCircular_rules, updateRuleOf, hlink, Table.get?_update, if_true,
      Option.map_eq_some_iff] at hr
    obtain ⟨_, -, rfl⟩ := hr
    rfl

theorem blocked_of_revision {s s' : Store} {c : ReviewCall} {k rule : Nat} {review : HITLReview}
    (hverdict : c.verdict = .requestRevision) (hc : c.result s = .ok s')
    (hk : getReviewOr404 s c.reviewId = .ok (k, review)) (hlink : review.compiledRuleId = some rule)
    (hothers : OthersBlock s k rule) : Blocked s' rule ∧ Inactive s' rule := by
  obtain ⟨i, old, closed, hget, hcl⟩ := result_closes hc
  obtain ⟨rfl, rfl⟩ := Prod.mk.inj (Except.ok.inj (hk.symm.trans hget))
  simp only [ReviewCall.result, hverdict] at hc
  obtain ⟨i, old, hget', -, rfl⟩ := requestRevision_ok hc
  obtain ⟨rfl, rfl⟩ := Prod.mk.inj (Except.ok.inj (hk.symm.trans hget'))
  constructor
  · rcases hothers with h | ⟨x, hx, hxk, hst⟩
    · refine .inl fun x hx => ?_
      by_cases hxk : x.1 = k
      · -- the revised review has no rule any more
        have hrow := mem_reviewsOf.1 hx
        simp only [revise, hxk, Table.get?_update, if_true, getReviewOr404_ok hget,
          Option.map_some, Option.some.injEq] at hrow
        simp [← hrow.1] at hrow
      · exact h x ((hcl.mem_reviewsOf_iff hxk).1 hx) hxk
    · exact .inr ⟨x, (hcl.mem_reviewsOf_iff hxk).2 hx, hst⟩
  · intro r hr
    simp only [revise, updateRuleOf, hlink, Table.get?_update, if_true,
      Option.map_eq_some_iff] at hr
    obtain ⟨_, -, rfl⟩ := hr
    rfl

/-- **After a review of a rule was rejected, or sent back while the other reviews block the rule, no
sequence of calls makes the rule active.** -/
theorem revision_blocks_activation (s s' : Store) (c : ReviewCall) (k rule : Nat)
    (review : HITLReview) (hverdict : c.verdict ≠ .approve) (hc : c.result s = .ok s')
    (hk : getReviewOr404 s c.reviewId = .ok (k, review)) (hlink : review.compiledRuleId = some rule)
    (hothers : c.verdict = .requestRevision → OthersBlock s k rule) (calls : List ReviewCall) :
    (∀ c' : ReviewCall, c'.activates (reviewRun s' calls) ≠ some rule) ∧
      ∀ r, (reviewRun s' calls).rules.get? rule = some r → r.isActive = false := by
  have hblocked : Blocked s' rule ∧ Inactive s' rule := by
    cases hv : c.verdict with
    | approve => exact absurd hv hverdict
    | reject => exact blocked_of_reject hv hc hk hlink
    | requestRevision => exact blocked_of_revision hv hc hk hlink (hothers hv)
  obtain ⟨hb, hi⟩ := blocked_run calls hblocked.1 hblocked.2
  exact ⟨not_activates_of_blocked hb, hi⟩

/-- The store after the pipeline compiled two clauses: rule 1 has the reviews `v1` and `v2`, rule 2
has `v3`. -/
def sampleStore : Store :=
  run sampleClauses
    [.compileAndPersistRules 1 "aa:1" "sebi_baseline"
        (sampleCompilation [sampleFlag "v1" .ambiguousSpan, sampleFlag "v2" .unresolvedEntity]) [],
      .compileAndPersistRules 2 "bb:2" "sebi_baseline"
        (sampleCompilation [sampleFlag "v3" .ambiguousSpan]) []]

/-- `v2` is rejected, so the request on `v1` leaves rule 1 blocked. -/
theorem revision_blocks_activation_rejected :
    ∃ s', (sampleCall .requestRevision "v1").result
        (reviewRun sampleStore [sampleCall .reject "v2"]) = .ok s' ∧
      ∀ c' : ReviewCall, c'.activates (reviewRun s' [sampleCall .approve "v2"]) ≠ some 1 := by
  have hothers : OthersBlock (reviewRun sampleStore [sampleCall .reject "v2"]) 1 1 :=
    .inr ⟨(2, _), mem_reviewsOf.2 ⟨rfl, rfl⟩, by decide, by decide, by decide⟩
  exact ⟨_, rfl, (revision_blocks_activation _ _ (sampleCall .requestRevision "v1") 1 1 _ (by decide)
    rfl rfl rfl (fun _ => hothers) [sampleCall .approve "v2"]).1⟩

/-- The circular has failed (`v3` is rejected); `v1` is sent back, and the approval of `v2` alone
activates rule 1. -/
theorem revision_then_approval :
    ∃ s' review, (sampleCall .requestRevision "v1").result
        (reviewRun sampleStore [sampleCall .reject "v3"]) = .ok s' ∧
      getReviewOr404 (reviewRun sampleStore [sampleCall .reject "v3"]) "v1" = .ok (1, review) ∧
      review.compiledRuleId = some 1 ∧
      (sampleCall .approve "v2").activates s' = some 1 :=
  ⟨_, _, rfl, rfl, rfl, by decide +kernel⟩

/-! ## What a revision request ends in -/

/-- The constraint `uq_hitl_reviews_review_id`. -/
def UniqueReviewIds (s : Store) : Prop :=
  ∀ i j r r', s.reviews.get? i = some r → s.reviews.get? j = some r' → r.reviewId = r'.reviewId → i = j

/-- The review of a successful request, its rule and its clause. -/
structure Revised (s s' : Store) (k : Nat) (review : HITLReview) : Prop where
  status : ∃ r, s'.reviews.get? k = some r ∧ r.status = .revisionRequired
  rule : ∀ ruleKey, review.compiledRuleId = some ruleKey → ∀ r, s'.rules.get? ruleKey = some r →
    r.isActive = false ∧ r.isCompiled = false
  clause : ∀ clause, s'.clauses.get? review.clauseId = some clause →
    clause.processingStatus = .extracting

/-- The request raises 404 for a missing review, raises 409 for a closed one, or succeeds. -/
inductive Documented (s : Store) (reviewId : String) : Except Error Store → Prop
  | notFound (detail : String) : (∀ k r, s.reviews.get? k = some r → r.reviewId ≠ reviewId) →
      Documented s reviewId (.error (.httpException 404 detail))
  | conflict (detail : String) {k : Nat} {r : HITLReview} : s.reviews.get? k = some r →
      r.reviewId = reviewId → r.status ≠ .pending →
      Documented s reviewId (.error (.httpException 409 detail))
  | revised {s' : Store} {k : Nat} {r : HITLReview} : s.reviews.get? k = some r →
      r.reviewId = reviewId → r.status = .pending → Revised s s' k r → Documented s reviewId (.ok s')

/-- The circular of a review would go back to `EXTRACTING`. -/
def SentBack (s : Store) (review : HITLReview) : Prop :=
  ∃ c, s.circularOf review = some c ∧
    (c.2.processingState = .awaitingHitl ∨ c.2.processingState = .approved)

/-- The circular is not sent back, and the clause waits for its extraction already. -/
def NothingToSendBack (s : Store) (review : HITLReview) : Prop :=
  ¬ SentBack s review ∧
    ∀ clause, s.clauses.get? review.clauseId = some clause → clause.processingStatus = .extracting

/-- The row of a review id, where the ids are unique. -/
theorem getReviewOr404_unique {s : Store} (h : UniqueReviewIds s) (reviewId : String) :
    (getReviewOr404 s reviewId = .error (.httpException 404 ("No HITL review '" ++ reviewId ++ "'.")) ∧
      ∀ k r, s.reviews.get? k = some r → r.reviewId ≠ reviewId) ∨
    ∃ k r, getReviewOr404 s reviewId = .ok (k, r) ∧ s.reviews.get? k = some r ∧
      r.reviewId = reviewId := by
  have hone := Table.select_eq_nil_or_singleton (t := s.reviews) (p := fun r => r.reviewId = reviewId)
    fun i j a b ha hb hpa hpb =>
      h i j a b ha hb ((of_decide_eq_true hpa).trans (of_decide_eq_true hpb).symm)
  unfold getReviewOr404
  rcases hone with hnil | ⟨⟨k, r⟩, hr⟩
  · refine .inl ⟨by rw [hnil], fun k r hget hid => ?_⟩
    have hmem : (k, r) ∈ s.reviews.select fun r => r.reviewId = reviewId :=
      Table.mem_select.2 ⟨hget, decide_eq_true hid⟩
    rw [hnil] at hmem
    cases hmem
  · obtain ⟨hget, hid⟩ := Table.get?_of_select_eq hr
    exact .inr ⟨k, r, by rw [hr], hget, of_decide_eq_true hid⟩

theorem requestRevision_of_pending {s : Store} {reviewId : String} {k : Nat} {review : HITLReview}
    (hget : getReviewOr404 s reviewId = .ok (k, review)) (hst : review.status = .pending)
    (officer : String) (notes : Option String) (now : DateTime) :
    (SentBack s review ∧ requestRevision s reviewId officer notes now =
      .error (.nameError "ClauseProcessingState")) ∨
    (¬ SentBack s review ∧ requestRevision s reviewId officer notes now =
      .ok (revise s k review officer notes now)) := by
  unfold requestRevision
  rw [pendingReview_eq_ok hget hst]
  cases hof : s.circularOf review with
  | none =>
    refine .inr ⟨fun ⟨c, hc, _⟩ => ?_, by simp [bind, Except.bind, hof]; rfl⟩
    rw [hof] at hc
    cases hc
  | some c =>
    by_cases hstate : c.2.processingState = .awaitingHitl ∨ c.2.processingState = .approved
    · refine .inl ⟨⟨c, hof, hstate⟩, ?_⟩
      simp [bind, Except.bind, hof, hstate]
      rfl
    · refine .inr ⟨fun ⟨c', hc', hstate'⟩ => ?_, ?_⟩
      · rw [hof] at hc'
        cases hc'
        exact hstate hstate'
      · simp [bind, Except.bind, hof, hstate]
        rfl

theorem revise_rule {s : Store} {k : Nat} {review : HITLReview} {officer : String}
    {notes : Option String} {now : DateTime} {ruleKey : Nat} (hlink : review.compiledRuleId = some ruleKey)
    {r : CompiledRule} (hr : (revise s k review officer notes now).rules.get? ruleKey = some r) :
    r.isActive = false ∧ r.isCompiled = false := by
  simp only [revise, updateRuleOf, hlink, Table.get?_update, if_true, Option.map_eq_some_iff] at hr
  obtain ⟨_, -, rfl⟩ := hr
  exact ⟨rfl, rfl⟩

/-- **When a revision request ends as documented**: unless it finds a pending review with a circular that
it would send back, or with a clause that it leaves unmarked. -/
theorem request_revision_documented_iff (s : Store) (reviewId officer : String) (notes : Option String)
    (now : DateTime) (hunique : UniqueReviewIds s) :
    Documented s reviewId (requestRevision s reviewId officer notes now) ↔
      ∀ k review, s.reviews.get? k = some review → review.reviewId = reviewId →
        review.status = .pending → NothingToSendBack s review := by
  rcases getReviewOr404_unique hunique reviewId with ⟨hget, hnone⟩ | ⟨k, review, hget, hk, hid⟩
  · have hresult : requestRevision s reviewId officer notes now =
        .error (.httpException 404 ("No HITL review '" ++ reviewId ++ "'.")) := by
      unfold requestRevision pendingReview
      rw [hget]
      rfl
    rw [hresult]
    exact ⟨fun _ k r hr hrid => absurd hrid (hnone k r hr), fun _ => .notFound _ hnone⟩
  · have honly : ∀ k' r, s.reviews.get? k' = some r → r.reviewId = reviewId → k' = k ∧ r = review := by
      intro k' r hr hrid
      obtain rfl := hunique _ _ _ _ hr hk (hrid.trans hid.symm)
      exact ⟨rfl, Option.some.inj (hr.symm.trans hk)⟩
    by_cases hst : review.status = .pending
    · have hiff : (∀ k review, s.reviews.get? k = some review → review.reviewId = reviewId →
          review.status = .pending → NothingToSendBack s review) ↔ NothingToSendBack s review := by
        constructor
        · exact fun hall => hall k review hk hid hst
        · intro hnothing k' r hr hrid _
          obtain ⟨-, rfl⟩ := honly k' r hr hrid
          exact hnothing
      rw [hiff]
      rcases requestRevision_of_pending hget hst officer notes now with ⟨hback, hresult⟩ | ⟨hback, hresult⟩
      · rw [hresult]
        refine ⟨fun hdoc => ?_, fun hnothing => absurd hback hnothing.1⟩
        cases hdoc
      · rw [hresult, NothingToSendBack, and_iff_right hback]
        constructor
        · intro hdoc
          cases hdoc with
          | revised hr hrid _ hrevised =>
            obtain ⟨-, rfl⟩ := honly _ _ hr hrid
            exact hrevised.clause
        · intro hclause
          have hclosed : (revise s k review officer notes now).reviews.get? k =
              some { review.close .revisionRequired officer notes now with compiledRuleId := none } := by
            simp only [revise, Table.get?_update, if_true, hk, Option.map_some]
          exact .revised hk hid hst
            ⟨⟨_, hclosed, rfl⟩, fun ruleKey hlink r hr => revise_rule hlink hr, hclause⟩
    · obtain ⟨detail, hresult⟩ : ∃ detail, requestRevision s reviewId officer notes now =
          .error (.httpException 409 detail) := by
        unfold requestRevision pendingReview
        rw [hget]
        simp only [bind, Except.bind, hst, ne_eq, not_false_eq_true, if_true]
        exact ⟨_, rfl⟩
      rw [hresult]
      refine ⟨fun _ k' r hr hrid hpending => ?_, fun _ => .conflict _ hk hid hst⟩
      obtain ⟨-, rfl⟩ := honly k' r hr hrid
      exact absurd hpending hst

/-- One pending review of a clause that is being extracted again. -/
def extractingStore : Store where
  circulars := Table.empty.insert (sampleCircular .extracting)
  clauses := Table.empty.insert { sampleClause "1" 'a' with processingStatus := .extracting }
  rules := Table.empty
  reviews := Table.empty.insert
    { reviewId := "v1"
      clauseId := 1
      compiledRuleId := none
      tenantId := "sebi_baseline"
      reasonCode := .ambiguousSpan
      severity := .advisory
      description := "needs a second look"
      sourceExcerpt := none
      fieldPath := none }
  transitions := []

/-- The table of one row. -/
theorem eq_of_get?_singleton {α : Type} {a b : α} {k : Nat}
    (h : (Table.empty.insert a).get? k = some b) : k = 1 ∧ b = a := by
  rw [Table.get?_insert] at h
  split at h
  · exact ⟨‹_›, (Option.some.inj h).symm⟩
  · cases h

/-- The request on that review. -/
theorem request_revision_extracting : Documented extractingStore "v1"
    (requestRevision extractingStore "v1" "officer" none (sampleCall .requestRevision "v1").now) := by
  refine (request_revision_documented_iff extractingStore "v1" "officer" none _
    fun i j r r' hr hr' _ => ?_).2 fun k review hr _ _ => ?_
  · exact (eq_of_get?_singleton hr).1.trans (eq_of_get?_singleton hr').1.symm
  · obtain ⟨-, rfl⟩ := eq_of_get?_singleton hr
    refine ⟨fun ⟨c, hc, hstate⟩ => ?_, fun clause hclause => ?_⟩
    · cases hc
      rcases hstate with hstate | hstate
      · cases hstate
      · cases hstate
    · rw [(eq_of_get?_singleton hclause).2]

/-- The same review while its circular awaits the officers. -/
def awaitingStore : Store :=
  { extractingStore with circulars := Table.empty.insert (sampleCircular .awaitingHitl) }

/-- **A request on a pending review of a circular that awaits its reviews** raises a `NameError`. -/
theorem not_forall_request_revision_documented : ¬ ∀ (s : Store) (reviewId officer : String)
    (notes : Option String) (now : DateTime), UniqueReviewIds s →
      Documented s reviewId (requestRevision s reviewId officer notes now) := by
  intro h
  have hdoc := h awaitingStore "v1" "officer" none (sampleCall .requestRevision "v1").now
    fun i j r r' hr hr' _ => (eq_of_get?_singleton hr).1.trans (eq_of_get?_singleton hr').1.symm
  have hresult : requestRevision awaitingStore "v1" "officer" none (sampleCall .requestRevision "v1").now =
      .error (.nameError "ClauseProcessingState") := rfl
  rw [hresult] at hdoc
  cases hdoc

end RegEngine.Hitl
