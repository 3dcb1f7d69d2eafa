import RegEngine.Lib.Except
import RegEngine.Hitl.System

/-!
# What a call of the review service does

* `evaluateRuleHitlGate_iff`: the gate passes exactly when every review of the rule is resolved.
* `result_cases`: a call that succeeds closes one pending review, and only an approval through the
  gate makes a rule active.
-/

namespace RegEngine.Hitl

open Lib Lib.Calendar

/-! ## The gate -/

theorem not_all_resolved {reviews : List HITLReview} {p : HITLReview → Bool}
    (hp : ∀ r, p r = true → r.status ≠ .resolved) (h : reviews.filter p ≠ []) :
    ¬ ∀ r ∈ reviews, r.status = .resolved := by
  obtain ⟨r, hr⟩ := List.exists_mem_of_ne_nil _ h
  obtain ⟨hmem, hpr⟩ := List.mem_filter.1 hr
  exact fun hall => hp r hpr (hall r hmem)

theorem evaluateRuleHitlGate_iff (reviews : List HITLReview) :
    (evaluateRuleHitlGate reviews).1 = true ↔ ∀ r ∈ reviews, r.status = .resolved := by
  unfold evaluateRuleHitlGate
  split
  · rename_i r hr
    have hst : r.status = .rejected ∨ r.status = .revisionRequired := by
      simpa using List.find?_some hr
    refine iff_of_false (by split <;> simp) fun hall => ?_
    rw [hall r (List.mem_of_find?_eq_some hr)] at hst
    simp at hst
  · dsimp only
    split
    · rename_i h
      exact iff_of_false (by simp) (not_all_resolved (by simp) h)
    · split
      · rename_i h
        refine iff_of_false (by simp) (not_all_resolved ?_ h)
        intro r hr
        rcases (by simpa using hr : r.status = .pending ∨ r.status = .inReview) with h | h <;>
          simp [h]
      · split
        · rename_i h
          exact iff_of_false (by simp) (not_all_resolved (by simp) h)
        · rename_i h
          simpa [List.filter_eq_nil_iff] using h

/-! ## Reviews of a rule -/

theorem mem_reviewsOf {s : Store} {rule : Nat} {x : Nat × HITLReview} :
    x ∈ s.reviewsOf rule ↔ s.reviews.get? x.1 = some x.2 ∧ x.2.compiledRuleId = some rule := by
  simp [Store.reviewsOf, Table.mem_select]

@[simp] theorem settleCircular_rules (s : Store) (k : Nat) (review : HITLReview) (officer : String) :
    (settleCircular s k review officer).rules = s.rules := by
  unfold settleCircular
  split
  · split
    · simp only
      split <;> rfl
    · rfl
  · rfl

@[simp] theorem settleCircular_reviews (s : Store) (k : Nat) (review : HITLReview)
    (officer : String) : (settleCircular s k review officer).reviews = s.reviews := by
  unfold settleCircular
  split
  · split
    · simp only
      split <;> rfl
    · rfl
  · rfl

@[simp] theorem failCircular_rules (s : Store) (review : HITLReview) (officer : String) :
    (failCircular s review officer).rules = s.rules := by
  unfold failCircular
  split
  · split <;> rfl
  · rfl

@[simp] theorem failCircular_reviews (s : Store) (review : HITLReview) (officer : String) :
    (failCircular s review officer).reviews = s.reviews := by
  unfold failCircular
  split
  · split <;> rfl
  · rfl

/-! ## Calls -/

theorem getReviewOr404_ok {s : Store} {reviewId : String} {x : Nat × HITLReview}
    (h : getReviewOr404 s reviewId = .ok x) : s.reviews.get? x.1 = some x.2 := by
  unfold getReviewOr404 at h
  split at h
  · cases h
  · rename_i r hr
    obtain rfl := Except.ok.inj h
    exact (Table.get?_of_select_eq hr).1
  · cases h

theorem pendingReview_ok {s : Store} {reviewId cannot : String} {x : Nat × HITLReview}
    (h : pendingReview s reviewId cannot = .ok x) :
    getReviewOr404 s reviewId = .ok x ∧ x.2.status = .pending := by
  obtain ⟨r, hr, hx⟩ := Lib.Except.bind_ok_iff.1 h
  dsimp only at hx
  split at hx
  · cases hx
  · rename_i hpending
    obtain rfl := Except.ok.inj hx
    exact ⟨hr, not_not.1 hpending⟩

theorem pendingReview_eq_ok {s : Store} {reviewId cannot : String} {x : Nat × HITLReview}
    (hget : getReviewOr404 s reviewId = .ok x) (hst : x.2.status = .pending) :
    pendingReview s reviewId cannot = .ok x := by
  simp [pendingReview, hget, hst, bind, Except.bind, pure, Except.pure]

/-- A successful approval, by whether the review has a rule. -/
theorem approveReview_ok {s : Store} {reviewId officer : String} {notes : Option String}
    {now : DateTime} {a : Approval} (h : approveReview s reviewId officer notes now = .ok a) :
    ∃ k review, getReviewOr404 s reviewId = .ok (k, review) ∧ review.status = .pending ∧
      ((∃ ruleKey rule, review.compiledRuleId = some ruleKey ∧ s.rules.get? ruleKey = some rule ∧
          a = approveLinked s k review ruleKey rule officer notes now) ∨
        (review.compiledRuleId = none ∧ a = approveUnlinked s k review officer notes now)) := by
  obtain ⟨⟨k, review⟩, hpending, h⟩ := Lib.Except.bind_ok_iff.1 h
  obtain ⟨hget, hst⟩ := pendingReview_ok hpending
  refine ⟨k, review, hget, hst, ?_⟩
  dsimp only at h
  split at h
  · rename_i ruleKey hlink
    split at h
    · cases h
    · rename_i rule hrule
      exact .inl ⟨ruleKey, rule, hlink, hrule, (Except.ok.inj h).symm⟩
  · rename_i hlink
    exact .inr ⟨hlink, (Except.ok.inj h).symm⟩

theorem rejectReview_ok {s s' : Store} {reviewId officer : String} {notes : Option String}
    {now : DateTime} (h : rejectReview s reviewId officer notes now = .ok s') :
    ∃ k review, getReviewOr404 s reviewId = .ok (k, review) ∧ review.status = .pending ∧
      s' = refuse s k review officer notes now := by
  obtain ⟨⟨k, review⟩, hpending, h⟩ := Lib.Except.bind_ok_iff.1 h
  obtain ⟨hget, hst⟩ := pendingReview_ok hpending
  exact ⟨k, review, hget, hst, (Except.ok.inj h).symm⟩

theorem requestRevision_ok {s s' : Store} {reviewId officer : String} {notes : Option String}
    {now : DateTime} (h : requestRevision s reviewId officer notes now = .ok s') :
    ∃ k review, getReviewOr404 s reviewId = .ok (k, review) ∧ review.status = .pending ∧
      s' = revise s k review officer notes now := by
  obtain ⟨⟨k, review⟩, hpending, h⟩ := Lib.Except.bind_ok_iff.1 h
  obtain ⟨hget, hst⟩ := pendingReview_ok hpending
  refine ⟨k, review, hget, hst, ?_⟩
  dsimp only at h
  split at h
  · split at h
    · cases h
    · exact (Except.ok.inj h).symm
  · exact (Except.ok.inj h).symm

/-- Review `k` was pending and is closed; it keeps its rule or loses it. -/
structure Closes (s s' : Store) (k : Nat) (review closed : HITLReview) : Prop where
  found : s.reviews.get? k = some review
  pending : review.status = .pending
  done : closed.status ≠ .pending
  link : closed.compiledRuleId = review.compiledRuleId ∨ closed.compiledRuleId = none
  reviews : s'.reviews = s.reviews.update k fun _ => closed

section
variable {s : Store} {k : Nat} {review : HITLReview} (hfound : s.reviews.get? k = some review)
  (hst : review.status = .pending) (officer : String) (notes : Option String) (now : DateTime)
include hfound hst

theorem approveLinked_closes (j : Nat) (rule : CompiledRule) :
    Closes s (approveLinked s k review j rule officer notes now).store k review
      { review.close .resolved officer notes now with
        approvedRuleVersion := some rule.ruleVersion
        approvedPolicySha256 := policyHash rule } where
  found := hfound
  pending := hst
  reviews := settleCircular_reviews _ _ _ _
  done := by simp [HITLReview.close]
  link := .inl rfl

theorem approveUnlinked_closes :
    Closes s (approveUnlinked s k review officer notes now).store k review
      (review.close .resolved officer notes now) where
  found := hfound
  pending := hst
  reviews := settleCircular_reviews _ _ _ _
  done := by simp [HITLReview.close]
  link := .inl rfl

theorem refuse_closes :
    Closes s (refuse s k review officer notes now) k review
      (review.close .rejected officer notes now) where
  found := hfound
  pending := hst
  reviews := failCircular_reviews _ _ _
  done := by simp [HITLReview.close]
  link := .inl rfl

theorem revise_closes :
    Closes s (revise s k review officer notes now) k review
      { review.close .revisionRequired officer notes now with compiledRuleId := none } where
  found := hfound
  pending := hst
  reviews := rfl
  done := by simp [HITLReview.close]
  link := .inr rfl

end

/-- **A call that succeeds closes one pending review.** -/
theorem result_closes {c : ReviewCall} {s s' : Store} (h : c.result s = .ok s') :
    ∃ k review closed, getReviewOr404 s c.reviewId = .ok (k, review) ∧
      Closes s s' k review closed := by
  unfold ReviewCall.result at h
  split at h
  · obtain ⟨a, ha, rfl⟩ := Lib.Except.map_ok_iff.1 h
    obtain ⟨k, review, hget, hst, ⟨ruleKey, rule, -, -, rfl⟩ | ⟨-, rfl⟩⟩ := approveReview_ok ha
    · exact ⟨k, review, _, hget, approveLinked_closes (getReviewOr404_ok hget) hst _ _ _ _ _⟩
    · exact ⟨k, review, _, hget, approveUnlinked_closes (getReviewOr404_ok hget) hst _ _ _⟩
  · obtain ⟨k, review, hget, hst, rfl⟩ := rejectReview_ok h
    exact ⟨k, review, _, hget, refuse_closes (getReviewOr404_ok hget) hst _ _ _⟩
  · obtain ⟨k, review, hget, hst, rfl⟩ := requestRevision_ok h
    exact ⟨k, review, _, hget, revise_closes (getReviewOr404_ok hget) hst _ _ _⟩

/-- The reviews of a rule after the call: those of before, without review `k` unless it keeps the
rule. -/
theorem Closes.mem_reviewsOf_iff {s s' : Store} {k : Nat} {review closed : HITLReview}
    (h : Closes s s' k review closed) {rule : Nat} {x : Nat × HITLReview} (hx : x.1 ≠ k) :
    x ∈ s'.reviewsOf rule ↔ x ∈ s.reviewsOf rule := by
  rw [mem_reviewsOf, mem_reviewsOf, h.reviews, Table.get?_update, if_neg hx]

theorem activates_some {c : ReviewCall} {s : Store} {rule : Nat} (h : c.activates s = some rule) :
    ∃ k review r, getReviewOr404 s c.reviewId = .ok (k, review) ∧ review.status = .pending ∧
      review.compiledRuleId = some rule ∧ s.rules.get? rule = some r ∧
      ∀ x ∈ s.reviewsOf rule, x.1 ≠ k → x.2.status = .resolved := by
  unfold ReviewCall.activates at h
  split at h
  · split at h
    · rename_i a ha
      obtain ⟨k, review, hget, hst, ⟨ruleKey, r, hlink, hrule, rfl⟩ | ⟨-, rfl⟩⟩ :=
        approveReview_ok ha
      · simp only [approveLinked, evaluateRuleHitlGate_iff] at h
        split at h
        · rename_i hgate
          obtain rfl := Option.some.inj h
          refine ⟨k, review, r, hget, hst, hlink, hrule, fun x hx hxk => ?_⟩
          refine hgate x.2 (List.mem_map.2 ⟨x, mem_reviewsOf.2 ?_, rfl⟩)
          rw [Table.get?_update, if_neg hxk]
          exact mem_reviewsOf.1 hx
        · cases h
      · simp [approveUnlinked] at h
    · cases h
  · cases h
  · cases h

theorem activates_verdict {c : ReviewCall} {s : Store} {rule : Nat}
    (h : c.activates s = some rule) : c.verdict = .approve := by
  unfold ReviewCall.activates at h
  split at h
  · assumption
  · cases h
  · cases h

/-- The approval of the last open review of a rule makes the rule active as it is. -/
theorem approve_last {c : ReviewCall} {s : Store} {k rule : Nat} {review : HITLReview}
    {r : CompiledRule} (hverdict : c.verdict = .approve)
    (hget : getReviewOr404 s c.reviewId = .ok (k, review)) (hst : review.status = .pending)
    (hlink : review.compiledRuleId = some rule) (hrule : s.rules.get? rule = some r)
    (hothers : ∀ x ∈ s.reviewsOf rule, x.1 ≠ k → x.2.status = .resolved) :
    ∃ s' r', c.result s = .ok s' ∧ s'.rules.get? rule = some r' ∧ r'.isActive = true ∧
      r'.isCompiled = r.isCompiled ∧ r'.regoPolicy = r.regoPolicy := by
  have happrove : approveReview s c.reviewId c.officer c.notes c.now =
      .ok (approveLinked s k review rule r c.officer c.notes c.now) := by
    simp [approveReview, pendingReview_eq_ok hget hst, hlink, hrule, bind, Except.bind, pure,
      Except.pure]
  have hgate : (approveLinked s k review rule r c.officer c.notes c.now).ruleActivated = true := by
    simp only [approveLinked, evaluateRuleHitlGate_iff, List.mem_map]
    rintro _ ⟨x, hx, rfl⟩
    obtain ⟨hrow, hxl⟩ := mem_reviewsOf.1 hx
    rw [Table.get?_update] at hrow
    split at hrow
    · obtain ⟨_, -, hcl⟩ := Option.map_eq_some_iff.1 hrow
      simp [← hcl, HITLReview.close]
    · rename_i hxk
      exact hothers x (mem_reviewsOf.2 ⟨hrow, hxl⟩) hxk
  refine ⟨(approveLinked s k review rule r c.officer c.notes c.now).store,
    { r with isActive := true, hitlStatus := .resolved, policySha256 := policyHash r }, ?_, ?_, rfl, rfl,
    rfl⟩
  · simp only [ReviewCall.result, hverdict, happrove, Except.map]
  · simp only [approveLinked] at hgate
    simp [approveLinked, hgate, activate, Table.get?_modify, hrule]

/-- A change that switches one rule off leaves the active rules as they were. -/
theorem get?_update_active {rules : Table CompiledRule} {i k : Nat} {f : CompiledRule → CompiledRule}
    (hf : ∀ r, (f r).isActive = false) {r' : CompiledRule} (h : (rules.update i f).get? k = some r')
    (ha : r'.isActive = true) : rules.get? k = some r' := by
  rw [Table.get?_update] at h
  split at h
  · obtain ⟨r, -, rfl⟩ := Option.map_eq_some_iff.1 h
    simp [hf] at ha
  · exact h

theorem get?_updateRuleOf_active {s : Store} {review : HITLReview} {k : Nat}
    {f : CompiledRule → CompiledRule} (hf : ∀ r, (f r).isActive = false) {r' : CompiledRule}
    (h : (updateRuleOf s review f).get? k = some r') (ha : r'.isActive = true) :
    s.rules.get? k = some r' := by
  unfold updateRuleOf at h
  split at h
  · exact get?_update_active hf h ha
  · exact h

/-- After the gate the active rules are rule `k` and those that were active before. -/
theorem get?_activate_active {rules : Table CompiledRule} {i k : Nat} {rule r' : CompiledRule}
    (h : (activate rules i rule).get? k = some r') (ha : r'.isActive = true) :
    ∃ r, rules.get? k = some r ∧ r.isCompiled = r'.isCompiled ∧ r.regoPolicy = r'.regoPolicy ∧
      (r.isActive = true ∨ k = i) := by
  rw [activate, Table.get?_modify] at h
  obtain ⟨r, hr, rfl⟩ := Option.map_eq_some_iff.1 h
  refine ⟨r, hr, ?_⟩
  split at ha
  · rename_i hk
    simp [hk]
  · rename_i hk
    split at ha
    · simp at ha
    · rename_i hid
      simp [hk, hid, ha]

/-- **Only an approval through the gate makes a rule active**, and a call leaves the compiled text of
an active rule as it was. -/
theorem result_active {c : ReviewCall} {s s' : Store} (h : c.result s = .ok s') {rule : Nat}
    {r' : CompiledRule} (hr : s'.rules.get? rule = some r') (ha : r'.isActive = true) :
    ∃ r, s.rules.get? rule = some r ∧ r.isCompiled = r'.isCompiled ∧ r.regoPolicy = r'.regoPolicy ∧
      (r.isActive = true ∨ c.activates s = some rule) := by
  have unchanged : s.rules.get? rule = some r' → ∃ r, s.rules.get? rule = some r ∧
      r.isCompiled = r'.isCompiled ∧ r.regoPolicy = r'.regoPolicy ∧
      (r.isActive = true ∨ c.activates s = some rule) :=
    fun hr => ⟨r', hr, rfl, rfl, .inl ha⟩
  unfold ReviewCall.result at h
  split at h
  · rename_i hverdict
    obtain ⟨a, happrove, rfl⟩ := Lib.Except.map_ok_iff.1 h
    obtain ⟨k, review, -, -, ⟨ruleKey, old, -, -, rfl⟩ | ⟨-, rfl⟩⟩ := approveReview_ok happrove
    · have hact : c.activates s =
          if (approveLinked s k review ruleKey old c.officer c.notes c.now).ruleActivated then
            some ruleKey else none := by
        simp only [ReviewCall.activates, hverdict, happrove]
        rfl
      simp only [approveLinked, settleCircular_rules] at hr hact
      split at hr
      · rename_i hgate
        obtain ⟨r, hget, hcomp, hrego, hor⟩ := get?_activate_active hr ha
        refine ⟨r, hget, hcomp, hrego, hor.imp_right ?_⟩
        rintro rfl
        rw [hact, if_pos hgate]
      · exact unchanged (get?_update_active (fun _ => rfl) hr ha)
    · simp only [approveUnlinked, settleCircular_rules] at hr
      exact unchanged hr
  · obtain ⟨k, review, -, -, rfl⟩ := rejectReview_ok h
    simp only [refuse, failCircular_rules] at hr
    exact unchanged (get?_updateRuleOf_active (fun _ => rfl) hr ha)
  · obtain ⟨k, review, -, -, rfl⟩ := requestRevision_ok h
    simp only [revise] at hr
    exact unchanged (get?_updateRuleOf_active (fun _ => rfl) hr ha)

end RegEngine.Hitl
