import RegEngine.Hitl.Proof.Flags
import RegEngine.Hitl.Proof.Tidy

/-!
# The steps of a run

What an event changes beside the execution of the stages.

* `result_decides`: a call of the review service closes one review, and keeps the keys of the rules.
* `stages_store`, `step_of_stages`, `step_of_not_stages`: an event that comes to an execution of the
  stages is that execution, after the document is stored.
-/

namespace RegEngine.Hitl

open Lib Parsing

/-! ## Decisions -/

/-- Every rule has the key it had. -/
def SameKeys (t t' : Table CompiledRule) : Prop :=
  ∃ g : Nat → CompiledRule → CompiledRule, (∀ j r, (g j r).SameKey r) ∧
    ∀ j, t'.get? j = (t.get? j).map (g j)

theorem sameKeys_refl (t : Table CompiledRule) : SameKeys t t :=
  ⟨fun _ r => r, fun _ r => .refl r, fun j => by rw [Option.map_id']⟩

theorem sameKeys_update (t : Table CompiledRule) (i : Nat) {f : CompiledRule → CompiledRule}
    (hf : ∀ r, (f r).SameKey r) : SameKeys t (t.update i f) := by
  refine ⟨fun j r => if j = i then f r else r, fun j r => ?_, fun j => ?_⟩
  · dsimp only
    split
    · exact hf r
    · exact .refl r
  · by_cases hj : j = i
    · simp [Table.get?_update, hj]
    · simp [Table.get?_update, hj]

theorem sameKeys_activate (t : Table CompiledRule) (k : Nat) (rule : CompiledRule) :
    SameKeys t (activate t k rule) := by
  refine ⟨_, fun j r => ?_, fun j => Table.get?_modify t _ j⟩
  split
  · exact ⟨rfl, rfl, rfl, rfl⟩
  · split
    · exact ⟨rfl, rfl, rfl, rfl⟩
    · exact .refl r

theorem sameKeys_updateRuleOf (s : Store) (review : HITLReview) {f : CompiledRule → CompiledRule}
    (hf : ∀ r, (f r).SameKey r) : SameKeys s.rules (updateRuleOf s review f) := by
  unfold updateRuleOf
  split
  · exact sameKeys_update _ _ hf
  · exact sameKeys_refl _

section
variable {s s' : Store}

theorem SameKeys.back (h : SameKeys s.rules s'.rules) {j : Nat} {r' : CompiledRule}
    (hr' : s'.rules.get? j = some r') : ∃ r, s.rules.get? j = some r ∧ r'.SameKey r := by
  obtain ⟨g, hkey, hget⟩ := h
  rw [hget] at hr'
  obtain ⟨r, hr, rfl⟩ := Option.map_eq_some_iff.1 hr'
  exact ⟨r, hr, hkey j r⟩

theorem SameKeys.forth (h : SameKeys s.rules s'.rules) {j : Nat} {r : CompiledRule}
    (hr : s.rules.get? j = some r) : ∃ r', s'.rules.get? j = some r' ∧ r'.SameKey r := by
  obtain ⟨g, hkey, hget⟩ := h
  exact ⟨g j r, by rw [hget, hr, Option.map_some], hkey j r⟩

/-- A call decides review `k`: it is closed, and nothing but its status, its link and the flags of the
rules changes, and the state of its circular. -/
structure Decides (s s' : Store) (k : Nat) (review closed : HITLReview) : Prop where
  closes : Closes s s' k review closed
  clauseId : closed.clauseId = review.clauseId
  reasonCode : closed.reasonCode = review.reasonCode
  severity : closed.severity = review.severity
  rules : SameKeys s.rules s'.rules
  clauses : s'.clauses = s.clauses

theorem settleCircular_clauses (s : Store) (k : Nat) (review : HITLReview) (officer : String) :
    (settleCircular s k review officer).clauses = s.clauses := by
  unfold settleCircular
  split
  · split
    · dsimp only
      split <;> rfl
    · rfl
  · rfl

theorem failCircular_clauses (s : Store) (review : HITLReview) (officer : String) :
    (failCircular s review officer).clauses = s.clauses := by
  unfold failCircular
  split
  · split <;> rfl
  · rfl

/-- The last step of a call, by its verdict: it works on the circular of the closed review. -/
def Verdict.settle (verdict : Verdict) (u : Store) (k : Nat) (closed : HITLReview)
    (officer : String) : Store :=
  match verdict with
  | .approve => settleCircular u k closed officer
  | .reject => failCircular u closed officer
  | .requestRevision => u

/-- **A call that succeeds decides one review**, and then settles the circular. -/
theorem result_decides {c : ReviewCall} (h : c.result s = .ok s') :
    ∃ k review closed u, getReviewOr404 s c.reviewId = .ok (k, review) ∧
      Decides s s' k review closed ∧ closed.status = c.verdict.status ∧
      s' = c.verdict.settle u k closed c.officer ∧ u.reviews = s'.reviews ∧ u.clauses = s.clauses ∧
      u.circulars = s.circulars ∧ (c.verdict = .requestRevision → closed.compiledRuleId = none) := by
  unfold ReviewCall.result at h
  split at h
  · rename_i hv
    rw [hv]
    obtain ⟨a, ha, rfl⟩ := Lib.Except.map_ok_iff.1 h
    obtain ⟨k, review, hget, hst, ⟨ruleKey, rule, -, -, rfl⟩ | ⟨-, rfl⟩⟩ := approveReview_ok ha
    · refine ⟨k, review, _, _, hget, ⟨approveLinked_closes (getReviewOr404_ok hget) hst _ _ _ _ _, rfl,
        rfl, rfl, ?_, settleCircular_clauses ..⟩, rfl, rfl, (settleCircular_reviews ..).symm, rfl, rfl,
        by simp⟩
      rcases approveLinked_cases s k review ruleKey rule c.officer c.notes c.now with
        ⟨hrules, -⟩ | ⟨status, hrules⟩
      · rw [hrules]
        exact sameKeys_activate ..
      · rw [hrules]
        exact sameKeys_update _ _ fun _ => ⟨rfl, rfl, rfl, rfl⟩
    · refine ⟨k, review, _, _, hget, ⟨approveUnlinked_closes (getReviewOr404_ok hget) hst _ _ _, rfl,
        rfl, rfl, ?_, settleCircular_clauses ..⟩, rfl, rfl, (settleCircular_reviews ..).symm, rfl, rfl,
        by simp⟩
      rw [approveUnlinked, settleCircular_rules]
      exact sameKeys_refl _
  · rename_i hv
    rw [hv]
    obtain ⟨k, review, hget, hst, rfl⟩ := rejectReview_ok h
    refine ⟨k, review, _, _, hget, ⟨refuse_closes (getReviewOr404_ok hget) hst _ _ _, rfl, rfl, rfl, ?_,
      failCircular_clauses ..⟩, rfl, rfl, (failCircular_reviews ..).symm, rfl, rfl, by simp⟩
    rw [refuse, failCircular_rules]
    exact sameKeys_updateRuleOf _ _ fun _ => ⟨rfl, rfl, rfl, rfl⟩
  · rename_i hv
    rw [hv]
    obtain ⟨k, review, hget, hst, rfl⟩ := requestRevision_ok h
    exact ⟨k, review, _, _, hget, ⟨revise_closes (getReviewOr404_ok hget) hst _ _ _, rfl, rfl, rfl,
      sameKeys_updateRuleOf _ _ fun _ => ⟨rfl, rfl, rfl, rfl⟩, rfl⟩, rfl, rfl, rfl, rfl, rfl,
      fun _ => rfl⟩

/-- Every review after a decision is an old one, but for its status and perhaps its link. -/
theorem Decides.back {k i : Nat} {review closed v' : HITLReview} (h : Decides s s' k review closed)
    (hv' : s'.reviews.get? i = some v') : ∃ v, s.reviews.get? i = some v ∧
      v'.clauseId = v.clauseId ∧ v'.reasonCode = v.reasonCode ∧ v'.severity = v.severity ∧
      (∀ j, v'.compiledRuleId = some j → v.compiledRuleId = some j) ∧ (i = k ∧ v' = closed ∨ v' = v) := by
  rw [h.closes.reviews, Table.get?_update] at hv'
  split at hv'
  · rename_i hi
    obtain ⟨w, -, rfl⟩ := Option.map_eq_some_iff.1 hv'
    refine ⟨review, hi ▸ h.closes.found, h.clauseId, h.reasonCode, h.severity, fun j hj => ?_,
      .inl ⟨hi, rfl⟩⟩
    rcases h.closes.link with hlink | hlink
    · exact hlink.symm.trans hj
    · exact absurd (hlink.symm.trans hj) (by simp)
  · exact ⟨v', hv', rfl, rfl, rfl, fun _ hj => hj, .inr rfl⟩

theorem Links.decides {k : Nat} {review closed : HITLReview} (hs : Links s)
    (h : Decides s s' k review closed) : Links s' := by
  intro i v' j hv' hj
  obtain ⟨v, hv, hclause, -, -, hlink, -⟩ := h.back hv'
  obtain ⟨r, hr, hrv⟩ := hs i v j hv (hlink j hj)
  obtain ⟨r', hr', hkey⟩ := h.rules.forth hr
  exact ⟨r', hr', hkey.clauseId.trans (hrv.trans hclause.symm)⟩

theorem Tidy.decides {k : Nat} {review closed : HITLReview} (hs : Tidy s)
    (h : Decides s s' k review closed) : Tidy s' := by
  refine ⟨?_, hs.links.decides h, ?_, ?_⟩
  · intro i j q r hq hr hid hk
    obtain ⟨q', hq', hqkey⟩ := h.rules.back hq
    obtain ⟨r', hr', hrkey⟩ := h.rules.back hr
    exact hs.rules i j q' r' hq' hr' (hqkey.ruleId.symm.trans (hid.trans hrkey.ruleId))
      (hqkey.clauseId.symm.trans (hk.trans hrkey.clauseId))
  · intro i i' v v' j hv hv' hj hj' hreason
    obtain ⟨w, hw, -, hwr, -, hwl, -⟩ := h.back hv
    obtain ⟨w', hw', -, hwr', -, hwl', -⟩ := h.back hv'
    exact hs.reasons i i' w w' j hw hw' (hwl j hj) (hwl' j hj')
      (hwr.symm.trans (hreason.trans hwr'))
  · intro i v' hv' hreason
    obtain ⟨v, hv, -, hvr, hvs, -⟩ := h.back hv'
    rw [hvs]
    exact hs.audits i v hv (hvr.symm.trans hreason)

end

/-! ## Executions -/

/-- What storing a document changes: its circular, and new clauses of it. -/
structure Ingests (s t : Store) (circularId : Nat) : Prop where
  rules : t.rules = s.rules
  reviews : t.reviews = s.reviews
  clauses : ∀ k clause, s.clauses.get? k = some clause → t.clauses.get? k = some clause
  added : ∀ k clause, t.clauses.get? k = some clause →
    s.clauses.get? k = some clause ∨ clause.circularId = circularId
  circulars : ∀ j, j ≠ circularId → t.circulars.get? j = s.circulars.get? j

section
variable {nfkc : String → String} {decode : List UInt8 → String} {s s' t : Store} {circularId : Nat}

theorem Ingests.refl (s : Store) (circularId : Nat) : Ingests s s circularId :=
  ⟨rfl, rfl, fun _ _ h => h, fun _ _ h => .inl h, fun _ _ => rfl⟩

theorem ingests_transition (s : Store) (circularId : Nat) (toState : ProcessingState)
    (errorMessage : Option String) (details : Json) :
    Ingests s (transitionCircularState s circularId toState errorMessage details) circularId := by
  have hclauses : (transitionCircularState s circularId toState errorMessage details).clauses =
      s.clauses := by
    unfold transitionCircularState
    split <;> rfl
  have hstatus := statusOnly_transition s circularId toState errorMessage details
  exact ⟨hstatus.rules, hstatus.reviews, fun k clause h => by rw [hclauses, h],
    fun k clause h => .inl (by rw [← hclauses, h]), hstatus.circulars⟩

theorem Ingests.trans (h : Ingests s t circularId) (h' : Ingests t s' circularId) :
    Ingests s s' circularId where
  rules := h'.rules.trans h.rules
  reviews := h'.reviews.trans h.reviews
  clauses k clause hk := h'.clauses k clause (h.clauses k clause hk)
  added k clause hk := (h'.added k clause hk).elim (h.added k clause) .inr
  circulars j hj := (h'.circulars j hj).trans (h.circulars j hj)

theorem ingests_persistCircular {parsed : ParseResult} {fileBytes : List UInt8}
    (h : persistCircular nfkc decode s parsed fileBytes = .ok (circularId, s')) :
    Ingests s s' circularId := by
  rcases persistCircular_cases h with ⟨c, -, rfl, -, rfl⟩ | ⟨-, rfl, circular, -, rfl⟩
  · exact ⟨rfl, rfl, fun _ _ h => h, fun _ _ h => .inl h, fun j hj => by
      simp only [Table.get?_update, if_neg hj]⟩
  · exact ⟨rfl, rfl, fun _ _ h => h, fun _ _ h => .inl h, fun j hj => by
      simp only [Table.get?_insert, if_neg hj]⟩

theorem ingests_persistClause {chunk : ClauseChunk} {k : Nat}
    (h : persistClause s circularId chunk = .ok (k, s')) : Ingests s s' circularId := by
  rcases persistClause_ok h with ⟨-, rfl⟩ | ⟨-, rfl⟩
  · exact .refl _ circularId
  · refine ⟨rfl, rfl, fun j clause hj => ?_, fun j clause hj => ?_, fun _ _ => rfl⟩
    · simp only [Table.get?_insert, if_neg (Nat.ne_of_lt (Table.lt_next_of_get? hj)), hj]
    · simp only [Table.get?_insert] at hj
      split at hj
      · obtain rfl := Option.some.inj hj
        exact .inr rfl
      · exact .inl hj

theorem ingests_persistClauses : ∀ {chunks : List ClauseChunk} {s s' : Store} {ks : List Nat},
    persistClauses circularId s chunks = .ok (ks, s') → Ingests s s' circularId
  | [], s, _, _, h => by
    obtain ⟨-, rfl⟩ := Prod.mk.inj (Except.ok.inj h)
    exact .refl s circularId
  | chunk :: chunks, s, s', ks, h => by
    obtain ⟨⟨k, t⟩, hone, h⟩ := Lib.Except.bind_ok_iff.1 h
    obtain ⟨⟨ks', u⟩, hrest, h⟩ := Lib.Except.bind_ok_iff.1 h
    obtain ⟨-, rfl⟩ := Prod.mk.inj (Except.ok.inj h)
    exact (ingests_persistClause hone).trans (ingests_persistClauses hrest)

theorem ingests_ingested (s : Store) (circularId : Nat) (circular : Circular) (clauseIds : List Nat) :
    Ingests s (ingested s circularId circular clauseIds) circularId := by
  unfold ingested
  split
  · exact ingests_transition ..
  · exact .refl s circularId

/-- **The store that the stages start from**: the clauses of the call are there, and are those of its
circular. -/
theorem stages_store {e : Event} {c : StageCall} (h : e.stages nfkc decode s = some (c, t)) :
    Ingests s t c.circularId ∧ ∀ k ∈ c.clauseIds, ∃ clause, t.clauses.get? k = some clause ∧
      clause.circularId = c.circularId := by
  cases e with
  | process parsed fileBytes tenantId o =>
    simp only [Event.stages] at h
    split at h
    · cases h
    · rename_i circularId s₁ hcircular
      split at h
      · cases h
      · rename_i clauseIds s₂ hclauses
        obtain ⟨circular, -, h⟩ := Option.bind_eq_some_iff.1 h
        split at h
        · cases h
        · obtain ⟨rfl, rfl⟩ := Prod.mk.inj (Option.some.inj h)
          have hingested := ingests_ingested s₂ circularId circular clauseIds
          refine ⟨(ingests_persistCircular hcircular).trans
            ((ingests_persistClauses hclauses).trans hingested), fun k hk => ?_⟩
          obtain ⟨clause, hget, hcirc⟩ := persistClauses_keys hclauses k hk
          exact ⟨clause, hingested.clauses k clause hget, hcirc⟩
  | resume circularId tenantId o =>
    simp only [Event.stages] at h
    split at h
    · cases h
    · obtain ⟨rfl, rfl⟩ := Prod.mk.inj (Option.some.inj h)
      refine ⟨.refl s circularId, fun k hk => ?_⟩
      obtain ⟨x, hx, rfl⟩ := List.mem_map.1 hk
      obtain ⟨hget, hmatch⟩ := Table.mem_select.1 ((List.mem_insertionSort _).1 hx)
      exact ⟨x.2, hget, of_decide_eq_true hmatch⟩
  | review call => cases h

/-- An event with an execution of the stages is that execution. -/
theorem step_of_stages {e : Event} {c : StageCall} (h : e.stages nfkc decode s = some (c, t)) :
    e.step nfkc decode s = (c.execute t).1 := by
  cases e with
  | process parsed fileBytes tenantId o =>
    simp only [Event.stages] at h
    simp only [Event.step, processCircularPdf]
    split at h
    · cases h
    · split at h
      · cases h
      · obtain ⟨circular, hget, h⟩ := Option.bind_eq_some_iff.1 h
        simp only [hget]
        split at h
        · cases h
        · rename_i hstate
          obtain ⟨rfl, rfl⟩ := Prod.mk.inj (Option.some.inj h)
          rw [if_neg hstate]
          rfl
  | resume circularId tenantId o =>
    simp only [Event.stages] at h
    split at h
    · cases h
    · rename_i hrows
      obtain ⟨hcircular, hclauses⟩ := not_or.1 hrows
      obtain ⟨circular, hcircular⟩ := Option.ne_none_iff_exists'.1 hcircular
      obtain ⟨rfl, rfl⟩ := Prod.mk.inj (Option.some.inj h)
      simp only [Event.step, resumeCircular, hcircular]
      rw [if_neg hclauses]
      rfl
  | review call => cases h

theorem state_transition {toState : ProcessingState} {errorMessage : Option String} {details : Json}
    {circular : Circular} (h : (transitionCircularState s circularId toState errorMessage
      details).circulars.get? circularId = some circular) : circular.processingState = toState := by
  unfold transitionCircularState at h
  split at h
  · rename_i hnone
    rw [hnone] at h
    cases h
  · simp only [Table.get?_update, if_true] at h
    obtain ⟨_, -, rfl⟩ := Option.map_eq_some_iff.1 h
    rfl

theorem failCircularOnce_cases (s : Store) (circularId : Nat) (message : String) :
    failCircularOnce s circularId message = s ∨
      failCircularOnce s circularId message =
        transitionCircularState s circularId .failed (some message) .null := by
  unfold failCircularOnce
  split
  · split
    · exact .inr rfl
    · exact .inl rfl
  · exact .inl rfl

/-- An event that comes to no execution and is no decision: a circular it changes is not approved. -/
theorem step_of_not_stages {e : Event} (he : ∀ call, e ≠ .review call)
    (h : e.stages nfkc decode s = none) :
    e.step nfkc decode s = s ∨ ∃ circularId, Ingests s (e.step nfkc decode s) circularId ∧
      ∀ circular, (e.step nfkc decode s).circulars.get? circularId = some circular →
        circular.processingState ≠ .approved := by
  cases e with
  | process parsed fileBytes tenantId o =>
    simp only [Event.stages] at h
    simp only [Event.step, processCircularPdf]
    split at h
    · exact .inl rfl
    · rename_i circularId s₁ hcircular
      split at h
      · rename_i e hclauses
        rcases failCircularOnce_cases s circularId
            (String.ofList ((o.text (.raised e)).toList.take 4000)) with hfail | hfail
        · exact .inl hfail
        · refine .inr ⟨circularId, ?_, fun circular hget => ?_⟩
          · rw [hfail]
            exact ingests_transition ..
          · rw [hfail] at hget
            rw [state_transition hget]
            decide
      · rename_i clauseIds s₂ hclauses
        have hingests := (ingests_persistCircular hcircular).trans (ingests_persistClauses hclauses)
        cases hget : s₂.circulars.get? circularId with
        | none => exact .inr ⟨circularId, hingests, fun circular h => by simp [hget] at h⟩
        | some circular =>
          rw [hget, Option.bind_some] at h
          split at h
          · rename_i hstate
            refine .inr ⟨circularId, ?_, fun circular' hget' => ?_⟩
            · simp only [if_pos hstate]
              exact hingests
            · simp only [if_pos hstate, hget, Option.some.injEq] at hget'
              rw [← hget', hstate]
              decide
          · cases h
  | resume circularId tenantId o =>
    simp only [Event.stages] at h
    split at h
    · rename_i hrows
      refine .inl ?_
      simp only [Event.step, resumeCircular]
      cases hget : s.circulars.get? circularId with
      | none => rfl
      | some circular =>
        simp only [hget, reduceCtorEq, false_or] at hrows
        simp only [if_pos hrows]
    · cases h
  | review call => exact absurd rfl (he call)

end

section
variable (nfkc : String → String) (decode : List UInt8 → String)

/-- `P` holds of every event of a run, in the store it comes in. -/
def Along (P : Store → Event → Prop) : Store → List Event → Prop
  | _, [] => True
  | s, e :: events => P s e ∧ Along P (e.step nfkc decode s) events

/-- `P` holds of the execution of the stages that an event comes to. -/
def AtStages (P : StageCall → Store → Prop) (s : Store) (e : Event) : Prop :=
  ∀ c t, e.stages nfkc decode s = some (c, t) → P c t

end

/-- An outside with this extraction, whose ids are all different. -/
def sampleOutside (extract : ClauseChunk → Extraction) : Outside where
  extract := extract
  now := sampleNow
  flagIds i n := String.ofList (List.replicate i 'c' ++ 'f' :: List.replicate n 'g')
  reviewIds i := String.ofList (List.replicate i 'c' ++ ['r'])
  text _ := ""

end RegEngine.Hitl
