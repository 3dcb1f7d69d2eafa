import RegEngine.Hitl.Proof.Frame

/-!
# Flags and the reviews they get

A compilation adds a review for the first flag of each reason that no review of the rule has, and the
sign-off for a rule that has neither flags nor reviews.

* `mem_freshFlags`: the flags that get a review; `addReviews_reviewsOf`: the reviews of the rule then.
* `flags_kept_iff`: when every flag of a compilation stands in an open review of the rule.
* `revision_reviewed_iff`: when a rule that was sent back has a pending review again.
-/

namespace RegEngine.Hitl

open Lib Lib.Calendar

/-- `UNRESOLVED_STATUSES`. -/
def HITLReview.Open (v : HITLReview) : Prop := v.status = .pending ∨ v.status = .inReview

instance (v : HITLReview) : Decidable v.Open := inferInstanceAs (Decidable (_ ∨ _))

/-- The review has the reason, the severity and the text of the flag. -/
structure HITLReview.Represents (v : HITLReview) (f : HITLFlag) : Prop where
  reasonCode : v.reasonCode = f.reasonCode
  severity : v.severity = f.severity
  description : v.description = f.description
  sourceExcerpt : v.sourceExcerpt = f.sourceExcerpt
  fieldPath : v.fieldPath = f.fieldPath

/-- Two flags that differ in their id at most. -/
structure HITLFlag.Same (g f : HITLFlag) : Prop where
  reasonCode : g.reasonCode = f.reasonCode
  severity : g.severity = f.severity
  description : g.description = f.description
  sourceExcerpt : g.sourceExcerpt = f.sourceExcerpt
  fieldPath : g.fieldPath = f.fieldPath

theorem HITLReview.Represents.same {v : HITLReview} {g f : HITLFlag} (hg : v.Represents g) :
    v.Represents f ↔ g.Same f := by
  constructor
  · rintro ⟨h₁, h₂, h₃, h₄, h₅⟩
    exact ⟨hg.1.symm.trans h₁, hg.2.symm.trans h₂, hg.3.symm.trans h₃, hg.4.symm.trans h₄,
      hg.5.symm.trans h₅⟩
  · rintro ⟨h₁, h₂, h₃, h₄, h₅⟩
    exact ⟨hg.1.trans h₁, hg.2.trans h₂, hg.3.trans h₃, hg.4.trans h₄, hg.5.trans h₅⟩

/-! ## The flags that get a review -/

/-- The first flag of each reason that is not among these. -/
def freshFlags : List ReasonCode → List HITLFlag → List HITLFlag
  | _, [] => []
  | reasons, f :: fs =>
    if f.reasonCode ∈ reasons then freshFlags reasons fs
    else f :: freshFlags (reasons ++ [f.reasonCode]) fs

theorem mem_freshFlags {g : HITLFlag} : ∀ {flags : List HITLFlag} {reasons : List ReasonCode},
    g ∈ freshFlags reasons flags ↔
      g.reasonCode ∉ reasons ∧ flags.find? (fun h => h.reasonCode = g.reasonCode) = some g
  | [], reasons => by simp [freshFlags]
  | f :: fs, reasons => by
    rw [freshFlags, List.find?_cons]
    by_cases hf : f.reasonCode ∈ reasons
    · rw [if_pos hf, mem_freshFlags]
      refine and_congr_right fun hg => ?_
      have hne : f.reasonCode ≠ g.reasonCode := fun h => hg (h ▸ hf)
      simp [hne]
    · rw [if_neg hf, List.mem_cons, mem_freshFlags]
      by_cases hfg : f.reasonCode = g.reasonCode
      · -- a later flag of this reason gets none
        rw [hfg] at hf
        simp [hfg, hf, eq_comm]
      · have hne : g ≠ f := fun h => hfg (h ▸ rfl)
        simp [hfg, Ne.symm hfg, hne]

section
variable {s s' : Store} {clauseId k : Nat} {tenantId : String}

theorem insertReview_ok {review : HITLReview} (h : insertReview s review = .ok s') :
    s' = { s with reviews := s.reviews.insert review } := by
  unfold insertReview at h
  split at h
  · cases h
  · split at h
    · cases h
    · exact (Except.ok.inj h).symm

/-- The reviews of a rule after one more review of it. -/
theorem mem_reviewsOf_insert {review : HITLReview} (hlink : review.compiledRuleId = some k)
    {x : Nat × HITLReview} :
    x ∈ ({ s with reviews := s.reviews.insert review } : Store).reviewsOf k ↔
      x ∈ s.reviewsOf k ∨ x = (s.reviews.next, review) := by
  rw [mem_reviewsOf, mem_reviewsOf, Table.get?_insert]
  obtain ⟨i, v⟩ := x
  by_cases hi : i = s.reviews.next
  · subst hi
    have hnone : s.reviews.get? s.reviews.next ≠ some v :=
      fun h => Nat.lt_irrefl _ (Table.lt_next_of_get? h)
    simp only [if_true, hnone, false_and, false_or, Prod.mk.injEq, true_and, Option.some.injEq]
    refine ⟨fun h => h.1.symm, ?_⟩
    rintro rfl
    exact ⟨rfl, hlink⟩
  · simp [hi]

/-- **The reviews of the rule after its flags**: the old ones, and a pending one for each fresh
flag. -/
theorem flagReviews_reviewsOf : ∀ {flags : List HITLFlag} {uuids : List String} {s : Store}
    {reasons : List ReasonCode},
    flagReviews clauseId k tenantId flags uuids s reasons = .ok s' →
      (∀ x ∈ s.reviewsOf k, x ∈ s'.reviewsOf k) ∧
      (∀ f ∈ freshFlags reasons flags, ∃ x ∈ s'.reviewsOf k, x.2.status = .pending ∧
        x.2.Represents f) ∧
      ∀ x ∈ s'.reviewsOf k, x ∈ s.reviewsOf k ∨
        x.2.status = .pending ∧ ∃ f ∈ freshFlags reasons flags, x.2.Represents f
  | [], _, s, _, h => by
    obtain rfl := Except.ok.inj h
    exact ⟨fun _ hx => hx, fun f hf => by simp [freshFlags] at hf, fun _ hx => .inl hx⟩
  | f :: fs, uuids, s, reasons, h => by
    rw [flagReviews] at h
    rw [freshFlags]
    split at h
    · rename_i hf
      rw [if_pos hf]
      exact flagReviews_reviewsOf h
    · rename_i hf
      rw [if_neg hf]
      obtain ⟨t, ht, h⟩ := Lib.Except.bind_ok_iff.1 h
      obtain ⟨hold, hnew, honly⟩ := flagReviews_reviewsOf h
      rw [insertReview_ok ht] at hold honly
      refine ⟨fun x hx => hold x ((mem_reviewsOf_insert rfl).2 (.inl hx)), ?_, fun x hx => ?_⟩
      · intro g hg
        rcases List.mem_cons.1 hg with rfl | hg
        · exact ⟨_, hold _ ((mem_reviewsOf_insert rfl).2 (.inr rfl)), rfl, rfl, rfl, rfl, rfl, rfl⟩
        · exact hnew g hg
      · rcases honly x hx with hx | ⟨hst, g, hg, hrep⟩
        · rcases (mem_reviewsOf_insert rfl).1 hx with hx | rfl
          · exact .inl hx
          · exact .inr ⟨rfl, f, List.mem_cons_self, rfl, rfl, rfl, rfl, rfl⟩
        · exact .inr ⟨hst, g, List.mem_cons_of_mem _ hg, hrep⟩

/-- The reviews of a rule after `addReviews`, by whether there are flags. -/
theorem addReviews_reviewsOf {clause : Clause} {ruleId : String} {compilation : CompilationResult}
    {uuids : List String}
    (h : addReviews s clauseId k clause ruleId tenantId compilation uuids = .ok s') :
    (compilation.hitlFlags ≠ [] ∧
      flagReviews clauseId k tenantId compilation.hitlFlags uuids s
        (((s.reviewsOf k).map (·.2)).map (·.reasonCode)) = .ok s') ∨
    (compilation.hitlFlags = [] ∧ s.reviewsOf k = [] ∧
      ∃ x ∈ s'.reviewsOf k, x.2.status = .pending) ∨
    (compilation.hitlFlags = [] ∧ s.reviewsOf k ≠ [] ∧ s' = s) := by
  unfold addReviews at h
  dsimp only at h
  split at h
  · rename_i hflags
    exact .inl ⟨hflags, h⟩
  · rename_i hflags
    split at h
    · rename_i hnone
      rw [insertReview_ok h]
      refine .inr (.inl ⟨not_not.1 hflags, List.map_eq_nil_iff.1 hnone, ?_⟩)
      exact ⟨_, (mem_reviewsOf_insert rfl).2 (.inr rfl), rfl⟩
    · rename_i hsome
      refine .inr (.inr ⟨not_not.1 hflags, fun hnil => hsome (by rw [hnil]; rfl), ?_⟩)
      exact (Except.ok.inj h).symm

/-! ## The reviews a compilation finds -/

/-- `compiled_rule_id` is a foreign key: a review is linked to a row that exists. -/
def LinksExist (s : Store) : Prop :=
  ∀ i v j, s.reviews.get? i = some v → v.compiledRuleId = some j → ∃ r, s.rules.get? j = some r

/-- The review is linked to the rule that a compilation of the clause finds. -/
def Earlier (s : Store) (clauseId : Nat) (ruleId : String) (x : Nat × HITLReview) : Prop :=
  ∃ k r, s.rules.get? k = some r ∧ r.ruleId = ruleId ∧ r.clauseId = clauseId ∧
    isFailedRuleId ruleId = false ∧ x ∈ s.reviewsOf k

/-- A rule that is not deleted with the placeholders keeps its reviews. -/
theorem mem_reviewsOf_deleteFailedRules {r : CompiledRule} {x : Nat × HITLReview}
    (hr : (deleteFailedRules s clauseId).rules.get? k = some r) :
    x ∈ (deleteFailedRules s clauseId).reviewsOf k ↔ x ∈ s.reviewsOf k := by
  obtain ⟨hget, hkeep⟩ := get?_deleteFailedRules hr
  constructor
  · intro hx
    obtain ⟨hrow, hlink⟩ := mem_reviewsOf.1 hx
    exact mem_reviewsOf.2
      ⟨(frame_deleteFailedRules s clauseId none).review _ _ k hlink (by simp) hrow, hlink⟩
  · intro hx
    obtain ⟨hrow, hlink⟩ := mem_reviewsOf.1 hx
    refine mem_reviewsOf.2 ⟨?_, hlink⟩
    simp only [deleteFailedRules, Table.get?_modify, hrow, Option.map_some]
    rw [if_neg]
    rw [hlink, List.mem_map]
    rintro ⟨f, hf, hfk⟩
    obtain ⟨hfget, hfailed⟩ := Table.mem_select.1 hf
    obtain rfl : f.1 = k := Option.some.inj hfk
    obtain rfl : f.2 = r := Option.some.inj (hfget.symm.trans hget)
    simp only [decide_eq_true_eq] at hfailed
    simp [hkeep hfailed.1] at hfailed

/-- The rule that is found is the only one of its id and clause. -/
theorem existingRule_unique {ruleId : String} {found : Option Nat} {r : CompiledRule}
    (h : existingRule s ruleId clauseId = .ok found) (hr : s.rules.get? k = some r)
    (hid : r.ruleId = ruleId) (hclause : r.clauseId = clauseId) : found = some k := by
  have hmem : (k, r) ∈ s.rules.select fun r => r.ruleId = ruleId ∧ r.clauseId = clauseId :=
    Table.mem_select.2 ⟨hr, by simp [hid, hclause]⟩
  unfold existingRule at h
  split at h
  · rename_i hnil
    rw [hnil] at hmem
    cases hmem
  · rename_i q hq
    rw [hq, List.mem_singleton] at hmem
    rw [← Except.ok.inj h, ← hmem]
  · cases h

/-- **What a compilation does to the reviews of its rule**: it adds to those it finds. -/
theorem compileAndPersistRules_reviewsOf {clause : Clause} {ruleId : String}
    {compilation : CompilationResult} {uuids : List String} (hs : LinksExist s)
    (h : compileAndPersistRules s clauseId clause ruleId tenantId compilation uuids =
      .ok (k, s')) :
    ∃ t u, (∀ x, x ∈ t.reviewsOf k ↔ Earlier s clauseId ruleId x) ∧
      addReviews t clauseId k clause ruleId tenantId compilation uuids = .ok u ∧
      ∀ x, x ∈ s'.reviewsOf k ↔ x ∈ u.reviewsOf k := by
  obtain ⟨⟨i, t⟩, hrule, h⟩ := Lib.Except.bind_ok_iff.1 h
  obtain ⟨u, hreviews, h⟩ := Lib.Except.bind_ok_iff.1 h
  obtain ⟨rfl, rfl⟩ := Prod.mk.inj (Except.ok.inj h)
  refine ⟨t, u, fun x => ?_, hreviews, fun x => by rw [mem_reviewsOf, mem_reviewsOf]⟩
  have ht : x ∈ t.reviewsOf i ↔ x ∈ (deleteFailedRules s clauseId).reviewsOf i := by
    rw [mem_reviewsOf, mem_reviewsOf, compiledRule_reviews hrule]
  rw [ht]
  obtain ⟨found, hfound, hrule⟩ := Lib.Except.bind_ok_iff.1 hrule
  have hunique : ∀ {j q}, s.rules.get? j = some q → q.ruleId = ruleId → q.clauseId = clauseId →
      isFailedRuleId ruleId = false → found = some j := by
    intro j q hq hid hclause hfailed
    exact existingRule_unique hfound
      (get?_deleteFailedRules_keeps hq fun _ => hid ▸ hfailed) hid hclause
  split at hrule
  · obtain ⟨rfl, -⟩ := Prod.mk.inj (Except.ok.inj hrule)
    obtain ⟨r, hr, hid, hclause⟩ := existingRule_ok hfound
    rw [mem_reviewsOf_deleteFailedRules hr]
    obtain ⟨hget, hkeep⟩ := get?_deleteFailedRules hr
    constructor
    · exact fun hx => ⟨_, r, hget, hid, hclause, hid ▸ hkeep hclause, hx⟩
    · rintro ⟨j, q, hq, hqid, hqclause, hfailed, hx⟩
      rwa [Option.some.inj (hunique hq hqid hqclause hfailed)]
  · obtain ⟨rfl, -⟩ := insertRule_ok hrule
    refine iff_of_false (fun hx => ?_) ?_
    · -- nothing is linked to the next row
      obtain ⟨hrow, hlink⟩ := mem_reviewsOf.1 hx
      obtain ⟨r, hr⟩ := hs _ _ _
        ((frame_deleteFailedRules s clauseId none).review _ _ _ hlink (by simp) hrow) hlink
      exact Nat.lt_irrefl _ (Table.lt_next_of_get? hr)
    · rintro ⟨j, q, hq, hqid, hqclause, hfailed, -⟩
      cases hunique hq hqid hqclause hfailed

/-- The flag is in an open review that the compilation finds, or it is the first of its reason (up to
its id) and no review that is found has that reason. -/
def FlagKept (s : Store) (clauseId : Nat) (ruleId : String) (flags : List HITLFlag)
    (f : HITLFlag) : Prop :=
  (∃ x, Earlier s clauseId ruleId x ∧ x.2.Open ∧ x.2.Represents f) ∨
    ((∀ x, Earlier s clauseId ruleId x → x.2.reasonCode ≠ f.reasonCode) ∧
      ∀ g, flags.find? (fun h => h.reasonCode = f.reasonCode) = some g → g.Same f)

theorem represented_iff {clause : Clause} {ruleId : String} {compilation : CompilationResult}
    {uuids : List String} {f : HITLFlag} (hs : LinksExist s)
    (h : compileAndPersistRules s clauseId clause ruleId tenantId compilation uuids = .ok (k, s'))
    (hf : f ∈ compilation.hitlFlags) :
    (∃ x ∈ s'.reviewsOf k, x.2.Open ∧ x.2.Represents f) ↔
      FlagKept s clauseId ruleId compilation.hitlFlags f := by
  obtain ⟨t, u, hearlier, hadd, hafter⟩ := compileAndPersistRules_reviewsOf hs h
  simp only [hafter]
  rcases addReviews_reviewsOf hadd with ⟨-, hflags⟩ | ⟨hnil, -⟩ | ⟨hnil, -⟩
  · obtain ⟨hold, hnew, honly⟩ := flagReviews_reviewsOf hflags
    have hreason : ∀ g : HITLFlag,
        g.reasonCode ∉ ((t.reviewsOf k).map (·.2)).map (·.reasonCode) ↔
          ∀ x, Earlier s clauseId ruleId x → x.2.reasonCode ≠ g.reasonCode := by
      intro g
      rw [List.map_map]
      simp [← hearlier, eq_comm]
    constructor
    · rintro ⟨x, hx, hopen, hrep⟩
      rcases honly x hx with hx | ⟨-, g, hg, hgrep⟩
      · exact .inl ⟨x, (hearlier x).1 hx, hopen, hrep⟩
      · obtain ⟨hgreason, hfind⟩ := mem_freshFlags.1 hg
        have hsame := hgrep.same.1 hrep
        rw [hsame.reasonCode] at hfind
        refine .inr ⟨hsame.reasonCode ▸ (hreason g).1 hgreason, fun g' hg' => ?_⟩
        rwa [← Option.some.inj (hfind.symm.trans hg')]
    · rintro (⟨x, hx, hopen, hrep⟩ | ⟨hnone, hfirst⟩)
      · exact ⟨x, hold x ((hearlier x).2 hx), hopen, hrep⟩
      · obtain ⟨g, hg⟩ := Option.isSome_iff_exists.1 (List.find?_isSome.2 ⟨f, hf, by simp⟩ :
          (compilation.hitlFlags.find? fun h => h.reasonCode = f.reasonCode).isSome)
        have hsame := hfirst g hg
        rw [← hsame.reasonCode] at hg
        obtain ⟨x, hx, hst, hrep⟩ := hnew g (mem_freshFlags.2
          ⟨(hreason g).2 (hsame.reasonCode ▸ hnone), hg⟩)
        exact ⟨x, hx, .inl hst, hrep.same.2 hsame⟩
  · rw [hnil] at hf
    cases hf
  · rw [hnil] at hf
    cases hf

end

/-! ## Looking at a flag -/

/-- The status a review gets. -/
def Verdict.status : Verdict → ReviewStatus
  | .approve => .resolved
  | .reject => .rejected
  | .requestRevision => .revisionRequired

/-- A call that succeeds gives its review the status of the verdict. -/
theorem result_status {c : ReviewCall} {s s' : Store} (h : c.result s = .ok s') :
    ∃ k review closed, getReviewOr404 s c.reviewId = .ok (k, review) ∧
      Closes s s' k review closed ∧ closed.status = c.verdict.status := by
  unfold ReviewCall.result at h
  split at h
  · rename_i hv
    rw [hv]
    obtain ⟨a, ha, rfl⟩ := Lib.Except.map_ok_iff.1 h
    obtain ⟨k, review, hget, hst, ⟨ruleKey, rule, -, -, rfl⟩ | ⟨-, rfl⟩⟩ := approveReview_ok ha
    · exact ⟨k, review, _, hget, approveLinked_closes (getReviewOr404_ok hget) hst _ _ _ _ _, rfl⟩
    · exact ⟨k, review, _, hget, approveUnlinked_closes (getReviewOr404_ok hget) hst _ _ _, rfl⟩
  · rename_i hv
    rw [hv]
    obtain ⟨k, review, hget, hst, rfl⟩ := rejectReview_ok h
    exact ⟨k, review, _, hget, refuse_closes (getReviewOr404_ok hget) hst _ _ _, rfl⟩
  · rename_i hv
    rw [hv]
    obtain ⟨k, review, hget, hst, rfl⟩ := requestRevision_ok h
    exact ⟨k, review, _, hget, revise_closes (getReviewOr404_ok hget) hst _ _ _, rfl⟩

theorem Verdict.status_closed (v : Verdict) : v.status ≠ .pending ∧ v.status ≠ .inReview := by
  cases v <;> decide

/-- Review `i` is linked to the rule, or an officer has closed it. -/
def LinkedOrClosed (s : Store) (i rule : Nat) : Prop :=
  ∃ v, s.reviews.get? i = some v ∧ (v.compiledRuleId = some rule ∨ ¬ v.Open)

theorem LinkedOrClosed.result {c : ReviewCall} {s s' : Store} {i rule : Nat}
    (h : LinkedOrClosed s i rule) (hc : c.result s = .ok s') : LinkedOrClosed s' i rule := by
  obtain ⟨k, review, closed, -, hcl, hst⟩ := result_status hc
  obtain ⟨v, hv, hor⟩ := h
  by_cases hi : i = k
  · subst hi
    refine ⟨closed, ?_, .inr ?_⟩
    · rw [hcl.reviews, Table.get?_update, if_pos rfl, hv, Option.map_some]
    · rw [HITLReview.Open, hst]
      exact not_or.2 c.verdict.status_closed
  · refine ⟨v, ?_, hor⟩
    rw [hcl.reviews, Table.get?_update, if_neg hi, hv]

theorem LinkedOrClosed.run : ∀ (calls : List ReviewCall) {s : Store} {i rule : Nat},
    LinkedOrClosed s i rule → LinkedOrClosed (reviewRun s calls) i rule
  | [], _, _, _, h => h
  | c :: calls, s, _, _, h => by
    cases hc : c.result s with
    | error e => simpa [reviewRun, commit, hc] using LinkedOrClosed.run calls h
    | ok s' => simpa [reviewRun, commit, hc] using LinkedOrClosed.run calls (h.result hc)

/-- A call that activates a rule leaves none of the reviews that were linked to it open. -/
theorem closed_of_activates {c : ReviewCall} {s : Store} {i rule : Nat}
    (h : LinkedOrClosed s i rule) (hact : c.activates s = some rule) :
    ∃ v, (commit s (c.result s)).reviews.get? i = some v ∧ ¬ v.Open := by
  obtain ⟨k, review, r, hget, hpending, hlink, hrule, hall⟩ := activates_some hact
  obtain ⟨s', -, hres, -⟩ := approve_last (activates_verdict hact) hget hpending hlink hrule hall
  obtain ⟨k', review', closed, hget', hcl, hst⟩ := result_status hres
  obtain ⟨rfl, rfl⟩ := Prod.mk.inj (Except.ok.inj (hget.symm.trans hget'))
  obtain ⟨v, hv, hor⟩ := h
  simp only [hres, commit, hcl.reviews, Table.get?_update]
  by_cases hi : i = k
  · subst hi
    refine ⟨closed, by simp [hv], ?_⟩
    rw [HITLReview.Open, hst]
    exact not_or.2 c.verdict.status_closed
  · refine ⟨v, by simp [hi, hv], ?_⟩
    rcases hor with hvlink | hclosed
    · have hresolved : v.status = .resolved := hall (i, v) (mem_reviewsOf.2 ⟨hv, hvlink⟩) hi
      simp [HITLReview.Open, hresolved]
    · exact hclosed

/-- Every flag stands in an open review of the rule, and whichever calls follow, the call that
activates the rule leaves no such review open. -/
structure FlagsKept (s : Store) (rule : Nat) (flags : List HITLFlag) : Prop where
  represented : ∀ f ∈ flags, ∃ x ∈ s.reviewsOf rule, x.2.Open ∧ x.2.Represents f
  gated : ∀ x ∈ s.reviewsOf rule, ∀ calls (c : ReviewCall),
    c.activates (reviewRun s calls) = some rule →
      ∃ v, (reviewRun s (calls ++ [c])).reviews.get? x.1 = some v ∧ ¬ v.Open

theorem gated (s : Store) (rule : Nat) : ∀ x ∈ s.reviewsOf rule, ∀ calls (c : ReviewCall),
    c.activates (reviewRun s calls) = some rule →
      ∃ v, (reviewRun s (calls ++ [c])).reviews.get? x.1 = some v ∧ ¬ v.Open := by
  intro x hx calls c hact
  obtain ⟨hrow, hlink⟩ := mem_reviewsOf.1 hx
  have hlinked := LinkedOrClosed.run calls ⟨x.2, hrow, .inl hlink⟩
  simpa [reviewRun] using closed_of_activates hlinked hact

/-- **Every flag of a compilation stands in an open review of the rule exactly when** each flag is in
an open review that was there, or is the first of its reason and no review that was there has that
reason. -/
theorem flags_kept_iff (s s' : Store) (clauseId k : Nat) (clause : Clause)
    (ruleId tenantId : String) (compilation : CompilationResult) (uuids : List String)
    (hs : LinksExist s)
    (h : compileAndPersistRules s clauseId clause ruleId tenantId compilation uuids =
      .ok (k, s')) :
    FlagsKept s' k compilation.hitlFlags ↔
      ∀ f ∈ compilation.hitlFlags, FlagKept s clauseId ruleId compilation.hitlFlags f := by
  constructor
  · exact fun hk f hf => (represented_iff hs h hf).1 (hk.represented f hf)
  · exact fun hk => ⟨fun f hf => (represented_iff hs h hf).2 (hk f hf), gated s' k⟩

theorem linksExist_sampleClauses : LinksExist sampleClauses := by
  intro i v j hv
  simp [sampleClauses] at hv

/-- A flag on a span of the clause. -/
def spanFlag (flagId excerpt : String) : HITLFlag :=
  { sampleFlag flagId .ambiguousSpan with sourceExcerpt := some excerpt }

/-- Two flags of different reasons get a review each. -/
theorem flags_kept_two :
    ∃ k s', compileAndPersistRules sampleClauses 1 (sampleClause "1" 'a') "aa:1" "sebi_baseline"
        (sampleCompilation [spanFlag "v1" "as may be required", sampleFlag "v2" .unresolvedEntity])
        [] = .ok (k, s') ∧
      FlagsKept s' k [spanFlag "v1" "as may be required", sampleFlag "v2" .unresolvedEntity] := by
  obtain ⟨k, s', h⟩ : ∃ k s', compileAndPersistRules sampleClauses 1 (sampleClause "1" 'a') "aa:1"
      "sebi_baseline" (sampleCompilation
        [spanFlag "v1" "as may be required", sampleFlag "v2" .unresolvedEntity]) [] = .ok (k, s') :=
    ⟨_, _, rfl⟩
  refine ⟨k, s', h, (flags_kept_iff _ _ _ _ _ _ _ _ _ linksExist_sampleClauses h).2 ?_⟩
  intro f hf
  refine .inr ⟨?_, fun g hg => ?_⟩
  · rintro x ⟨k, r, hr, -⟩
    simp [sampleClauses] at hr
  · simp only [sampleCompilation, List.mem_cons, List.not_mem_nil, or_false] at hf
    rcases hf with rfl | rfl
    · obtain rfl := Option.some.inj hg
      exact ⟨rfl, rfl, rfl, rfl, rfl⟩
    · obtain rfl := Option.some.inj hg
      exact ⟨rfl, rfl, rfl, rfl, rfl⟩

/-- **Two ambiguous spans of one clause**: the second gets no review, and the approval of the first
activates the rule. -/
theorem flag_lost :
    ∃ k s', compileAndPersistRules sampleClauses 1 (sampleClause "1" 'a') "aa:1" "sebi_baseline"
        (sampleCompilation [spanFlag "v1" "as may be required", spanFlag "v2" "where feasible"])
        [] = .ok (k, s') ∧
      (∀ x ∈ s'.reviewsOf k, ¬ x.2.Represents (spanFlag "v2" "where feasible")) ∧
      (sampleCall .approve "v1").activates s' = some k := by
  refine ⟨_, _, rfl, fun x hx hrep => ?_, by decide +kernel⟩
  obtain rfl := List.mem_singleton.1 hx
  exact absurd hrep.sourceExcerpt (by decide)

/-! ## Sent back and compiled again -/

section
variable {s s' : Store} {clauseId k : Nat} {tenantId : String}

/-- A compilation leaves its rule a pending review exactly when it finds one, or finds none at all
and has no flags, or has a flag of a reason that it does not find. -/
theorem compiled_pending_iff {clause : Clause} {ruleId : String} {compilation : CompilationResult}
    {uuids : List String} (hs : LinksExist s)
    (h : compileAndPersistRules s clauseId clause ruleId tenantId compilation uuids =
      .ok (k, s')) :
    (∃ x ∈ s'.reviewsOf k, x.2.status = .pending) ↔
      (∃ x, Earlier s clauseId ruleId x ∧ x.2.status = .pending) ∨
      (compilation.hitlFlags = [] ∧ ∀ x, ¬ Earlier s clauseId ruleId x) ∨
      ∃ f ∈ compilation.hitlFlags, ∀ x, Earlier s clauseId ruleId x → x.2.reasonCode ≠ f.reasonCode := by
  obtain ⟨t, u, hearlier, hadd, hafter⟩ := compileAndPersistRules_reviewsOf hs h
  simp only [hafter, ← hearlier]
  rcases addReviews_reviewsOf hadd with ⟨hne, hflags⟩ | ⟨hnil, hnone, hnew⟩ | ⟨hnil, hsome, hut⟩
  · obtain ⟨hold, hnew, honly⟩ := flagReviews_reviewsOf hflags
    constructor
    · rintro ⟨x, hx, hst⟩
      rcases honly x hx with hx | ⟨-, f, hf, -⟩
      · exact .inl ⟨x, hx, hst⟩
      · obtain ⟨hreason, hfind⟩ := mem_freshFlags.1 hf
        refine .inr (.inr ⟨f, List.mem_of_find?_eq_some hfind, fun x hx heq => hreason ?_⟩)
        rw [List.map_map]
        exact List.mem_map.2 ⟨x, hx, heq⟩
    · rintro (⟨x, hx, hst⟩ | ⟨hnil, -⟩ | ⟨f, hf, hreason⟩)
      · exact ⟨x, hold x hx, hst⟩
      · exact absurd hnil hne
      · obtain ⟨g, hg⟩ := Option.isSome_iff_exists.1 (List.find?_isSome.2 ⟨f, hf, by simp⟩ :
          (compilation.hitlFlags.find? fun h => h.reasonCode = f.reasonCode).isSome)
        have hgf : g.reasonCode = f.reasonCode := by simpa using List.find?_some hg
        rw [← hgf] at hg hreason
        obtain ⟨x, hx, hst, -⟩ := hnew g (mem_freshFlags.2 ⟨by simpa using hreason, hg⟩)
        exact ⟨x, hx, hst⟩
  · refine iff_of_true hnew (.inr (.inl ⟨hnil, fun x hx => ?_⟩))
    rw [hnone] at hx
    cases hx
  · have hnever : ¬ ∀ x, x ∉ t.reviewsOf k := fun h => hsome (List.eq_nil_iff_forall_not_mem.2 h)
    simp only [hut, hnil, hnever, and_false, List.not_mem_nil, false_and, exists_false, or_false]

/-- A compilation that succeeds finds one rule at most, so what it finds is linked to that rule. -/
theorem earlier_iff_of_compiled {clause : Clause} {ruleId : String}
    {compilation : CompilationResult} {uuids : List String} {rule : Nat} {r : CompiledRule}
    (h : compileAndPersistRules s clauseId clause ruleId tenantId compilation uuids = .ok (k, s'))
    (hr : s.rules.get? rule = some r) (hid : r.ruleId = ruleId) (hclause : r.clauseId = clauseId)
    {x : Nat × HITLReview} :
    Earlier s clauseId ruleId x ↔ isFailedRuleId ruleId = false ∧ x ∈ s.reviewsOf rule := by
  refine ⟨?_, fun ⟨hfailed, hx⟩ => ⟨rule, r, hr, hid, hclause, hfailed, hx⟩⟩
  rintro ⟨j, q, hq, hqid, hqclause, hfailed, hx⟩
  obtain ⟨⟨_, _⟩, hrule, -⟩ := Lib.Except.bind_ok_iff.1 h
  obtain ⟨found, hfound, -⟩ := Lib.Except.bind_ok_iff.1 hrule
  have hj := existingRule_unique hfound
    (get?_deleteFailedRules_keeps hq fun _ => hqid ▸ hfailed) hqid hqclause
  have hrule := existingRule_unique hfound
    (get?_deleteFailedRules_keeps hr fun _ => hid ▸ hfailed) hid hclause
  obtain rfl : j = rule := Option.some.inj (hj.symm.trans hrule)
  exact ⟨hfailed, hx⟩

end

section
variable {s : Store} {i : Nat} {review : HITLReview} (hfound : s.reviews.get? i = some review)
  (officer : String) (notes : Option String) (now : DateTime)

/-- The rules after a revision request have the ids and clauses they had. -/
theorem get?_revise (s : Store) (i : Nat) (review : HITLReview) (j : Nat) : ∃ f : CompiledRule → CompiledRule,
    (∀ r, (f r).ruleId = r.ruleId ∧ (f r).clauseId = r.clauseId) ∧
      (revise s i review officer notes now).rules.get? j = (s.rules.get? j).map f := by
  simp only [revise, updateRuleOf]
  split
  · rename_i ruleKey _
    by_cases hj : j = ruleKey
    · refine ⟨_, ?_, by rw [Table.get?_update, if_pos hj]⟩
      exact fun r => ⟨rfl, rfl⟩
    · exact ⟨id, fun r => ⟨rfl, rfl⟩, by rw [Table.get?_update, if_neg hj, Option.map_id, id]⟩
  · exact ⟨id, fun r => ⟨rfl, rfl⟩, by rw [Option.map_id, id]⟩

include hfound

/-- The reviews linked to a rule after a revision request: all but the one that was sent back. -/
theorem mem_reviewsOf_revise {rule : Nat} {x : Nat × HITLReview} :
    x ∈ (revise s i review officer notes now).reviewsOf rule ↔ x ∈ s.reviewsOf rule ∧ x.1 ≠ i := by
  rw [mem_reviewsOf, mem_reviewsOf, revise, Table.get?_update]
  by_cases hx : x.1 = i
  · simp only [hx, if_true, hfound, Option.map_some, Option.some.injEq, ne_eq, not_true_eq_false,
      and_false, iff_false, not_and]
    intro hclosed hlink
    rw [← hclosed] at hlink
    cases hlink
  · simp [hx]

theorem LinksExist.revise (hs : LinksExist s) :
    LinksExist (revise s i review officer notes now) := by
  intro n v j hv hj
  have hmem := (mem_reviewsOf_revise hfound officer notes now).1
    (mem_reviewsOf.2 ⟨hv, hj⟩ : (n, v) ∈ _)
  obtain ⟨hrow, hlink⟩ := mem_reviewsOf.1 hmem.1
  obtain ⟨r, hr⟩ := hs n v j hrow hlink
  obtain ⟨f, -, hf⟩ := get?_revise officer notes now s i review j
  exact ⟨f r, by rw [hf, hr, Option.map_some]⟩

end

/-- The other reviews of the rule leave it a pending review, or the new compilation does. -/
def RevisionReviewed (s : Store) (i rule : Nat) (r : CompiledRule) (flags : List HITLFlag) : Prop :=
  isFailedRuleId r.ruleId = true ∨
    (∃ x ∈ s.reviewsOf rule, x.1 ≠ i ∧ x.2.status = .pending) ∨
    (flags = [] ∧ ∀ x ∈ s.reviewsOf rule, x.1 = i) ∨
    ∃ f ∈ flags, ∀ x ∈ s.reviewsOf rule, x.1 ≠ i → x.2.reasonCode ≠ f.reasonCode

/-- **A rule that was sent back and is compiled again has a pending review exactly when** another
review of it is pending, or it has no other review and the compilation no flags, or the compilation
has a flag of a reason that no other review of it has, or it was a placeholder. -/
theorem revision_reviewed_iff (s s₁ s₂ : Store) (c : ReviewCall) (i rule k : Nat)
    (review : HITLReview) (r : CompiledRule) (clause : Clause) (tenantId : String)
    (compilation : CompilationResult) (uuids : List String) (hs : LinksExist s)
    (hverdict : c.verdict = .requestRevision) (hc : c.result s = .ok s₁)
    (hget : getReviewOr404 s c.reviewId = .ok (i, review)) (hi : (i, review) ∈ s.reviewsOf rule)
    (hrule : s.rules.get? rule = some r)
    (hcompile : compileAndPersistRules s₁ r.clauseId clause r.ruleId tenantId compilation uuids =
      .ok (k, s₂)) :
    (∃ x ∈ s₂.reviewsOf k, x.2.status = .pending) ↔
      RevisionReviewed s i rule r compilation.hitlFlags := by
  simp only [ReviewCall.result, hverdict] at hc
  obtain ⟨i', review', hget', -, rfl⟩ := requestRevision_ok hc
  obtain ⟨rfl, rfl⟩ := Prod.mk.inj (Except.ok.inj (hget.symm.trans hget'))
  have hfound := (mem_reviewsOf.1 hi).1
  obtain ⟨f, hf, hget⟩ := get?_revise c.officer c.notes c.now s i review rule
  rw [hrule, Option.map_some] at hget
  rw [compiled_pending_iff (hs.revise hfound _ _ _) hcompile]
  simp only [earlier_iff_of_compiled hcompile hget (hf r).1 (hf r).2,
    mem_reviewsOf_revise hfound]
  by_cases hfailed : isFailedRuleId r.ruleId = true
  · refine iff_of_true ?_ (.inl hfailed)
    cases hflags : compilation.hitlFlags with
    | nil => simp [hfailed]
    | cons f fs => exact .inr (.inr ⟨f, List.mem_cons_self, by simp [hfailed]⟩)
  · have hplain : isFailedRuleId r.ruleId = false := by simpa using hfailed
    simp only [RevisionReviewed, hplain, Bool.false_eq_true, false_or, true_and, not_and, not_not,
      and_imp, and_assoc]

theorem linksExist_of_rows {s : Store}
    (h : ∀ x ∈ s.reviews.rows, ∀ j ∈ x.2.compiledRuleId, (s.rules.get? j).isSome = true) :
    LinksExist s :=
  fun i v j hv hj => Option.isSome_iff_exists.1 (h (i, v) (Table.get?_eq_some_iff.1 hv) j hj)

/-- The circular has failed, and review `v2` of rule 1 is still pending when `v1` is sent back. -/
theorem revision_reviewed_sibling :
    ∃ s₁ k s₂, (sampleCall .requestRevision "v1").result
        (reviewRun sampleStore [sampleCall .reject "v3"]) = .ok s₁ ∧
      compileAndPersistRules s₁ 1 (sampleClause "1" 'a') "aa:1" "sebi_baseline"
        (sampleCompilation []) [] = .ok (k, s₂) ∧
      ∃ x ∈ s₂.reviewsOf k, x.2.status = .pending := by
  obtain ⟨s₁, h₁⟩ : ∃ s₁, (sampleCall .requestRevision "v1").result
      (reviewRun sampleStore [sampleCall .reject "v3"]) = .ok s₁ := ⟨_, rfl⟩
  obtain ⟨k, s₂, h₂⟩ : ∃ k s₂, compileAndPersistRules s₁ 1 (sampleClause "1" 'a') "aa:1"
      "sebi_baseline" (sampleCompilation []) [] = .ok (k, s₂) := by
    cases h₁
    exact ⟨_, _, rfl⟩
  refine ⟨s₁, k, s₂, h₁, h₂, (revision_reviewed_iff _ s₁ s₂ (sampleCall .requestRevision "v1") 1 1 k _ _
    _ _ _ _ (linksExist_of_rows (by decide +kernel)) rfl h₁ rfl (mem_reviewsOf.2 ⟨rfl, rfl⟩) rfl
    h₂).2 (.inr (.inl ⟨(2, _), mem_reviewsOf.2 ⟨rfl, rfl⟩, by decide, rfl⟩))⟩

/-- **Review `v2` is resolved, `v1` is sent back, and the new compilation has no flags**: the rule has
a resolved review, so it gets no new one. -/
theorem revision_not_reviewed :
    ∃ s₁ k s₂ review, getReviewOr404
        (reviewRun sampleStore [sampleCall .reject "v3", sampleCall .approve "v2"]) "v1" =
          .ok (1, review) ∧ review.compiledRuleId = some 1 ∧
      (sampleCall .requestRevision "v1").result
        (reviewRun sampleStore [sampleCall .reject "v3", sampleCall .approve "v2"]) = .ok s₁ ∧
      compileAndPersistRules s₁ 1 (sampleClause "1" 'a') "aa:1" "sebi_baseline"
        (sampleCompilation []) [] = .ok (k, s₂) ∧
      k = 1 ∧ ∀ x ∈ s₂.reviewsOf k, x.2.status ≠ .pending :=
  ⟨_, _, _, _, rfl, rfl, rfl, rfl, rfl, by decide +kernel⟩

end RegEngine.Hitl
