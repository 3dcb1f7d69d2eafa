import RegEngine.Compiler.Rego
import RegEngine.Lib.Except
import RegEngine.Lib.Text

/-!
# What the parts of a module say

On an input with numeric facts, each part of the module of `compile_rule_to_rego` means what the
rule says. A fact that is absent neither satisfies its threshold nor breaches it.

* `eval_entityGuard`: the guard tests the entity type, of whatever kind.
* `evalBody_passCondition`: a condition holds when the threshold's fact satisfies it (`Passes`).
* `violationClauses_covers`, `eval_violation`: the violation bodies of a threshold fire exactly on
  the values that breach it.
-/

namespace RegEngine.Compiler

open Lib Lib.Rego Lib.Rego.Outcome Lib.Except
open scoped Classical

/-! ## Numbers -/

/-- The number a bound is written as. -/
def bound (d : Decimal) : Rat := if d.isInteger then d.toInt else d.toRat

theorem num_regoScalar (d : Decimal) : (regoScalar d).num? = some (bound d) := by
  unfold regoScalar bound
  split <;> rfl

/-- A number satisfies the threshold. -/
def NumericalThreshold.Satisfied (t : NumericalThreshold) (x : Rat) : Prop :=
  match t.operator with
  | .gte => bound t.value ≤ x
  | .gt => bound t.value < x
  | .lte => x ≤ bound t.value
  | .lt => x < bound t.value
  | .eq => x = bound t.value
  | .range => bound t.value ≤ x ∧ ∀ u ∈ t.valueUpper, x ≤ bound u

/-- The threshold's fact is there and has this value. -/
def FactIs (facts : Json) (t : NumericalThreshold) (x : Rat) : Prop :=
  ∃ f j, thresholdField t = .ok f ∧ facts.get? f = some j ∧ j.num? = some x

/-- The threshold's fact is there and satisfies it. -/
def Passes (facts : Json) (t : NumericalThreshold) : Prop := ∃ x, FactIs facts t x ∧ t.Satisfied x

/-- The threshold's fact is there and breaches it. -/
def Breaches (facts : Json) (t : NumericalThreshold) : Prop :=
  ∃ x, FactIs facts t x ∧ ¬ t.Satisfied x

/-- The threshold's fact is absent. -/
def FactMissing (facts : Json) (t : NumericalThreshold) : Prop :=
  ∃ f, thresholdField t = .ok f ∧ facts.get? f = none

/-- Every fact is a number. -/
def NumericFacts (facts : Json) : Prop := ∀ f j, facts.get? f = some j → ∃ x, j.num? = some x

/-- The threshold's fact, if it is there, is a number. -/
def NumericAt (facts : Json) (t : NumericalThreshold) : Prop :=
  ∀ f j, thresholdField t = .ok f → facts.get? f = some j → ∃ x, j.num? = some x

theorem NumericFacts.at {facts : Json} (h : NumericFacts facts) (t : NumericalThreshold) :
    NumericAt facts t := fun f j _ hj => h f j hj

theorem numericFacts_singleton (f : String) {x : Json} {q : Rat} (hx : x.num? = some q) :
    NumericFacts (.obj [(f, x)]) := by
  intro g j hj
  by_cases hf : f = g
  · obtain rfl : x = j := by simpa [Json.get?, hf] using hj
    exact ⟨q, hx⟩
  · simp [Json.get?, hf] at hj

/-- The entity type satisfies the rule's guard. -/
def GuardHolds (rule : ExtractedComplianceRule) (entityType : String) : Prop :=
  guardEntities rule = [] ∨ entityType ∈ guardEntities rule

/-- The document's entity type is an entity of the guard. -/
def EntityNamed (rule : ExtractedComplianceRule) (input : Json) : Prop :=
  ∃ e ∈ guardEntities rule, input.get? "entity_type" = some (.str e)

/-- The document satisfies the rule's guard, whatever its entity type is. -/
def InGuard (rule : ExtractedComplianceRule) (input : Json) : Prop :=
  guardEntities rule = [] ∨ EntityNamed rule input

theorem inGuard_iff {rule : ExtractedComplianceRule} {input : Json} {e : String}
    (he : input.get? "entity_type" = some (.str e)) : InGuard rule input ↔ GuardHolds rule e := by
  refine or_congr_right ⟨?_, fun hmem => ⟨e, hmem, he⟩⟩
  rintro ⟨e', hmem, he'⟩
  obtain rfl : e = e' := by simpa using he.symm.trans he'
  exact hmem

theorem FactIs.unique {facts : Json} {t : NumericalThreshold} {x y : Rat} (hx : FactIs facts t x)
    (hy : FactIs facts t y) : x = y := by
  obtain ⟨f, j, hf, hj, hx⟩ := hx
  obtain ⟨f', j', hf', hj', hy⟩ := hy
  obtain rfl : f = f' := Except.ok.inj (hf.symm.trans hf')
  obtain rfl : j = j' := Option.some.inj (hj.symm.trans hj')
  exact Option.some.inj (hx.symm.trans hy)

/-! ## Conditions -/

section
variable {input facts : Json} {sprintf : String → List Json → String}
  {doc : String → Outcome Json} {env : Env} {t : NumericalThreshold}

theorem follow_fact (hf : input.get? "facts" = some facts) (f : String) :
    follow input ["facts", f] = match facts.get? f with
      | some j => value j
      | none => undefined := by
  cases hj : facts.get? f <;> simp [follow, hf, hj]

/-- One comparison of the threshold's fact. -/
theorem eval_factCmp (hf : input.get? "facts" = some facts) (hn : NumericAt facts t)
    {f : String} (ht : thresholdField t = .ok f) (op : CmpOp) (d : Decimal) :
    (Literal.cmp op (factTerm f) (.lit (regoScalar d))).eval sprintf input doc env =
      guard (∃ x, FactIs facts t x ∧ op.Rel x (bound d)) env := by
  have hpath := follow_fact hf f
  cases hj : facts.get? f with
  | none =>
    rw [hj] at hpath
    rw [factTerm, eval_cmp_undefined hpath, guard_neg]
    rintro ⟨x, ⟨f', j, ht', hj', -⟩, -⟩
    obtain rfl : f = f' := Except.ok.inj (ht.symm.trans ht')
    simp [hj] at hj'
  | some j =>
    rw [hj] at hpath
    obtain ⟨x, hx⟩ := hn f j ht hj
    have hfact : FactIs facts t x := ⟨f, j, ht, hj, hx⟩
    rw [factTerm, eval_cmp_lit hpath hx (num_regoScalar d)]
    refine guard_congr ⟨fun hrel => ⟨x, hfact, hrel⟩, ?_⟩ env
    rintro ⟨y, hy, hrel⟩
    rwa [hfact.unique hy]

theorem satisfied_of_ne_range (h : t.operator ≠ .range) (x : Rat) :
    t.Satisfied x ↔ t.operator.cmp.Rel x (bound t.value) := by
  unfold NumericalThreshold.Satisfied
  cases ho : t.operator <;> simp [ComparisonOperator.cmp, CmpOp.Rel]
  exact absurd ho h

theorem not_satisfied_of_ne_range (h : t.operator ≠ .range) (x : Rat) :
    ¬ t.Satisfied x ↔ t.operator.negation.Rel x (bound t.value) := by
  unfold NumericalThreshold.Satisfied
  cases ho : t.operator <;> simp [ComparisonOperator.negation, CmpOp.Rel]
  exact absurd ho h

theorem upperBound_ok {u : Decimal} (h : upperBound t = .ok u) : t.valueUpper = some u := by
  unfold upperBound at h
  split at h
  · rename_i upper hu
    rw [hu, Except.ok.inj h]
  · cases h

/-- **A condition holds exactly when the threshold's fact is there and satisfies it.** -/
theorem evalBody_passCondition (hf : input.get? "facts" = some facts) (hn : NumericAt facts t)
    {body : List Literal} (h : passCondition t = .ok body) :
    evalBody sprintf input doc env body = guard (Passes facts t) env := by
  unfold passCondition at h
  obtain ⟨f, ht, h⟩ := bind_ok_iff.1 h
  by_cases hr : t.operator = .range
  · rw [if_pos hr] at h
    obtain ⟨u, hu, h⟩ := bind_ok_iff.1 h
    obtain rfl := Except.ok.inj h
    have hiff : Passes facts t ↔ (∃ x, FactIs facts t x ∧ CmpOp.ge.Rel x (bound t.value)) ∧
        ∃ x, FactIs facts t x ∧ CmpOp.le.Rel x (bound u) := by
      simp only [Passes, NumericalThreshold.Satisfied, hr, upperBound_ok hu, Option.mem_some_iff,
        forall_eq', CmpOp.Rel]
      constructor
      · rintro ⟨x, hx, hlow, hhigh⟩
        exact ⟨⟨x, hx, hlow⟩, x, hx, hhigh⟩
      · rintro ⟨⟨x, hx, hlow⟩, y, hy, hhigh⟩
        exact ⟨x, hx, hlow, hx.unique hy ▸ hhigh⟩
    simp only [evalBody, eval_factCmp hf hn ht, bind_value_right]
    exact guard_bind_guard hiff env
  · rw [if_neg hr] at h
    obtain rfl := Except.ok.inj h
    simp only [evalBody, eval_factCmp hf hn ht, Passes, satisfied_of_ne_range hr, bind_value_right]

/-! ## Violations -/

/-- An argument of a message: the fact, or a constant. -/
def PlainArg (f : String) (a : Term) : Prop :=
  a = factTerm f ∨ (∃ c, a = .lit c) ∨ ∃ s, a = .quoted s

/-- A violation body compares the fact of a field with a bound and formats a message. -/
structure IsClause (f : String) (v : Literal × Term) (op : CmpOp) (d : Decimal) : Prop where
  cond : v.1 = .cmp op (factTerm f) (.lit (regoScalar d))
  message : ∃ format args, v.2 = .sprintf (.quoted format) (.array args) ∧ ∀ a ∈ args, PlainArg f a

theorem bound_eq_of_regoScalar {d d' : Decimal} (h : regoScalar d = regoScalar d') :
    bound d = bound d' := by
  have hn := num_regoScalar d
  rw [h, num_regoScalar] at hn
  exact (Option.some.inj hn).symm

/-- The clause fires on this value of the fact. -/
def Fires (f : String) (v : Literal × Term) (x : Rat) : Prop :=
  ∃ op d, IsClause f v op d ∧ op.Rel x (bound d)

theorem IsClause.fires_iff {f : String} {v : Literal × Term} {op : CmpOp} {d : Decimal}
    (h : IsClause f v op d) (x : Rat) : Fires f v x ↔ op.Rel x (bound d) := by
  constructor
  · rintro ⟨op', d', h', hrel⟩
    have hcond := h.cond.symm.trans h'.cond
    simp only [Literal.cmp.injEq, Term.lit.injEq, true_and] at hcond
    rw [hcond.1, bound_eq_of_regoScalar hcond.2]
    exact hrel
  · exact fun hrel => ⟨op, d, h, hrel⟩

theorem isClause_mk {f : String} (op : CmpOp) (d : Decimal) (format : String) {args : List Term}
    (h : ∀ a ∈ args, PlainArg f a) :
    IsClause f (.cmp op (factTerm f) (.lit (regoScalar d)), .sprintf (.quoted format) (.array args))
      op d :=
  ⟨rfl, format, args, rfl, h⟩

/-- The violation bodies of a field cover exactly the values that breach the threshold. -/
def Covers (t : NumericalThreshold) (f : String) (vs : List (Literal × Term)) : Prop :=
  (∀ v ∈ vs, ∃ op d, IsClause f v op d) ∧ ∀ x, ¬ t.Satisfied x ↔ ∃ v ∈ vs, Fires f v x

theorem covers_single {f : String} {v : Literal × Term} (hr : t.operator ≠ .range)
    (hv : IsClause f v t.operator.negation t.value) : Covers t f [v] := by
  refine ⟨fun w hw => ?_, fun x => ?_⟩
  · rw [List.mem_singleton.1 hw]
    exact ⟨_, _, hv⟩
  · simp only [List.mem_singleton, exists_eq_left, hv.fires_iff]
    exact not_satisfied_of_ne_range hr x

theorem covers_range {f : String} {low high : Literal × Term} {u : Decimal}
    (hr : t.operator = .range) (hu : t.valueUpper = some u) (hlow : IsClause f low .lt t.value)
    (hhigh : IsClause f high .gt u) : Covers t f [low, high] := by
  refine ⟨fun w hw => ?_, fun x => ?_⟩
  · rcases List.mem_cons.1 hw with rfl | hw
    · exact ⟨_, _, hlow⟩
    · rw [List.mem_singleton.1 hw]
      exact ⟨_, _, hhigh⟩
  · simp only [List.mem_cons, List.not_mem_nil, or_false, exists_eq_or_imp, exists_eq_left,
      hlow.fires_iff, hhigh.fires_iff, CmpOp.Rel, NumericalThreshold.Satisfied, hr, hu,
      Option.mem_some_iff, forall_eq', not_and_or, not_le]

theorem violationClauses_ne_nil {clause : String} {vs : List (Literal × Term)}
    (h : violationClauses t clause = .ok vs) : vs ≠ [] := by
  obtain ⟨f, ht, h⟩ := bind_ok_iff.1 h
  dsimp only at h
  split at h
  · obtain ⟨u, hu, h⟩ := bind_ok_iff.1 h
    obtain rfl := Except.ok.inj h
    exact List.cons_ne_nil _ _
  · obtain rfl := Except.ok.inj h
    exact List.cons_ne_nil _ _

theorem violationClauses_covers {clause : String} {vs : List (Literal × Term)}
    (h : violationClauses t clause = .ok vs) : ∃ f, thresholdField t = .ok f ∧ Covers t f vs := by
  unfold violationClauses at h
  obtain ⟨f, ht, h⟩ := bind_ok_iff.1 h
  refine ⟨f, ht, ?_⟩
  dsimp only at h
  by_cases hr : t.operator = .range
  · rw [if_pos hr] at h
    obtain ⟨u, hu, h⟩ := bind_ok_iff.1 h
    obtain rfl := Except.ok.inj h
    exact covers_range hr (upperBound_ok hu) (isClause_mk _ _ _ (by simp [PlainArg]))
      (isClause_mk _ _ _ (by simp [PlainArg]))
  · rw [if_neg hr] at h
    obtain rfl := Except.ok.inj h
    exact covers_single hr (isClause_mk _ _ _ (by simp [PlainArg]))

/-- The message of a violation is a text once the fact is there. -/
theorem evals_plain (hf : input.get? "facts" = some facts) {f : String} {j : Json}
    (hj : facts.get? f = some j) : ∀ {args : List Term}, (∀ a ∈ args, PlainArg f a) →
    ∃ l, Term.evals sprintf input doc env args = value l
  | [], _ => ⟨[], rfl⟩
  | a :: args, h => by
    obtain ⟨l, hl⟩ := evals_plain hf hj fun b hb => h b (List.mem_cons_of_mem _ hb)
    have ha : ∃ v, a.eval sprintf input doc env = value v := by
      rcases h a List.mem_cons_self with rfl | ⟨c, rfl⟩ | ⟨s, rfl⟩
      · exact ⟨j, by simp only [factTerm, Term.eval, follow_fact hf f, hj]⟩
      · exact ⟨c, rfl⟩
      · exact ⟨.str s, rfl⟩
    obtain ⟨v, hv⟩ := ha
    exact ⟨v :: l, by simp only [Term.evals, hv, hl, bind_value]⟩

/-- **A violation body** that follows a guard gives a text exactly when the guard holds and the
clause fires on the fact. -/
theorem eval_violation (hf : input.get? "facts" = some facts) (hn : NumericAt facts t)
    {f : String} (ht : thresholdField t = .ok f) {v : Literal × Term} {op : CmpOp} {d : Decimal}
    (hv : IsClause f v op d) {guardBody : List Literal} {G : Prop}
    (hg : evalBody sprintf input doc [] guardBody = guard G []) :
    ∃ s, (Rule.partialSet "violation" (.var "msg")
        (guardBody ++ [v.1, .assign "msg" v.2])).eval sprintf input doc =
      guard (G ∧ ∃ x, FactIs facts t x ∧ Fires f v x) (.str s) := by
  simp only [hv.fires_iff]
  simp only [Rule.eval, evalBody_append, hg]
  by_cases hG : G
  · rw [guard_pos hG, bind_value]
    simp only [evalBody, hv.cond, eval_factCmp hf hn ht]
    by_cases hx : ∃ x, FactIs facts t x ∧ op.Rel x (bound d)
    · obtain ⟨-, ⟨f', j, ht', hj, -⟩, -⟩ := id hx
      obtain rfl : f = f' := Except.ok.inj (ht.symm.trans ht')
      obtain ⟨format, args, hmsg, hplain⟩ := hv.message
      obtain ⟨l, hl⟩ : ∃ l, Term.evals sprintf input doc [] args = value l :=
        evals_plain hf hj hplain
      refine ⟨sprintf format l, ?_⟩
      rw [guard_pos hx, guard_pos ⟨hG, hx⟩]
      simp [Literal.eval, Term.eval, hmsg, hl]
    · refine ⟨"", ?_⟩
      rw [guard_neg hx, guard_neg fun h => hx h.2]
      rfl
  · refine ⟨"", ?_⟩
    rw [guard_neg hG, guard_neg fun h => hG h.1]
    rfl

/-! ## The guard -/

theorem guardEntities_eq_nil_iff {rule : ExtractedComplianceRule} :
    entityGuard rule = none ↔ guardEntities rule = [] := by
  unfold entityGuard
  rcases guardEntities rule with _ | ⟨e, _ | ⟨e', es⟩⟩ <;> simp

theorem evals_quoted (es : List String) :
    Term.evals sprintf input doc env (es.map .quoted) = value (es.map .str) := by
  induction es with
  | nil => rfl
  | cons e es ih => simp [Term.evals, Term.eval, ih]

/-- **The guard tests the entity type.** -/
theorem eval_entityGuard {rule : ExtractedComplianceRule} {g : Literal}
    (h : entityGuard rule = some g) :
    g.eval sprintf input doc env = guard (EntityNamed rule input) env := by
  cases he : input.get? "entity_type" with
  | none =>
    have hpath : follow input ["entity_type"] = undefined := by simp [follow, he]
    have hnot : ¬ EntityNamed rule input := by
      rintro ⟨e, -, he'⟩
      rw [he] at he'
      cases he'
    rw [guard_neg hnot]
    unfold entityGuard at h
    split at h <;> cases h <;> simp [Literal.eval, Term.eval, hpath]
  | some v =>
    have hpath : follow input ["entity_type"] = value v := by simp [follow, he]
    unfold entityGuard at h
    split at h
    · cases h
    · rename_i a hes
      obtain rfl := Option.some.inj h
      simp only [Literal.eval, Term.eval, hpath, bind_value]
      refine guard_congr ?_ env
      rw [CmpOp.holds, beq_iff_eq, Json.cmp_sortKeys_eq_str_iff]
      simp [EntityNamed, hes, he]
    · obtain rfl := Option.some.inj h
      simp only [Literal.eval, Term.eval, hpath, bind_value, evals_quoted]
      refine guard_congr ?_ env
      simp only [List.any_eq_true, beq_iff_eq, EntityNamed, he, Option.some.injEq]
      constructor
      · rintro ⟨w, hw, heq⟩
        obtain ⟨e, hmem, rfl⟩ := List.mem_map.1 (mem_setOf hw)
        exact ⟨e, hmem, Json.cmp_sortKeys_eq_str_iff.1 heq⟩
      · rintro ⟨e, hmem, rfl⟩
        exact ⟨.str e, mem_setOf_str.2 hmem, Json.cmp_sortKeys_eq_str_iff.2 rfl⟩

end

end RegEngine.Compiler
