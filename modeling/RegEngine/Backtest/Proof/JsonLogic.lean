import RegEngine.Backtest.CandidateEvaluator
import RegEngine.Compiler.Proof.JsonLogic
import RegEngine.Compiler.Proof.Lexical

/-!
# What the tree of a rule comes to

`evaluate_jsonlogic` stops at the first clause that is not true. On the tree of a rule this is the
guard or a threshold, and a threshold's clause is a truth value unless its fact is absent.

* `evaluate_threshold`: the clause of one threshold.
* `evaluateAll_thresholds`, `evaluate_logic`: the tree, by the first clause that is not true.
-/

namespace RegEngine.Backtest

open Lib Lib.Python Lib.Rego Lib.Except Compiler Execution

/-! ## Facts as Python reads them -/

/-- The threshold's fact is there and has this value for Python. -/
def PyFactIs (facts : Json) (t : NumericalThreshold) (x : Rat) : Prop :=
  ∃ f j, thresholdField t = .ok f ∧ facts.get? f = some j ∧ j.pyNum? = some x

def PyPasses (facts : Json) (t : NumericalThreshold) : Prop :=
  ∃ x, PyFactIs facts t x ∧ t.Satisfied x

def PyBreaches (facts : Json) (t : NumericalThreshold) : Prop :=
  ∃ x, PyFactIs facts t x ∧ ¬ t.Satisfied x

theorem PyFactIs.unique {facts : Json} {t : NumericalThreshold} {x y : Rat}
    (hx : PyFactIs facts t x) (hy : PyFactIs facts t y) : x = y := by
  obtain ⟨f, j, hf, hj, hx⟩ := hx
  obtain ⟨f', j', hf', hj', hy⟩ := hy
  obtain rfl : f = f' := Except.ok.inj (hf.symm.trans hf')
  obtain rfl : j = j' := Option.some.inj (hj.symm.trans hj')
  exact Option.some.inj (hx.symm.trans hy)

theorem exists_pyNum {j : Json} {x : Rat} (h : j.num? = some x) : ∃ y, j.pyNum? = some y := by
  cases j <;> simp [Json.num?] at h <;> exact ⟨_, rfl⟩

theorem pyNum_float (d : Decimal) : (Json.float d).pyNum? = some (bound d) := by
  simp [Json.pyNum?, bound]

/-! ## Fields -/

section
variable {e : String} {facts : List (String × Json)}

theorem resolveVar_entity : resolveVar "entity_type" (candidateInput e facts) = .ok (.str e) := rfl

theorem resolveVar_fact {f : String} (hf : '.' ∉ f.toList) :
    resolveVar ("facts." ++ f) (candidateInput e facts) =
      match (Json.obj facts).get? f with
      | some v => .ok v
      | none => .error (.missingFact ("facts." ++ f)) := by
  have htext : "facts." ++ f = "facts" ++ String.singleton '.' ++ f := by
    rw [← String.toList_inj]
    simp
  have hsplit : split '.' ("facts." ++ f) = ["facts", f] := by
    rw [htext]
    exact split_append (by decide) hf
  rw [resolveVar, hsplit]
  show resolveParts _ [f] (.obj facts) = _
  rw [resolveParts]
  cases (Json.obj facts).get? f <;> rfl

theorem thresholdVarPath_of_field {t : NumericalThreshold} {f : String}
    (h : thresholdField t = .ok f) : thresholdVarPath t = .ok ("facts." ++ f) := by
  unfold thresholdField at h
  unfold thresholdVarPath
  dsimp only at h ⊢
  split at h
  · rename_i hfact
    rw [if_pos hfact, h]
    rfl
  · rename_i hfact
    split at h
    · cases h
    · rw [if_neg hfact, Except.ok.inj h]

theorem dot_notMem_field {t : NumericalThreshold} {f : String} (h : thresholdField t = .ok f) :
    '.' ∉ f.toList := by
  obtain ⟨F, hF, rfl⟩ := thresholdField_mem h
  have hall : canonicalFacts.all (fun F => !F.identifier.toList.contains '.') = true := by decide
  simpa using List.all_eq_true.1 hall F hF

/-! ## Comparisons -/

theorem evaluate_var (path : String) (data : Json) :
    evaluateJsonlogic data (varNode path) = resolveVar path data := rfl

/-- A comparison of a field with a constant. -/
theorem evaluate_compare {operator : String} {op : Json → Json → Option Bool}
    (h : comparison operator = some op) {data c : Json} (hc : evaluateJsonlogic data c = .ok c)
    (path : String) :
    evaluateJsonlogic data (node operator (.arr [varNode path, c])) =
      (resolveVar path data).bind fun v => pyResult (op v c) := by
  have hvar : operator ≠ "var" := by
    rintro rfl
    cases h
  have hand : operator ≠ "and" := by
    rintro rfl
    cases h
  have hin : operator ≠ "in" := by
    rintro rfl
    cases h
  show evaluateNode data [(operator, .arr [varNode path, c])] = _
  simp only [evaluateNode, hvar, hand, hin, if_false, h, evaluateTwo, evaluatePair, evaluate_var, hc]
  cases resolveVar path data <;> rfl

/-- The comparison of an operator that is not a range, on numbers. -/
theorem comparison_of_ne_range {o : ComparisonOperator} (ho : o ≠ .range) :
    ∃ op, comparison o.value = some op ∧
      ∀ {a c : Json} {p q : Rat}, a.pyNum? = some p → c.pyNum? = some q →
        ∃ b, op a c = some b ∧ (b = true ↔ o.cmp.Rel p q) := by
  have horder : ∀ {a c : Json} {p q : Rat} (g : Ordering → Bool), a.pyNum? = some p →
      c.pyNum? = some q → (a.pyCmp c).map g = some (g (compare p q)) := by
    intro a c p q g ha hc
    rw [Json.pyCmp_of_num ha hc]
    rfl
  cases o with
  | gte =>
    refine ⟨_, rfl, fun ha hc => ⟨_, horder _ ha hc, ?_⟩⟩
    simp [ComparisonOperator.cmp, CmpOp.Rel, compare_lt_iff_lt]
  | gt =>
    refine ⟨_, rfl, fun ha hc => ⟨_, horder _ ha hc, ?_⟩⟩
    simp [ComparisonOperator.cmp, CmpOp.Rel, compare_gt_iff_gt]
  | lte =>
    refine ⟨_, rfl, fun ha hc => ⟨_, horder _ ha hc, ?_⟩⟩
    simp [ComparisonOperator.cmp, CmpOp.Rel, compare_gt_iff_gt]
  | lt =>
    refine ⟨_, rfl, fun ha hc => ⟨_, horder _ ha hc, ?_⟩⟩
    simp [ComparisonOperator.cmp, CmpOp.Rel, compare_lt_iff_lt]
  | eq =>
    refine ⟨_, rfl, fun ha hc => ⟨_, congrArg some (Json.pyEq_of_num ha hc), ?_⟩⟩
    simp [ComparisonOperator.cmp, CmpOp.Rel]
  | range => exact absurd rfl ho

/-! ## Conjunctions -/

theorem evaluate_and (data : Json) (cs : List Json) :
    evaluateJsonlogic data (node "and" (.arr cs)) = (evaluateAll data cs).map .bool := rfl

theorem evaluateAll_cons_true {data c : Json} (h : evaluateJsonlogic data c = .ok (.bool true))
    (cs : List Json) : evaluateAll data (c :: cs) = evaluateAll data cs := by
  rw [evaluateAll, h]
  rfl

theorem evaluateAll_cons_false {data c : Json} (h : evaluateJsonlogic data c = .ok (.bool false))
    (cs : List Json) : evaluateAll data (c :: cs) = .ok false := by
  rw [evaluateAll, h]
  rfl

theorem evaluateAll_cons_error {data c : Json} {err : EvalError}
    (h : evaluateJsonlogic data c = .error err) (cs : List Json) :
    evaluateAll data (c :: cs) = .error err := by
  rw [evaluateAll, h]
  rfl

/-! ## Thresholds -/

/-- One comparison of the threshold's fact: it raises on an absent fact, else it is a truth value. -/
theorem evaluate_factCmp {t : NumericalThreshold} {f : String} (hf : thresholdField t = .ok f)
    (hn : NumericFacts (.obj facts)) {o : ComparisonOperator} (ho : o ≠ .range) {operator : String}
    (hv : o.value = operator) (d : Decimal) :
    (FactMissing (.obj facts) t ∧
      evaluateJsonlogic (candidateInput e facts)
        (node operator (.arr [varNode ("facts." ++ f), .float d])) =
          .error (.missingFact ("facts." ++ f))) ∨
    ∃ x b, PyFactIs (.obj facts) t x ∧ (b = true ↔ o.cmp.Rel x (bound d)) ∧
      evaluateJsonlogic (candidateInput e facts)
        (node operator (.arr [varNode ("facts." ++ f), .float d])) = .ok (.bool b) := by
  obtain ⟨op, hop, hnum⟩ := comparison_of_ne_range ho
  rw [← hv, evaluate_compare hop rfl, resolveVar_fact (dot_notMem_field hf)]
  cases hj : (Json.obj facts).get? f with
  | none => exact .inl ⟨⟨f, hf, hj⟩, rfl⟩
  | some j =>
    obtain ⟨x, hx⟩ := hn f j hj
    obtain ⟨y, hy⟩ := exists_pyNum hx
    obtain ⟨b, hb, hrel⟩ := hnum hy (pyNum_float d)
    refine .inr ⟨y, b, ⟨f, j, hf, hj, hy⟩, hrel, ?_⟩
    show pyResult (op j (.float d)) = _
    rw [hb]
    rfl

theorem FactMissing.not_pyFactIs {facts : Json} {t : NumericalThreshold}
    (h : FactMissing facts t) (x : Rat) : ¬ PyFactIs facts t x := by
  rintro ⟨f, j, hf, hj, -⟩
  obtain ⟨f', hf', hnone⟩ := h
  obtain rfl : f = f' := Except.ok.inj (hf.symm.trans hf')
  rw [hnone] at hj
  cases hj

/-- What the clause of a threshold comes to. -/
inductive ThresholdOutcome (facts : Json) (t : NumericalThreshold) : Except EvalError Json → Prop
  | passes : PyPasses facts t → ThresholdOutcome facts t (.ok (.bool true))
  | breaches : PyBreaches facts t → ThresholdOutcome facts t (.ok (.bool false))
  | missing (path : String) : FactMissing facts t →
      ThresholdOutcome facts t (.error (.missingFact path))

/-- **The clause of a threshold** is true when the fact satisfies it, false when the fact breaches it,
and raises when there is no fact. -/
theorem evaluate_threshold {t : NumericalThreshold} {f : String} (hf : thresholdField t = .ok f)
    (hn : NumericFacts (.obj facts)) {clause : Json} (h : thresholdToLogic t = .ok clause) :
    ThresholdOutcome (.obj facts) t (evaluateJsonlogic (candidateInput e facts) clause) := by
  rw [thresholdToLogic, thresholdVarPath_of_field hf] at h
  obtain ⟨path, hpath, h⟩ := bind_ok_iff.1 h
  cases hpath
  by_cases hr : t.operator = .range
  · rw [if_pos hr] at h
    obtain ⟨u, hu, h⟩ := bind_ok_iff.1 h
    cases h
    have hsat : ∀ x, t.Satisfied x ↔ bound t.value ≤ x ∧ x ≤ bound u := by
      intro x
      simp [NumericalThreshold.Satisfied, hr, upperBound_ok hu]
    rw [evaluate_and]
    have hgte : ComparisonOperator.gte.value = ">=" := rfl
    have hlte : ComparisonOperator.lte.value = "<=" := rfl
    rcases evaluate_factCmp (e := e) hf hn (by decide) hgte t.value with
      ⟨hm, hlow⟩ | ⟨x, b, hx, hb, hlow⟩
    · rw [evaluateAll_cons_error hlow]
      exact .missing _ hm
    · cases b with
      | false =>
        rw [evaluateAll_cons_false hlow]
        refine .breaches ⟨x, hx, fun hs => ?_⟩
        exact absurd (hb.2 ((hsat x).1 hs).1) (by decide)
      | true =>
        rw [evaluateAll_cons_true hlow]
        rcases evaluate_factCmp (e := e) hf hn (by decide) hlte u with
          ⟨hm, -⟩ | ⟨y, b', hy, hb', hhigh⟩
        · exact absurd hx (FactMissing.not_pyFactIs hm x)
        · obtain rfl := hx.unique hy
          cases b' with
          | false =>
            rw [evaluateAll_cons_false hhigh]
            refine .breaches ⟨x, hx, fun hs => ?_⟩
            exact absurd (hb'.2 ((hsat x).1 hs).2) (by decide)
          | true =>
            rw [evaluateAll_cons_true hhigh]
            exact .passes ⟨x, hx, (hsat x).2 ⟨hb.1 rfl, hb'.1 rfl⟩⟩
  · rw [if_neg hr] at h
    cases h
    rcases evaluate_factCmp (e := e) hf hn hr rfl t.value with ⟨hm, heval⟩ | ⟨x, b, hx, hb, heval⟩
    · rw [heval]
      exact .missing _ hm
    · rw [heval]
      cases b with
      | true => exact .passes ⟨x, hx, (satisfied_of_ne_range hr x).2 (hb.1 rfl)⟩
      | false =>
        refine .breaches ⟨x, hx, fun hs => ?_⟩
        exact absurd (hb.2 ((satisfied_of_ne_range hr x).1 hs)) (by decide)

/-- What the clauses of some thresholds come to: the first that is not true decides. -/
inductive LogicOutcome (facts : Json) (ts : List NumericalThreshold) : Except EvalError Bool → Prop
  | passes : (∀ t ∈ ts, PyPasses facts t) → LogicOutcome facts ts (.ok true)
  | breaches {l₁ : List NumericalThreshold} {t : NumericalThreshold}
      {l₂ : List NumericalThreshold} : ts = l₁ ++ t :: l₂ → (∀ s ∈ l₁, PyPasses facts s) →
      PyBreaches facts t → LogicOutcome facts ts (.ok false)
  | missing {l₁ : List NumericalThreshold} {t : NumericalThreshold}
      {l₂ : List NumericalThreshold} (path : String) : ts = l₁ ++ t :: l₂ →
      (∀ s ∈ l₁, PyPasses facts s) → FactMissing facts t →
      LogicOutcome facts ts (.error (.missingFact path))

/-- A threshold that is satisfied leaves the decision to the rest. -/
theorem LogicOutcome.cons {facts : Json} {t : NumericalThreshold} {ts : List NumericalThreshold}
    {r : Except EvalError Bool} (ht : PyPasses facts t) (h : LogicOutcome facts ts r) :
    LogicOutcome facts (t :: ts) r := by
  cases h with
  | passes hall => exact .passes (List.forall_mem_cons.2 ⟨ht, hall⟩)
  | breaches hts hall hb =>
    exact .breaches (by rw [hts, List.cons_append]) (List.forall_mem_cons.2 ⟨ht, hall⟩) hb
  | missing path hts hall hm =>
    exact .missing path (by rw [hts, List.cons_append]) (List.forall_mem_cons.2 ⟨ht, hall⟩) hm

/-- **The clauses of the thresholds.** -/
theorem evaluateAll_thresholds (hn : NumericFacts (.obj facts)) :
    ∀ {ts : List NumericalThreshold} {clauses : List Json},
      ts.mapM thresholdToLogic = .ok clauses → (∀ t ∈ ts, ∃ f, thresholdField t = .ok f) →
      LogicOutcome (.obj facts) ts (evaluateAll (candidateInput e facts) clauses)
  | [], clauses, h, _ => by
    obtain rfl : [] = clauses := by simpa [pure, Except.pure] using h
    exact .passes (by simp)
  | t :: ts, clauses, h, hfields => by
    obtain ⟨clause, rest, hclause, hrest, rfl⟩ := mapM_cons_ok_iff.1 h
    obtain ⟨f, hf⟩ := hfields t List.mem_cons_self
    have htail := evaluateAll_thresholds hn hrest fun s hs => hfields s (List.mem_cons_of_mem _ hs)
    generalize heval : evaluateJsonlogic (candidateInput e facts) clause = v
    have hout := evaluate_threshold (e := e) hf hn hclause
    rw [heval] at hout
    cases hout with
    | passes hp =>
      rw [evaluateAll_cons_true heval]
      exact htail.cons hp
    | breaches hb =>
      rw [evaluateAll_cons_false heval]
      exact .breaches (List.nil_append _).symm (by simp) hb
    | missing path hm =>
      rw [evaluateAll_cons_error heval]
      exact .missing path (List.nil_append _).symm (by simp) hm

/-! ## The tree of a rule -/

theorem evaluate_in {data c : Json} (hc : evaluateJsonlogic data c = .ok c) (path : String) :
    evaluateJsonlogic data (node "in" (.arr [varNode path, c])) =
      (resolveVar path data).bind fun v => pyResult (v.pyIn c) := by
  have hvar : "in" ≠ "var" := by decide
  have hand : "in" ≠ "and" := by decide
  show evaluateNode data [("in", .arr [varNode path, c])] = _
  simp only [evaluateNode, hvar, hand, if_false, if_true, evaluateTwo, evaluatePair, evaluate_var, hc]
  cases resolveVar path data <;> rfl

theorem evaluate_texts {data : Json} (es : List String) :
    evaluateJsonlogic data (.arr (es.map .str)) = .ok (.arr (es.map .str)) := by
  have hitems : evaluateItems data (es.map .str) = .ok (es.map .str) := by
    induction es with
    | nil => rfl
    | cons e es ih =>
      rw [List.map_cons, evaluateItems, ih]
      rfl
  rw [evaluateJsonlogic, hitems]
  rfl

/-- The clause of the guard. -/
theorem evaluate_entityLogic {rule : ExtractedComplianceRule} {clause : Json}
    (h : entityLogic rule = some clause) :
    ∃ b, evaluateJsonlogic (candidateInput e facts) clause = .ok (.bool b) ∧
      (b = true ↔ GuardHolds rule e) := by
  unfold entityLogic at h
  split at h
  · cases h
  · rename_i a hes
    cases h
    have hop : comparison "==" = some fun a b => some (a.pyEq b) := rfl
    rw [evaluate_compare hop rfl, resolveVar_entity]
    refine ⟨(Json.str e).pyEq (.str a), rfl, ?_⟩
    simp [GuardHolds, hes]
  · rename_i hnil hone
    cases h
    rw [evaluate_in (evaluate_texts _), resolveVar_entity]
    refine ⟨((guardEntities rule).map Json.str).any fun j => j.pyEq (.str e), rfl, ?_⟩
    rw [GuardHolds, or_iff_right hnil, List.any_eq_true]
    constructor
    · rintro ⟨j, hj, heq⟩
      obtain ⟨a, ha, rfl⟩ := List.mem_map.1 hj
      obtain rfl : a = e := by simpa using heq
      exact ha
    · intro he
      exact ⟨.str e, List.mem_map.2 ⟨e, he, rfl⟩, by simp⟩

/-- A conjunction of truth values. -/
theorem evaluate_conjunction {data : Json} {cs : List Json}
    (h : ∀ c ∈ cs, ∀ v, evaluateJsonlogic data c = .ok v → ∃ b, v = .bool b) :
    evaluateJsonlogic data (conjunction cs) = (evaluateAll data cs).map .bool := by
  unfold conjunction
  split
  · rename_i c
    cases hc : evaluateJsonlogic data c with
    | error err =>
      rw [evaluateAll_cons_error hc]
      rfl
    | ok v =>
      obtain ⟨b, rfl⟩ := h c List.mem_cons_self v hc
      cases b with
      | true =>
        rw [evaluateAll_cons_true hc]
        rfl
      | false =>
        rw [evaluateAll_cons_false hc]
        rfl
  · exact evaluate_and data cs

theorem ThresholdOutcome.isBool {facts : Json} {t : NumericalThreshold}
    {r : Except EvalError Json} (h : ThresholdOutcome facts t r) {v : Json} (hv : r = .ok v) :
    ∃ b, v = .bool b := by
  cases h with
  | passes _ => exact ⟨true, (Except.ok.inj hv).symm⟩
  | breaches _ => exact ⟨false, (Except.ok.inj hv).symm⟩
  | missing _ _ => cases hv

/-- **The tree of a rule** is false where the guard fails, else it comes to what its thresholds do. -/
theorem evaluate_logic {rule : ExtractedComplianceRule} {jl : JsonLogicRule}
    (hjl : compileRuleToJsonlogic rule = .ok jl)
    (hfields : ∀ t ∈ rule.deterministicLogic, ∃ f, thresholdField t = .ok f)
    (hn : NumericFacts (.obj facts)) :
    (¬ GuardHolds rule e ∧
      evaluateJsonlogic (candidateInput e facts) jl.logic = .ok (.bool false)) ∨
    (GuardHolds rule e ∧ ∃ r, LogicOutcome (.obj facts) rule.deterministicLogic r ∧
      evaluateJsonlogic (candidateInput e facts) jl.logic = r.map .bool) := by
  obtain ⟨clauses, hclauses, -, hlogic⟩ := compileRuleToJsonlogic_logic hjl
  have hall := evaluateAll_thresholds (e := e) hn hclauses hfields
  have hbool : ∀ c ∈ clauses, ∀ v, evaluateJsonlogic (candidateInput e facts) c = .ok v →
      ∃ b, v = .bool b := by
    intro c hc v hv
    obtain ⟨b, hb, rfl⟩ := exists_zip_right hclauses hc
    obtain ⟨f, hf⟩ := hfields b.1 (List.of_mem_zip hb).1
    exact (evaluate_threshold hf hn ((zip_mapM_ok hclauses).1 b hb)).isBool hv
  rw [hlogic]
  cases hentity : entityLogic rule with
  | none =>
    have hguard : GuardHolds rule e := by
      refine .inl ?_
      unfold entityLogic at hentity
      split at hentity
      · assumption
      · cases hentity
      · cases hentity
    exact .inr ⟨hguard, _, hall, evaluate_conjunction hbool⟩
  | some clause =>
    obtain ⟨b, hb, hiff⟩ : ∃ b, evaluateJsonlogic (candidateInput e facts) clause = .ok (.bool b) ∧
        (b = true ↔ GuardHolds rule e) := evaluate_entityLogic hentity
    have hconj : evaluateJsonlogic (candidateInput e facts)
        (conjunction ((some clause).toList ++ clauses)) =
          (evaluateAll (candidateInput e facts) (clause :: clauses)).map .bool := by
      refine evaluate_conjunction (List.forall_mem_cons.2 ⟨fun v hv => ?_, hbool⟩)
      exact ⟨b, Except.ok.inj (hv.symm.trans hb)⟩
    rw [hconj]
    cases b with
    | true =>
      rw [evaluateAll_cons_true hb]
      exact .inr ⟨hiff.1 rfl, _, hall, rfl⟩
    | false =>
      rw [evaluateAll_cons_false hb]
      exact .inl ⟨fun hg => absurd (hiff.2 hg) (by decide), rfl⟩

end

end RegEngine.Backtest
