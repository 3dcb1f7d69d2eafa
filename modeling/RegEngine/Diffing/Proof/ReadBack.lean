import RegEngine.Backtest.CandidateEvaluator
import RegEngine.Compiler.Proof.JsonLogic
import RegEngine.Diffing.ReportBuilder

/-!
# Compiled thresholds are read back

The leaves of a compiled tree are those of its thresholds one after another, and the guard adds none that is
kept (`comparisons_of_compiled`). Grouping them by field changes no document that satisfies them
(`forall_meets_thresholdsByField`), and on different fields gives one threshold for each (`readBack_of_stands`).
-/

namespace RegEngine.Diffing

open Lib Lib.Except Compiler Backtest

/-- The threshold is this one: field, operator, value and upper bound. -/
structure ReadBack (t : NumericalThreshold) (e : ExtractedThreshold) : Prop where
  field : thresholdVarPath t = .ok e.field
  operator : e.operator = t.operator.value
  value : e.value = bound t.value
  valueUpper : e.valueUpper = t.valueUpper.map bound

/-- `x op y`. -/
def Compares (op : String) (x y : Rat) : Prop :=
  op = ">=" ∧ y ≤ x ∨ op = ">" ∧ y < x ∨ op = "<=" ∧ x ≤ y ∨ op = "<" ∧ x < y ∨ op = "==" ∧ x = y

def ExtractedThreshold.Satisfied (e : ExtractedThreshold) (x : Rat) : Prop :=
  if e.operator = "range" then e.value ≤ x ∧ ∀ u ∈ e.valueUpper, x ≤ u else Compares e.operator x e.value

/-- The document has a number at the path, and it is such. -/
def NumberAt (doc : Json) (path : String) (p : Rat → Prop) : Prop :=
  ∃ v x, resolveVar path doc = .ok v ∧ v.pyNum? = some x ∧ p x

def ExtractedThreshold.Meets (doc : Json) (e : ExtractedThreshold) : Prop := NumberAt doc e.field e.Satisfied

def FieldComparison.Holds (doc : Json) (c : FieldComparison) : Prop :=
  NumberAt doc c.field fun x => Compares c.operator x c.value

/-- The document satisfies a source threshold. -/
def ThresholdMet (doc : Json) (t : NumericalThreshold) : Prop :=
  ∃ path, thresholdVarPath t = .ok path ∧ NumberAt doc path t.Satisfied

theorem NumberAt.and_iff {doc : Json} {path : String} {p q : Rat → Prop} :
    NumberAt doc path (fun x => p x ∧ q x) ↔ NumberAt doc path p ∧ NumberAt doc path q := by
  constructor
  · intro ⟨v, x, hv, hx, hp, hq⟩
    exact ⟨⟨v, x, hv, hx, hp⟩, v, x, hv, hx, hq⟩
  · intro ⟨⟨v, x, hv, hx, hp⟩, w, y, hw, hy, hq⟩
    obtain rfl : v = w := Except.ok.inj (hv.symm.trans hw)
    obtain rfl : x = y := Option.some.inj (hx.symm.trans hy)
    exact ⟨v, x, hv, hx, hp, hq⟩

/-! ## Leaves -/

theorem flattenChildren_eq (children : List Json) :
    flattenChildren children = children.flatMap flattenAndLeaves := by
  induction children with
  | nil => rfl
  | cons child children ih => rw [flattenChildren, ih, List.flatMap_cons]

theorem flattenAndLeaves_and (children : List Json) :
    flattenAndLeaves (node "and" (.arr children)) = children.flatMap flattenAndLeaves := by
  rw [← flattenChildren_eq]
  simp [node, flattenAndLeaves, flattenAnd]

theorem flattenAndLeaves_node {op : String} (hop : op ≠ "and") (operand : Json) :
    flattenAndLeaves (node op operand) = [node op operand] := by
  have hnone : flattenAnd [(op, operand)] = none := by
    unfold flattenAnd
    rw [if_neg hop]
    unfold flattenAnd
    rfl
  rw [node, flattenAndLeaves, hnone]
  rfl

theorem flattenAndLeaves_conjunction (clauses : List Json) :
    flattenAndLeaves (conjunction clauses) = clauses.flatMap flattenAndLeaves := by
  unfold conjunction
  split
  · rw [List.flatMap_singleton]
  · exact flattenAndLeaves_and _

/-- The comparisons that are kept of a tree. -/
def comparisons (ast : Json) : List FieldComparison := (flattenAndLeaves ast).filterMap fieldComparison

theorem comparisons_conjunction (clauses : List Json) :
    comparisons (conjunction clauses) = clauses.flatMap comparisons := by
  unfold comparisons
  rw [flattenAndLeaves_conjunction, List.filterMap_flatMap]

/-- A comparison of a field with a float. -/
theorem comparisons_compare {op : String} (hop : op ∈ comparisonOperators) {path : String}
    (hpath : path ≠ "entity_type") (d : Decimal) :
    comparisons (node op (.arr [varNode path, .float d])) = [⟨path, op, bound d⟩] := by
  have hand : op ≠ "and" := fun h => absurd (h ▸ hop) (by decide)
  have hvar : varPath (varNode path) = some path := rfl
  have hfloat : pyFloat (.float d) = some (bound d) := by simp [pyFloat, Json.pyNum?, bound]
  unfold comparisons
  rw [flattenAndLeaves_node hand, List.filterMap_cons, List.filterMap_nil]
  simp only [fieldComparison, singleComparison, node, if_pos hop, hvar, hfloat, if_neg hpath]

/-- The guard compares with a text, or is none of the comparisons. -/
theorem comparisons_entityLogic {rule : ExtractedComplianceRule} {guard : Json}
    (h : entityLogic rule = some guard) : comparisons guard = [] := by
  unfold entityLogic at h
  split at h
  · cases h
  · cases h
    unfold comparisons
    rw [flattenAndLeaves_node (by decide)]
    rfl
  · cases h
    unfold comparisons
    rw [flattenAndLeaves_node (by decide)]
    rfl

/-- The comparisons that stand for a threshold. -/
inductive Stands (t : NumericalThreshold) : List FieldComparison → Prop
  | range {path : String} {upper : Decimal} (hpath : thresholdVarPath t = .ok path)
      (hoperator : t.operator = .range) (hupper : t.valueUpper = some upper) :
      Stands t [⟨path, ">=", bound t.value⟩, ⟨path, "<=", bound upper⟩]
  | compare {path : String} (hpath : thresholdVarPath t = .ok path) (hoperator : t.operator ≠ .range) :
      Stands t [⟨path, t.operator.value, bound t.value⟩]

theorem mem_comparisonOperators {o : ComparisonOperator} (h : o ≠ .range) : o.value ∈ comparisonOperators := by
  cases o with
  | range => exact absurd rfl h
  | gte | gt | lte | lt | eq => decide

theorem exists_fact {t : NumericalThreshold} {path : String} (h : thresholdVarPath t = .ok path) :
    ∃ f, path = "facts." ++ f := by
  unfold thresholdVarPath at h
  dsimp only at h
  split at h
  · obtain ⟨f, -, rfl⟩ := map_ok_iff.1 h
    exact ⟨f, rfl⟩
  · exact ⟨_, (Except.ok.inj h).symm⟩

theorem thresholdVarPath_ne {t : NumericalThreshold} {path : String} (h : thresholdVarPath t = .ok path) :
    path ≠ "entity_type" := by
  obtain ⟨f, rfl⟩ := exists_fact h
  intro heq
  have hlist := congrArg String.toList heq
  rw [String.toList_append] at hlist
  cases hlist

theorem stands_of_clause {t : NumericalThreshold} {clause : Json} (h : thresholdToLogic t = .ok clause) :
    Stands t (comparisons clause) := by
  unfold thresholdToLogic at h
  obtain ⟨path, hpath, h⟩ := bind_ok_iff.1 h
  have hne := thresholdVarPath_ne hpath
  split at h
  · rename_i hoperator
    obtain ⟨upper, hupper, h⟩ := bind_ok_iff.1 h
    cases h
    have hboth : comparisons (node "and" (.arr [node ">=" (.arr [varNode path, .float t.value]),
        node "<=" (.arr [varNode path, .float upper])])) =
        [⟨path, ">=", bound t.value⟩, ⟨path, "<=", bound upper⟩] := by
      show comparisons (conjunction [_, _]) = _
      rw [comparisons_conjunction, List.flatMap_cons, List.flatMap_singleton,
        comparisons_compare (by decide) hne, comparisons_compare (by decide) hne]
      rfl
    rw [hboth]
    exact .range hpath hoperator (upperBound_ok hupper)
  · rename_i hoperator
    cases h
    rw [comparisons_compare (mem_comparisonOperators hoperator) hne]
    exact .compare hpath hoperator

theorem stands_of_clauses {ts : List NumericalThreshold} {clauses : List Json}
    (h : ts.mapM thresholdToLogic = .ok clauses) :
    List.Forall₂ Stands ts (clauses.map comparisons) := by
  induction ts generalizing clauses with
  | nil =>
    obtain rfl : [] = clauses := by simpa [pure, Except.pure] using h
    exact .nil
  | cons t ts ih =>
    obtain ⟨clause, rest, hclause, hrest, rfl⟩ := mapM_cons_ok_iff.1 h
    exact .cons (stands_of_clause hclause) (ih hrest)

/-- **The comparisons of a compiled rule** are those that stand for its thresholds. -/
theorem comparisons_of_compiled {rule : ExtractedComplianceRule} {jl : JsonLogicRule}
    (h : compileRuleToJsonlogic rule = .ok jl) :
    ∃ css, List.Forall₂ Stands rule.deterministicLogic css ∧ comparisons jl.logic = css.flatten := by
  obtain ⟨clauses, hclauses, -, hlogic⟩ := compileRuleToJsonlogic_logic h
  refine ⟨clauses.map comparisons, stands_of_clauses hclauses, ?_⟩
  have hguard : (entityLogic rule).toList.flatMap comparisons = [] := by
    cases hentity : entityLogic rule with
    | none => rfl
    | some guard => rw [Option.toList_some, List.flatMap_singleton, comparisons_entityLogic hentity]
  rw [hlogic, comparisons_conjunction, List.flatMap_append, hguard, List.nil_append, List.flatMap_def]

/-! ## One field -/

theorem Stands.field {t : NumericalThreshold} {cs : List FieldComparison} (h : Stands t cs) :
    ∃ path c rest, thresholdVarPath t = .ok path ∧ cs = c :: rest ∧ ∀ c ∈ cs, c.field = path := by
  cases h with
  | range hpath _ _ => exact ⟨_, _, _, hpath, rfl, by simp⟩
  | compare hpath _ => exact ⟨_, _, _, hpath, rfl, by simp⟩

/-- Each comparison has an operator that is no range. -/
theorem Stands.operator {t : NumericalThreshold} {cs : List FieldComparison} (h : Stands t cs) :
    ∀ c ∈ cs, c.operator ∈ comparisonOperators := by
  cases h with
  | range _ _ _ =>
    intro c hc
    rw [List.mem_cons, List.mem_singleton] at hc
    cases hc with
    | inl hc =>
      rw [hc]
      show ">=" ∈ comparisonOperators
      decide
    | inr hc =>
      rw [hc]
      show "<=" ∈ comparisonOperators
      decide
  | compare _ hoperator =>
    intro c hc
    rw [List.mem_singleton.1 hc]
    exact mem_comparisonOperators hoperator

theorem compares_iff {o : ComparisonOperator} (h : o ≠ .range) (x y : Rat) :
    Compares o.value x y ↔ o.cmp.Rel x y := by
  cases o with
  | range => exact absurd rfl h
  | gte | gt | lte | lt | eq => simp [Compares, ComparisonOperator.value, ComparisonOperator.cmp, Lib.Rego.CmpOp.Rel]

/-- The comparisons hold of a document just when it meets the threshold. -/
theorem Stands.holds_iff {t : NumericalThreshold} {cs : List FieldComparison} (h : Stands t cs) (doc : Json) :
    (∀ c ∈ cs, c.Holds doc) ↔ ThresholdMet doc t := by
  cases h with
  | @range path upper hpath hoperator hupper =>
    have hsat : t.Satisfied = fun x => Compares ">=" x (bound t.value) ∧ Compares "<=" x (bound upper) := by
      funext x
      simp [NumericalThreshold.Satisfied, hoperator, hupper, Compares]
    rw [List.forall_mem_cons, List.forall_mem_singleton]
    simp only [ThresholdMet, hpath, Except.ok.injEq, exists_eq_left', hsat, NumberAt.and_iff,
      FieldComparison.Holds]
  | @compare path hpath hoperator =>
    have hsat : t.Satisfied = fun x => Compares t.operator.value x (bound t.value) := by
      funext x
      rw [compares_iff hoperator, satisfied_of_ne_range hoperator]
    rw [List.forall_mem_singleton]
    simp only [ThresholdMet, hpath, Except.ok.injEq, exists_eq_left', hsat, FieldComparison.Holds]

theorem Stands.readBack {t : NumericalThreshold} {cs : List FieldComparison} (h : Stands t cs) {path : String}
    (hpath : thresholdVarPath t = .ok path) : ∃ e, foldRange path cs = [e] ∧ ReadBack t e := by
  cases h with
  | range hpath' hoperator hupper =>
    obtain rfl := Except.ok.inj (hpath.symm.trans hpath')
    refine ⟨⟨path, "range", bound t.value, some (bound _)⟩, rfl, hpath, by rw [hoperator]; rfl, rfl, ?_⟩
    rw [hupper, Option.map_some]
  | compare hpath' hoperator =>
    obtain rfl := Except.ok.inj (hpath.symm.trans hpath')
    refine ⟨⟨path, t.operator.value, bound t.value, none⟩, rfl, hpath, rfl, rfl, ?_⟩
    have hupper : t.valueUpper = none := by
      by_contra hsome
      exact hoperator (t.upperRequiresRange hsome)
    rw [hupper, Option.map_none]

/-- Folding a lower and an upper bound into a range changes nothing for a document. -/
theorem forall_meets_foldRange {field : String} {cs : List FieldComparison} (hfield : ∀ c ∈ cs, c.field = field)
    (hoperator : ∀ c ∈ cs, c.operator ∈ comparisonOperators) (doc : Json) :
    (∀ e ∈ foldRange field cs, e.Meets doc) ↔ ∀ c ∈ cs, c.Holds doc := by
  have hplain : ∀ cs : List FieldComparison, (∀ c ∈ cs, c.field = field) →
      (∀ c ∈ cs, c.operator ∈ comparisonOperators) →
      ((∀ e ∈ cs.map fun c => (⟨field, c.operator, c.value, none⟩ : ExtractedThreshold), e.Meets doc) ↔
        ∀ c ∈ cs, c.Holds doc) := by
    intro cs hfield hoperator
    rw [List.forall_mem_map]
    refine forall₂_congr fun c hc => ?_
    have hne : c.operator ≠ "range" := fun h => absurd (h ▸ hoperator c hc) (by decide)
    have hsat : (⟨field, c.operator, c.value, none⟩ : ExtractedThreshold).Satisfied =
        fun x => Compares c.operator x c.value := by
      funext x
      rw [ExtractedThreshold.Satisfied, if_neg hne]
    rw [ExtractedThreshold.Meets, hsat, FieldComparison.Holds, hfield c hc]
  have hrange : ∀ low high : Rat, (⟨field, "range", low, some high⟩ : ExtractedThreshold).Meets doc ↔
      NumberAt doc field (fun x => Compares ">=" x low) ∧ NumberAt doc field fun x => Compares "<=" x high := by
    intro low high
    have hsat : (⟨field, "range", low, some high⟩ : ExtractedThreshold).Satisfied =
        fun x => Compares ">=" x low ∧ Compares "<=" x high := by
      funext x
      simp [ExtractedThreshold.Satisfied, Compares]
    rw [ExtractedThreshold.Meets, hsat, NumberAt.and_iff]
  unfold foldRange
  split
  · rename_i c d
    have hc : c.field = field := hfield c List.mem_cons_self
    have hd : d.field = field := hfield d (List.mem_cons_of_mem c List.mem_cons_self)
    split
    · rename_i hops
      rw [List.forall_mem_singleton, hrange, List.forall_mem_cons, List.forall_mem_singleton]
      simp only [FieldComparison.Holds, hc, hd, hops]
    · split
      · rename_i hops
        rw [List.forall_mem_singleton, hrange, and_comm, List.forall_mem_cons, List.forall_mem_singleton]
        simp only [FieldComparison.Holds, hc, hd, hops]
      · exact hplain [c, d] hfield hoperator
  · exact hplain cs hfield hoperator

/-! ## All fields -/

/-- What stands in the row stands for a threshold. -/
theorem exists_stands {ts : List NumericalThreshold} {css : List (List FieldComparison)}
    (h : List.Forall₂ Stands ts css) {c : FieldComparison} (hc : c ∈ css.flatten) :
    ∃ t ∈ ts, ∃ cs, Stands t cs ∧ c ∈ cs := by
  induction h with
  | nil => cases hc
  | @cons t cs ts css ht hts ih =>
    rw [List.flatten_cons, List.mem_append] at hc
    cases hc with
    | inl hc => exact ⟨t, List.mem_cons_self, cs, ht, hc⟩
    | inr hc =>
      obtain ⟨u, hu, hstands⟩ := ih hc
      exact ⟨u, List.mem_cons_of_mem t hu, hstands⟩

theorem exists_stands_of_mem {ts : List NumericalThreshold} {css : List (List FieldComparison)}
    (h : List.Forall₂ Stands ts css) {t : NumericalThreshold} (ht : t ∈ ts) : ∃ cs ∈ css, Stands t cs := by
  induction h with
  | nil => cases ht
  | @cons u cs us css hu hus ih =>
    cases List.mem_cons.1 ht with
    | inl heq => exact ⟨cs, List.mem_cons_self, heq ▸ hu⟩
    | inr hmem =>
      obtain ⟨ds, hds, hstands⟩ := ih hmem
      exact ⟨ds, List.mem_cons_of_mem cs hds, hstands⟩

theorem forall_holds_flatten {ts : List NumericalThreshold} {css : List (List FieldComparison)}
    (h : List.Forall₂ Stands ts css) (doc : Json) :
    (∀ c ∈ css.flatten, c.Holds doc) ↔ ∀ t ∈ ts, ThresholdMet doc t := by
  induction h with
  | nil => simp
  | cons ht hts ih =>
    rw [List.flatten_cons, List.forall_mem_append, ih, ht.holds_iff, List.forall_mem_cons]

theorem forall_meets_thresholdsByField {cs : List FieldComparison}
    (hoperator : ∀ c ∈ cs, c.operator ∈ comparisonOperators) (doc : Json) :
    (∀ e ∈ thresholdsByField cs, e.Meets doc) ↔ ∀ c ∈ cs, c.Holds doc := by
  unfold thresholdsByField
  rw [List.forall_mem_flatMap]
  have hfield : ∀ field, (∀ e ∈ foldRange field (cs.filter fun c => c.field = field), e.Meets doc) ↔
      ∀ c ∈ cs, c.field = field → c.Holds doc := by
    intro field
    rw [forall_meets_foldRange (by simp) fun c hc => hoperator c (List.mem_of_mem_filter hc)]
    simp [List.mem_filter]
  simp only [hfield]
  constructor
  · intro h c hc
    exact h c.field (mem_map_firstHits.2 ⟨List.mem_map_of_mem hc, List.not_mem_nil⟩) c hc rfl
  · intro h field _ c hc _
    exact h c hc

/-- Comparisons of one field before others. -/
theorem thresholdsByField_append {field : String} {c : FieldComparison} {cs rest : List FieldComparison}
    (hcs : ∀ d ∈ c :: cs, d.field = field) (hrest : ∀ d ∈ rest, d.field ≠ field) :
    thresholdsByField (c :: cs ++ rest) = foldRange field (c :: cs) ++ thresholdsByField rest := by
  have hfilter : (c :: cs ++ rest).filter (fun d => d.field = field) = c :: cs := by
    rw [List.filter_append, List.filter_eq_self.2 fun d hd => by simpa using hcs d hd,
      List.filter_eq_nil_iff.2 fun d hd => by simpa using hrest d hd, List.append_nil]
  have hother : ∀ f ∈ (firstHits FieldComparison.field [] rest).map (·.field),
      foldRange f ((c :: cs ++ rest).filter fun d => d.field = f) =
        foldRange f (rest.filter fun d => d.field = f) := by
    intro f hf
    obtain ⟨d, hd, rfl⟩ := List.mem_map.1 (mem_map_firstHits.1 hf).1
    rw [List.filter_append, List.filter_eq_nil_iff.2 fun b hb => ?_, List.nil_append]
    rw [hcs b hb]
    simpa using (hrest d hd).symm
  unfold thresholdsByField
  rw [firstHits_append_of_key hcs hrest, List.map_cons, List.flatMap_cons, hcs c List.mem_cons_self, hfilter]
  exact congrArg _ (List.flatMap_congr hother)

/-- On different fields there is one threshold for each. -/
theorem readBack_of_stands {ts : List NumericalThreshold} {css : List (List FieldComparison)}
    (h : List.Forall₂ Stands ts css)
    (hfields : ts.Pairwise fun t u => thresholdVarPath t ≠ thresholdVarPath u) :
    List.Forall₂ ReadBack ts (thresholdsByField css.flatten) := by
  induction h with
  | nil => exact .nil
  | @cons t cs ts css ht hts ih =>
    obtain ⟨hfirst, hfields⟩ := List.pairwise_cons.1 hfields
    obtain ⟨path, c, rest, hpath, rfl, hcs⟩ := ht.field
    have hrest : ∀ d ∈ css.flatten, d.field ≠ path := by
      intro d hd heq
      obtain ⟨u, hu, ds, hstands, hd⟩ := exists_stands hts hd
      obtain ⟨path', -, -, hpath', -, hfield⟩ := hstands.field
      rw [hfield d hd] at heq
      exact hfirst u hu (hpath.trans (heq ▸ hpath'.symm))
    obtain ⟨e, hfold, hread⟩ := ht.readBack hpath
    rw [List.flatten_cons, thresholdsByField_append hcs hrest, hfold]
    exact .cons hread (ih hfields)

/-- **Compiled thresholds are read back**: on different fields each as it was, and in any case with the same
documents satisfying them. -/
theorem extracted_of_compiled (rule : ExtractedComplianceRule) (jl : JsonLogicRule)
    (h : compileRuleToJsonlogic rule = .ok jl) :
    ((rule.deterministicLogic.Pairwise fun t u => thresholdVarPath t ≠ thresholdVarPath u) →
        List.Forall₂ ReadBack rule.deterministicLogic (extractThresholdsFromJsonlogic jl.logic)) ∧
      ∀ doc : Json, (∀ e ∈ extractThresholdsFromJsonlogic jl.logic, e.Meets doc) ↔
        ∀ t ∈ rule.deterministicLogic, ThresholdMet doc t := by
  obtain ⟨css, hcss, hcomparisons⟩ := comparisons_of_compiled h
  have hextract : extractThresholdsFromJsonlogic jl.logic = thresholdsByField css.flatten := by
    rw [← hcomparisons]
    rfl
  rw [hextract]
  refine ⟨readBack_of_stands hcss, fun doc => ?_⟩
  rw [forall_meets_thresholdsByField, forall_holds_flatten hcss]
  intro c hc
  obtain ⟨t, -, cs, hstands, hmem⟩ := exists_stands hcss hc
  exact hstands.operator c hmem

/-- A clause on the net worth. -/
def netWorthClause (operator : ComparisonOperator) : ExtractedComplianceRule where
  ruleId := "RULE-1"
  sourceSha256 := "c1"
  deterministicLogic :=
    [{ metric := "net worth", operator := operator, value := ⟨5, 0, Decimal.shortest_five⟩, unit := "crore",
       upperRequiresRange := no_valueUpper }]
  obligationType := .mandatory

def netWorthLogic : JsonLogicRule where
  ruleId := "RULE-1"
  logic := node ">=" (.arr [varNode "facts.net_worth_inr_crore", .float ⟨5, 0, Decimal.shortest_five⟩])
  dataSchema := [("entity_type", "string"), ("facts.net_worth_inr_crore", "number")]
  violationMessageTemplate :=
    "net worth is \x7bfacts.net_worth_inr_crore\x7d crore, required to be >= 5.0 crore (clause unscoped)"
  thresholdsCompiled := 1

theorem compile_netWorthClause : compileRuleToJsonlogic (netWorthClause .gte) = .ok netWorthLogic := by rfl

theorem extracted_netWorth :
    (((netWorthClause .gte).deterministicLogic.Pairwise fun t u => thresholdVarPath t ≠ thresholdVarPath u) →
        List.Forall₂ ReadBack (netWorthClause .gte).deterministicLogic
          (extractThresholdsFromJsonlogic netWorthLogic.logic)) ∧
      ∀ doc : Json, (∀ e ∈ extractThresholdsFromJsonlogic netWorthLogic.logic, e.Meets doc) ↔
        ∀ t ∈ (netWorthClause .gte).deterministicLogic, ThresholdMet doc t :=
  extracted_of_compiled _ _ compile_netWorthClause

end RegEngine.Diffing
