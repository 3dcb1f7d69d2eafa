import RegEngine.Compiler.JsonLogic
import RegEngine.Compiler.Proof.Rego
import RegEngine.Compiler.Proof.Module

/-!
# The tree of a rule

* `compileRuleToJsonlogic_logic`: the clauses of the tree `compile_rule_to_jsonlogic` gives.
* `validateJsonLogicAst_compiled`: the structural check accepts it.
-/

namespace RegEngine.Compiler

open Lib Lib.Except

/-! ## Clauses -/

theorem compileRuleToJsonlogic_logic {rule : ExtractedComplianceRule} {jl : JsonLogicRule}
    (h : compileRuleToJsonlogic rule = .ok jl) :
    ∃ clauses, rule.deterministicLogic.mapM thresholdToLogic = .ok clauses ∧
      rule.deterministicLogic ≠ [] ∧
      jl.logic = conjunction ((entityLogic rule).toList ++ clauses) := by
  unfold compileRuleToJsonlogic at h
  split at h
  · cases h
  · rename_i hl
    obtain ⟨-, -, h⟩ := bind_ok_iff.1 h
    obtain ⟨clauses, hclauses, h⟩ := bind_ok_iff.1 h
    obtain ⟨schema, -, h⟩ := bind_ok_iff.1 h
    obtain ⟨template, -, h⟩ := bind_ok_iff.1 h
    cases h
    exact ⟨clauses, hclauses, fun hnil => hl (by simp [hnil]), rfl⟩

/-! ## The structural check -/

/-- The check accepts the tree, wherever it stands. -/
def Valid (j : Json) : Prop := ∀ path, validateJsonLogicAst path j = .ok ()

theorem valid_str (s : String) : Valid (.str s) := fun _ => rfl

theorem valid_float (x : Decimal) : Valid (.float x) := fun _ => rfl

theorem validateItems_ok {l : List Json} (h : ∀ j ∈ l, Valid j) :
    ∀ path i, validateItems path i l = .ok () := by
  induction l with
  | nil => exact fun _ _ => rfl
  | cons j l ih =>
    intro path i
    rw [validateItems, h j List.mem_cons_self]
    exact ih (fun k hk => h k (List.mem_cons_of_mem _ hk)) path (i + 1)

theorem valid_arr {l : List Json} (h : ∀ j ∈ l, Valid j) : Valid (.arr l) :=
  fun path => validateItems_ok h path 0

theorem valid_node {operator : String} {operand : Json} (ho : operator ≠ "")
    (h : Valid operand) : Valid (node operator operand) := by
  intro path
  show validateNode path [(operator, operand)] = .ok ()
  rw [validateNode, if_neg ho]
  exact h _

/-- A comparison of a field with a constant. -/
theorem valid_compare {operator : String} (ho : operator ≠ "") (path : String) {c : Json}
    (hc : Valid c) : Valid (node operator (.arr [varNode path, c])) := by
  refine valid_node ho (valid_arr fun j hj => ?_)
  simp only [List.mem_cons, List.not_mem_nil, or_false] at hj
  rcases hj with rfl | rfl
  · exact valid_node (by decide) (valid_str path)
  · exact hc

theorem valid_thresholdToLogic {t : NumericalThreshold} {j : Json}
    (h : thresholdToLogic t = .ok j) : Valid j := by
  obtain ⟨path, -, h⟩ := bind_ok_iff.1 h
  split at h
  · obtain ⟨u, -, h⟩ := bind_ok_iff.1 h
    cases h
    refine valid_node (by decide) (valid_arr fun k hk => ?_)
    simp only [List.mem_cons, List.not_mem_nil, or_false] at hk
    rcases hk with rfl | rfl
    · exact valid_compare (by decide) path (valid_float _)
    · exact valid_compare (by decide) path (valid_float _)
  · cases h
    have ho : t.operator.value ≠ "" := by cases t.operator <;> decide
    exact valid_compare ho path (valid_float _)

theorem valid_entityLogic {rule : ExtractedComplianceRule} {j : Json}
    (h : entityLogic rule = some j) : Valid j := by
  unfold entityLogic at h
  split at h
  · cases h
  · cases h
    exact valid_compare (by decide) _ (valid_str _)
  · cases h
    refine valid_compare (by decide) _ (valid_arr fun k hk => ?_)
    obtain ⟨e, -, rfl⟩ := List.mem_map.1 hk
    exact valid_str e

theorem valid_conjunction {cs : List Json} (h : ∀ c ∈ cs, Valid c) : Valid (conjunction cs) := by
  unfold conjunction
  split
  · exact h _ List.mem_cons_self
  · exact valid_node (by decide) (valid_arr h)

/-- **The structural check accepts every tree the compiler gives.** -/
theorem validateJsonLogicAst_compiled {rule : ExtractedComplianceRule} {jl : JsonLogicRule}
    (h : compileRuleToJsonlogic rule = .ok jl) : Valid jl.logic := by
  obtain ⟨clauses, hclauses, -, hlogic⟩ := compileRuleToJsonlogic_logic h
  rw [hlogic]
  refine valid_conjunction fun c hc => ?_
  rcases List.mem_append.1 hc with hc | hc
  · exact valid_entityLogic (Option.mem_toList.1 hc)
  · obtain ⟨b, hb, rfl⟩ := exists_zip_right hclauses hc
    exact valid_thresholdToLogic ((zip_mapM_ok hclauses).1 b hb)

end RegEngine.Compiler

/-!
## When the generators succeed

Both fail on a threshold without a field and on a range without an upper bound, and on nothing else of a
rule with thresholds (`exists_regoParts_iff`, `exists_compileRuleToJsonlogic`).
-/

namespace RegEngine.Compiler

open Lib Lib.Python Lib.Except

/-- The threshold has a field and, if it is a range, an upper bound. -/
structure Accepted (t : NumericalThreshold) : Prop where
  field : ∃ f, thresholdField t = .ok f
  upper : t.operator = .range → t.valueUpper ≠ none

section
variable {t : NumericalThreshold}

theorem exists_upperBound_iff : (∃ u, upperBound t = .ok u) ↔ t.valueUpper ≠ none := by
  unfold upperBound
  cases t.valueUpper <;> simp

/-- A computation that takes a field, and the upper bound of a range. -/
theorem exists_ok_iff {α : Type} {x : Except CompileError String} {g : String → Decimal → α}
    {h : String → α} :
    (∃ a, (do
        let field ← x
        if t.operator = .range then
          let upper ← upperBound t
          pure (g field upper)
        else pure (h field)) = Except.ok a) ↔
      (∃ f, x = .ok f) ∧ (t.operator = .range → t.valueUpper ≠ none) := by
  constructor
  · rintro ⟨a, ha⟩
    obtain ⟨f, hf, ha⟩ := bind_ok_iff.1 ha
    refine ⟨⟨f, hf⟩, fun hr => ?_⟩
    rw [if_pos hr] at ha
    obtain ⟨u, hu, -⟩ := bind_ok_iff.1 ha
    exact exists_upperBound_iff.1 ⟨u, hu⟩
  · rintro ⟨⟨f, hf⟩, hupper⟩
    by_cases hr : t.operator = .range
    · obtain ⟨u, hu⟩ := exists_upperBound_iff.2 (hupper hr)
      refine ⟨g f u, bind_ok_iff.2 ⟨f, hf, ?_⟩⟩
      rw [if_pos hr]
      exact bind_ok_iff.2 ⟨u, hu, rfl⟩
    · refine ⟨h f, bind_ok_iff.2 ⟨f, hf, ?_⟩⟩
      rw [if_neg hr]
      rfl

theorem accepted_iff : Accepted t ↔
    (∃ f, thresholdField t = .ok f) ∧ (t.operator = .range → t.valueUpper ≠ none) :=
  ⟨fun h => ⟨h.field, h.upper⟩, fun h => ⟨h.1, h.2⟩⟩

theorem exists_passCondition_iff : (∃ body, passCondition t = .ok body) ↔ Accepted t :=
  exists_ok_iff.trans accepted_iff.symm

theorem exists_violationClauses_iff {clause : String} :
    (∃ vs, violationClauses t clause = .ok vs) ↔ Accepted t :=
  exists_ok_iff.trans accepted_iff.symm

/-- The path of a threshold with a field. -/
theorem exists_thresholdVarPath (h : ∃ f, thresholdField t = .ok f) :
    ∃ path, thresholdVarPath t = .ok path := by
  obtain ⟨f, hf⟩ := h
  unfold thresholdField at hf
  unfold thresholdVarPath
  dsimp only at hf ⊢
  split
  · rename_i hnone
    rw [if_pos hnone] at hf
    exact ⟨_, map_ok_iff.2 ⟨f, hf, rfl⟩⟩
  · exact ⟨_, rfl⟩

theorem exists_thresholdToLogic (h : Accepted t) : ∃ clause, thresholdToLogic t = .ok clause :=
  exists_ok_iff.2 ⟨exists_thresholdVarPath h.field, h.upper⟩

end

/-! ### Rules -/

section
variable {rule : ExtractedComplianceRule}

/-- **The Rego generator succeeds exactly** on rules with thresholds, all of which are accepted. -/
theorem exists_regoParts_iff : (∃ p, regoParts rule = .ok p) ↔
    rule.deterministicLogic ≠ [] ∧ ∀ t ∈ rule.deterministicLogic, Accepted t := by
  constructor
  · rintro ⟨p, hp⟩
    refine ⟨(partsOf hp).logic, fun t ht => ?_⟩
    obtain ⟨vs, hvs, -⟩ := (partsOf hp).violations t ht
    exact exists_violationClauses_iff.1 ⟨vs, hvs⟩
  · rintro ⟨hne, hall⟩
    obtain ⟨conds, hconds⟩ := exists_mapM_ok_iff.2 fun t ht => exists_passCondition_iff.2 (hall t ht)
    have hclauses : ∀ t ∈ rule.deterministicLogic,
        ∃ vs, violationClauses t (orText rule.clauseNumber "unscoped") = .ok vs :=
      fun t ht => exists_violationClauses_iff.2 (hall t ht)
    obtain ⟨vss, hvss⟩ := exists_mapM_ok_iff.2 hclauses
    unfold regoParts
    rw [if_neg (by simp [List.isEmpty_iff, hne])]
    exact ⟨_, bind_ok_iff.2 ⟨conds, hconds, bind_ok_iff.2 ⟨vss, hvss, rfl⟩⟩⟩

theorem exists_dataSchema (h : ∀ t ∈ rule.deterministicLogic, Accepted t) :
    ∃ schema, dataSchema rule = .ok schema := by
  have hfold : ∀ (ts : List NumericalThreshold) (schema : List (String × String)),
      (∀ t ∈ ts, Accepted t) → ∃ schema', ts.foldlM (fun schema t => do
        pure (setField schema (← thresholdVarPath t) "number")) schema =
          (.ok schema' : Except CompileError _) := by
    intro ts
    induction ts with
    | nil => exact fun schema _ => ⟨schema, rfl⟩
    | cons t ts ih =>
      intro schema hts
      obtain ⟨path, hpath⟩ := exists_thresholdVarPath (hts t List.mem_cons_self).field
      obtain ⟨schema', hrest⟩ := ih (setField schema path "number") fun s hs =>
        hts s (List.mem_cons_of_mem _ hs)
      refine ⟨schema', ?_⟩
      rw [List.foldlM_cons]
      exact bind_ok_iff.2 ⟨_, bind_ok_iff.2 ⟨path, hpath, rfl⟩, hrest⟩
  exact hfold _ _ h

theorem exists_messageTemplate (h : ∀ t ∈ rule.deterministicLogic, Accepted t) :
    ∃ template, messageTemplate rule = .ok template := by
  have hpart : ∀ t ∈ rule.deterministicLogic, ∃ part,
      messagePart (orText rule.clauseNumber "unscoped") t = .ok part := by
    intro t ht
    obtain ⟨path, hpath⟩ := exists_thresholdVarPath (h t ht).field
    exact ⟨_, bind_ok_iff.2 ⟨path, hpath, rfl⟩⟩
  obtain ⟨parts, hparts⟩ := exists_mapM_ok_iff.2 hpart
  exact ⟨_, bind_ok_iff.2 ⟨parts, hparts, rfl⟩⟩

/-- What the Rego generator accepts, the JSON-Logic generator accepts. -/
theorem exists_compileRuleToJsonlogic (hne : rule.deterministicLogic ≠ [])
    (h : ∀ t ∈ rule.deterministicLogic, Accepted t) :
    ∃ jl, compileRuleToJsonlogic rule = .ok jl := by
  obtain ⟨clauses, hclauses⟩ := exists_mapM_ok_iff.2 fun t ht => exists_thresholdToLogic (h t ht)
  obtain ⟨schema, hschema⟩ := exists_dataSchema h
  obtain ⟨template, htemplate⟩ := exists_messageTemplate h
  unfold compileRuleToJsonlogic
  rw [if_neg (by simp [List.isEmpty_iff, hne])]
  exact ⟨_, bind_ok_iff.2 ⟨clauses, hclauses, bind_ok_iff.2 ⟨schema, hschema,
    bind_ok_iff.2 ⟨template, htemplate, rfl⟩⟩⟩⟩

end

end RegEngine.Compiler
