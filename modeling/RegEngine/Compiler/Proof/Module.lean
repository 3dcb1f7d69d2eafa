import RegEngine.Compiler.Proof.Rego

/-!
# The documents of the emitted module

Every rule name of the module has the definitions that `regoModule` gives it and no others, so the
module's documents follow from the bodies.

* `document_allow`: `allow` is true when the guard holds and every threshold's fact is there and
  satisfies it, else false.
* `document_violation`: `violation` has a member exactly when the guard holds and a fact that is
  there breaches its threshold.
* `query_decision`: the `decision` object is always defined.
-/

namespace RegEngine.Compiler

open Lib Lib.Rego Lib.Rego.Outcome Lib.Except
open scoped Classical

/-! ## Names -/

theorem toList_condName (i : Nat) :
    (condName i).toList = 'c' :: 'o' :: 'n' :: 'd' :: '_' :: Nat.toDigits 10 i := by
  rw [condName, String.toList_append]
  change _ ++ (Nat.repr i).toList = _
  rw [Nat.toList_repr]
  rfl

theorem condName_inj {i j : Nat} (h : condName i = condName j) : i = j := by
  have hl := congrArg String.toList h
  rw [toList_condName, toList_condName] at hl
  simp only [List.cons.injEq, true_and] at hl
  exact Text.toDigits_inj hl

theorem condName_ne {s : String} (h : s.toList.head? ≠ some 'c') (i : Nat) : condName i ≠ s := by
  intro he
  rw [← he, toList_condName] at h
  exact h rfl

section
variable {p : RegoParts} {name : String}

theorem filter_guardRules (h : name ≠ "entity_matches") :
    p.guardRules.filter (fun r => r.name = name) = [] := by
  rw [List.filter_eq_nil_iff]
  intro r hr hname
  obtain ⟨g, -, rfl⟩ := List.mem_map.1 hr
  exact h (of_decide_eq_true hname).symm

theorem filter_condRules (h : ∀ i, condName i ≠ name) :
    p.condRules.filter (fun r => r.name = name) = [] := by
  rw [List.filter_eq_nil_iff]
  intro r hr hname
  obtain ⟨c, -, rfl⟩ := List.mem_map.1 hr
  exact h c.2 (of_decide_eq_true hname)

theorem filter_violationRules (h : name ≠ "violation") :
    p.violationRules.filter (fun r => r.name = name) = [] := by
  rw [List.filter_eq_nil_iff]
  intro r hr hname
  obtain ⟨v, -, rfl⟩ := List.mem_map.1 hr
  exact h (of_decide_eq_true hname).symm

theorem filter_violationRules_self :
    p.violationRules.filter (fun r => r.name = "violation") = p.violationRules := by
  rw [List.filter_eq_self]
  intro r hr
  obtain ⟨v, -, rfl⟩ := List.mem_map.1 hr
  simp [Rule.name]

/-- The one entry of an indexed list at an index. -/
theorem filter_zipIdx {α : Type} : ∀ (l : List α) (k i : Nat) {a : α}, l[i]? = some a →
    (l.zipIdx k).filter (fun c => c.2 = k + i) = [(a, k + i)]
  | [], _, _, _, h => by simp at h
  | b :: l, k, 0, a, h => by
    obtain rfl : b = a := by simpa using h
    rw [List.zipIdx_cons, List.filter_cons_of_pos (by simp)]
    refine congrArg _ (List.filter_eq_nil_iff.2 fun c hc heq => ?_)
    have hle := List.le_snd_of_mem_zipIdx hc
    have heq := of_decide_eq_true heq
    omega
  | b :: l, k, i + 1, a, h => by
    have hrest := filter_zipIdx l (k + 1) i (by simpa using h)
    rw [List.zipIdx_cons, List.filter_cons_of_neg (by simp)]
    rwa [show k + (i + 1) = k + 1 + i by omega]

theorem filter_condRules_self {i : Nat} {t : NumericalThreshold} {body : List Literal}
    (h : p.conditions[i]? = some (t, body)) :
    p.condRules.filter (fun r => r.name = condName i) = [ifRule (condName i) body] := by
  have hname : ∀ c : (NumericalThreshold × List Literal) × Nat,
      ((ifRule (condName c.2) c.1.2).name = condName i) = (c.2 = 0 + i) := by
    intro c
    simp only [ifRule, Rule.name, Nat.zero_add, eq_iff_iff]
    exact ⟨condName_inj, fun hc => hc ▸ rfl⟩
  rw [RegoParts.condRules, List.filter_map]
  simp only [Function.comp_def, hname]
  rw [filter_zipIdx _ 0 i h]
  simp

end

/-! ## Definitions -/

section
variable {rule : ExtractedComplianceRule} {ruleVersion : Int} {p : RegoParts}

/-- The definitions of a name that no part of the module shares with another. -/
theorem rules_filter (name : String) :
    (regoModule rule ruleVersion p).rules.filter (fun r => r.name = name) =
      (if "allow" = name then [.default "allow" (.bool false)] else []) ++
      (p.guardRules.filter (fun r => r.name = name) ++
      (p.condRules.filter (fun r => r.name = name) ++
      ((if "allow" = name then [ifRule "allow" p.allowBody] else []) ++
      (p.violationRules.filter (fun r => r.name = name) ++
      ((if "deny" = name then [.complete "deny" (.rule "violation") []] else []) ++
      (if "decision" = name then [.complete "decision" (decisionTerm rule ruleVersion p) []]
        else [])))))) := by
  simp only [regoModule, filter_name_cons, List.filter_append, List.filter_nil, List.append_nil,
    List.append_assoc]
  rfl

theorem rules_allow : (regoModule rule ruleVersion p).rules.filter (fun r => r.name = "allow") =
    [.default "allow" (.bool false), ifRule "allow" p.allowBody] := by
  rw [rules_filter, filter_guardRules (by decide), filter_condRules (condName_ne (by decide)),
    filter_violationRules (by decide)]
  rfl

theorem rules_entityMatches {g : Literal} (h : p.guard = some g) :
    (regoModule rule ruleVersion p).rules.filter (fun r => r.name = "entity_matches") =
      [ifRule "entity_matches" [g]] := by
  rw [rules_filter, filter_condRules (condName_ne (by decide)), filter_violationRules (by decide),
    RegoParts.guardRules, h]
  rfl

theorem rules_cond {i : Nat} {t : NumericalThreshold} {body : List Literal}
    (h : p.conditions[i]? = some (t, body)) :
    (regoModule rule ruleVersion p).rules.filter (fun r => r.name = condName i) =
      [ifRule (condName i) body] := by
  have hne : ∀ {s : String}, s.toList.head? ≠ some 'c' → s ≠ condName i :=
    fun hs he => condName_ne hs i he.symm
  rw [rules_filter, filter_condRules_self h, filter_guardRules (condName_ne (by decide) i),
    filter_violationRules (condName_ne (by decide) i), if_neg (hne (by decide)),
    if_neg (hne (by decide)), if_neg (hne (by decide)), if_neg (hne (by decide))]
  rfl

theorem rules_violation :
    (regoModule rule ruleVersion p).rules.filter (fun r => r.name = "violation") =
      p.violationRules := by
  rw [rules_filter, filter_guardRules (by decide), filter_condRules (condName_ne (by decide)),
    filter_violationRules_self]
  simp

theorem rules_decision :
    (regoModule rule ruleVersion p).rules.filter (fun r => r.name = "decision") =
      [.complete "decision" (decisionTerm rule ruleVersion p) []] := by
  rw [rules_filter, filter_guardRules (by decide), filter_condRules (condName_ne (by decide)),
    filter_violationRules (by decide)]
  rfl

/-! ## The parts -/

/-- What the parts of a compiled rule are. -/
structure PartsOf (rule : ExtractedComplianceRule) (p : RegoParts) : Prop where
  logic : rule.deterministicLogic ≠ []
  guard : p.guard = entityGuard rule
  condition : ∀ c ∈ p.conditions, c.1 ∈ rule.deterministicLogic ∧ passCondition c.1 = .ok c.2
  conditions : ∀ t ∈ rule.deterministicLogic, ∃ c ∈ p.conditions, c.1 = t
  violation : ∀ v ∈ p.violations, ∃ t ∈ rule.deterministicLogic, ∃ vs,
    violationClauses t p.clause = .ok vs ∧ v ∈ vs
  violations : ∀ t ∈ rule.deterministicLogic, ∃ vs,
    violationClauses t p.clause = .ok vs ∧ ∀ v ∈ vs, v ∈ p.violations

theorem partsOf (h : regoParts rule = .ok p) : PartsOf rule p := by
  unfold regoParts at h
  by_cases hl : rule.deterministicLogic.isEmpty = true
  · rw [if_pos hl] at h
    cases h
  · rw [if_neg hl] at h
    dsimp only at h
    obtain ⟨-, -, h⟩ := bind_ok_iff.1 h
    obtain ⟨conds, hconds, h⟩ := bind_ok_iff.1 h
    obtain ⟨vss, hvss, h⟩ := bind_ok_iff.1 h
    obtain rfl := Except.ok.inj h
    refine
      { logic := fun hnil => hl (by simp [hnil])
        guard := rfl
        condition := fun c hc => ⟨(List.of_mem_zip hc).1, (zip_mapM_ok hconds).1 c hc⟩
        conditions := fun t ht => exists_zip_left hconds ht
        violation := ?_
        violations := ?_ }
    · intro v hv
      obtain ⟨vs, hvs, hv⟩ := List.mem_flatten.1 hv
      obtain ⟨c, hc, rfl⟩ := exists_zip_right hvss hvs
      exact ⟨c.1, (List.of_mem_zip hc).1, c.2, (zip_mapM_ok hvss).1 c hc, hv⟩
    · intro t ht
      obtain ⟨c, hc, rfl⟩ := exists_zip_left hvss ht
      exact ⟨c.2, (zip_mapM_ok hvss).1 c hc,
        fun v hv => List.mem_flatten.2 ⟨c.2, (List.of_mem_zip hc).2, hv⟩⟩

/-! ## Documents -/

/-- The fact of every threshold, if it is there, is a number. -/
def NumericFor (rule : ExtractedComplianceRule) (facts : Json) : Prop :=
  ∀ t ∈ rule.deterministicLogic, NumericAt facts t

theorem NumericFacts.for {facts : Json} (h : NumericFacts facts) (rule : ExtractedComplianceRule) :
    NumericFor rule facts := fun t _ => h.at t

variable {input facts : Json} {e : String} {sprintf : String → List Json → String} {n : Nat}

theorem document_entityMatches (hp : PartsOf rule p) (hg : p.guard ≠ none) :
    (regoModule rule ruleVersion p).document sprintf input (n + 1) "entity_matches" =
      guard (EntityNamed rule input) (.bool true) := by
  obtain ⟨g, hg⟩ := Option.ne_none_iff_exists'.1 hg
  rw [document_complete (rules_entityMatches hg), Rule.eval]
  simp only [evalBody, eval_entityGuard (hp.guard ▸ hg), bind_value_right, Term.eval]
  exact guard_bind_value ..

/-- The guard's reference in a body. -/
theorem evalBody_guardBody (hp : PartsOf rule p) :
    evalBody sprintf input ((regoModule rule ruleVersion p).document sprintf input (n + 1)) []
      p.guardBody = guard (InGuard rule input) [] := by
  unfold RegoParts.guardBody
  by_cases hg : p.guard = none
  · have hholds : InGuard rule input := .inl (guardEntities_eq_nil_iff.1 (hp.guard ▸ hg))
    rw [hg, guard_pos hholds]
    rfl
  · have hne : guardEntities rule ≠ [] := fun hnil =>
      hg (hp.guard.trans (guardEntities_eq_nil_iff.2 hnil))
    rw [if_pos (Option.isSome_iff_ne_none.2 hg)]
    simp only [evalBody, Literal.eval, Term.eval, document_entityMatches hp hg, bind_value_right]
    by_cases hmem : EntityNamed rule input
    · have hholds : InGuard rule input := .inr hmem
      rw [guard_pos hmem, guard_pos hholds]
      rfl
    · have hfails : ¬ InGuard rule input := not_or.2 ⟨hne, hmem⟩
      rw [guard_neg hmem, guard_neg hfails]
      rfl

theorem document_cond (hp : PartsOf rule p) (hf : input.get? "facts" = some facts)
    (hn : NumericFor rule facts) {c : NumericalThreshold × List Literal} {i : Nat}
    (hc : p.conditions[i]? = some c) :
    (regoModule rule ruleVersion p).document sprintf input (n + 1) (condName i) =
      guard (Passes facts c.1) (.bool true) := by
  obtain ⟨hmem, hbody⟩ := hp.condition c (List.mem_of_getElem? hc)
  rw [document_complete (rules_cond hc), Rule.eval, evalBody_passCondition hf (hn c.1 hmem) hbody]
  exact guard_bind_value ..

/-- The guard holds and every threshold's fact is there and satisfies it. -/
def Allows (rule : ExtractedComplianceRule) (e : String) (facts : Json) : Prop :=
  GuardHolds rule e ∧ ∀ t ∈ rule.deterministicLogic, Passes facts t

/-- The guard holds and a fact that is there breaches its threshold. -/
def Violates (rule : ExtractedComplianceRule) (e : String) (facts : Json) : Prop :=
  GuardHolds rule e ∧ ∃ t ∈ rule.deterministicLogic, Breaches facts t

/-- The same on a document with any entity type. -/
def AllowsOn (rule : ExtractedComplianceRule) (input facts : Json) : Prop :=
  InGuard rule input ∧ ∀ t ∈ rule.deterministicLogic, Passes facts t

def ViolatesOn (rule : ExtractedComplianceRule) (input facts : Json) : Prop :=
  InGuard rule input ∧ ∃ t ∈ rule.deterministicLogic, Breaches facts t

theorem allowsOn_iff (he : input.get? "entity_type" = some (.str e)) :
    AllowsOn rule input facts ↔ Allows rule e facts := and_congr_left' (inGuard_iff he)

theorem violatesOn_iff (he : input.get? "entity_type" = some (.str e)) :
    ViolatesOn rule input facts ↔ Violates rule e facts := and_congr_left' (inGuard_iff he)

theorem forall_conditions_iff (hp : PartsOf rule p) {q : NumericalThreshold → Prop} :
    (∀ c ∈ p.conditions.zipIdx, q c.1.1) ↔ ∀ t ∈ rule.deterministicLogic, q t := by
  constructor
  · intro h t ht
    obtain ⟨c, hc, rfl⟩ := hp.conditions t ht
    obtain ⟨i, hi⟩ := List.mem_iff_getElem?.1 hc
    exact h (c, i) (List.mem_zipIdx_iff_getElem?.2 hi)
  · intro h c hc
    have hmem := List.mem_of_getElem? (List.mem_zipIdx_iff_getElem?.1 hc)
    exact h _ (hp.condition _ hmem).1

theorem evalBody_allowBody (hp : PartsOf rule p) (hf : input.get? "facts" = some facts)
    (hn : NumericFor rule facts) :
    evalBody sprintf input ((regoModule rule ruleVersion p).document sprintf input (n + 1)) []
      p.allowBody = guard (AllowsOn rule input facts) [] := by
  unfold RegoParts.allowBody
  rw [evalBody_append, evalBody_guardBody hp]
  have hconds : ∀ env, evalBody sprintf input
      ((regoModule rule ruleVersion p).document sprintf input (n + 1)) env
      (p.conditions.zipIdx.map fun c => .holds (.rule (condName c.2))) =
        guard (∀ c ∈ p.conditions.zipIdx, Passes facts c.1.1) env := by
    intro env
    refine evalBody_holds env fun c hc => ?_
    exact document_cond hp hf hn (List.mem_zipIdx_iff_getElem?.1 hc)
  simp only [hconds]
  exact guard_bind_guard (by rw [forall_conditions_iff hp, AllowsOn]) _

/-- **`allow`.** -/
theorem document_allow (hp : PartsOf rule p) (hf : input.get? "facts" = some facts)
    (hn : NumericFor rule facts) :
    (regoModule rule ruleVersion p).document sprintf input (n + 2) "allow" =
      value (.bool (AllowsOn rule input facts)) := by
  rw [document_default rules_allow, Rule.eval, evalBody_allowBody hp hf hn]
  by_cases h : AllowsOn rule input facts
  · simp [h, Term.eval]
  · simp [h]

/-- One violation body of the module. -/
theorem eval_violationRule (hp : PartsOf rule p) (hf : input.get? "facts" = some facts)
    {t : NumericalThreshold} (hn : NumericAt facts t)
    {vs : List (Literal × Term)} (hvs : violationClauses t p.clause = .ok vs) :
    ∃ f, thresholdField t = .ok f ∧ Covers t f vs ∧ ∀ v ∈ vs, ∃ s,
      (Rule.partialSet "violation" (.var "msg") (p.guardBody ++ [v.1, .assign "msg" v.2])).eval
          sprintf input ((regoModule rule ruleVersion p).document sprintf input (n + 1)) =
        guard (InGuard rule input ∧ ∃ x, FactIs facts t x ∧ Fires f v x) (.str s) := by
  obtain ⟨f, ht, hcov⟩ := violationClauses_covers hvs
  refine ⟨f, ht, hcov, fun v hv => ?_⟩
  obtain ⟨op, d, hclause⟩ := hcov.1 v hv
  exact eval_violation hf hn ht hclause (evalBody_guardBody hp)

/-- A violation body of the module is undefined, or a text when the rule is violated. -/
theorem eval_violationRule_cases (hp : PartsOf rule p) (hf : input.get? "facts" = some facts)
    (hn : NumericFor rule facts) {r : Rule} (hr : r ∈ p.violationRules) :
    r.eval sprintf input ((regoModule rule ruleVersion p).document sprintf input (n + 1)) =
        undefined ∨
      ∃ s, r.eval sprintf input ((regoModule rule ruleVersion p).document sprintf input (n + 1)) =
        value (.str s) ∧ ViolatesOn rule input facts := by
  obtain ⟨v, hv, rfl⟩ := List.mem_map.1 hr
  obtain ⟨t, ht, vs, hvs, hv⟩ := hp.violation v hv
  obtain ⟨f, -, hcov, heval⟩ := eval_violationRule hp hf (hn t ht) hvs
  obtain ⟨s, hs⟩ := heval v hv
  by_cases hfire : InGuard rule input ∧ ∃ x, FactIs facts t x ∧ Fires f v x
  · obtain ⟨hG, x, hx, hfx⟩ := id hfire
    refine .inr ⟨s, hs.trans (guard_pos hfire _), hG, t, ht, x, hx, ?_⟩
    exact (hcov.2 x).2 ⟨v, hv, hfx⟩
  · exact .inl (hs.trans (guard_neg hfire _))

/-- A violated rule has a violation body that gives a text. -/
theorem exists_violationRule_text (hp : PartsOf rule p) (hf : input.get? "facts" = some facts)
    (hn : NumericFor rule facts) (h : ViolatesOn rule input facts) :
    ∃ r ∈ p.violationRules, ∃ s,
      r.eval sprintf input ((regoModule rule ruleVersion p).document sprintf input (n + 1)) =
        value (.str s) := by
  obtain ⟨hG, t, ht, x, hx, hsat⟩ := h
  obtain ⟨vs, hvs, hin⟩ := hp.violations t ht
  obtain ⟨f, -, hcov, heval⟩ := eval_violationRule hp hf (hn t ht) hvs
  obtain ⟨v, hv, hfx⟩ := (hcov.2 x).1 hsat
  obtain ⟨s, hs⟩ := heval v hv
  rw [guard_pos ⟨hG, x, hx, hfx⟩] at hs
  exact ⟨_, List.mem_map.2 ⟨v, hin v hv, rfl⟩, s, hs⟩

theorem exists_violationRule_isSet (hp : PartsOf rule p) :
    ∃ r ∈ p.violationRules, r.isSet = true := by
  obtain ⟨t, ht⟩ := List.exists_mem_of_ne_nil _ hp.logic
  obtain ⟨vs, hvs, hmem⟩ := hp.violations t ht
  obtain ⟨v, hv⟩ := List.exists_mem_of_ne_nil _ (violationClauses_ne_nil hvs)
  exact ⟨_, List.mem_map.2 ⟨v, hmem v hv, rfl⟩, rfl⟩

/-- **`violation`** is a set of texts, empty unless the rule is violated. -/
theorem document_violation (hp : PartsOf rule p) (hf : input.get? "facts" = some facts)
    (hn : NumericFor rule facts) :
    ∃ ws, (regoModule rule ruleVersion p).document sprintf input (n + 2) "violation" =
        value (.arr ws) ∧
      (∀ w ∈ ws, ∃ s, w = .str s) ∧ (ws ≠ [] ↔ ViolatesOn rule input facts) := by
  let doc := (regoModule rule ruleVersion p).document sprintf input (n + 1)
  have hcases : ∀ r ∈ p.violationRules, r.eval sprintf input doc = undefined ∨
      ∃ s, r.eval sprintf input doc = value (.str s) ∧ ViolatesOn rule input facts :=
    fun r hr => eval_violationRule_cases hp hf hn hr
  have hnc : ∀ o ∈ p.violationRules.map (Rule.eval sprintf input doc), o ≠ conflict := by
    rintro o ho rfl
    obtain ⟨r, hr, hro⟩ := List.mem_map.1 ho
    rcases hcases r hr with h | ⟨s, h, -⟩ <;> simp [h] at hro
  obtain ⟨vs, hvs, hmem⟩ := collect_value hnc
  have hvalue : ∀ w ∈ vs, (∃ s, w = .str s) ∧ ViolatesOn rule input facts := by
    intro w hw
    obtain ⟨r, hr, hrw⟩ := List.mem_map.1 ((hmem w).1 hw)
    rcases hcases r hr with h | ⟨s, h, hV⟩
    · simp [h] at hrw
    · rw [h] at hrw
      exact ⟨⟨s, (Outcome.value.inj hrw).symm⟩, hV⟩
  refine ⟨setOf vs, ?_, fun w hw => (hvalue w (mem_setOf hw)).1, ?_⟩
  · rw [document_set rules_violation (exists_violationRule_isSet hp), hvs, bind_value]
  · rw [Ne, setOf_eq_nil_iff]
    constructor
    · intro hne
      obtain ⟨w, hw⟩ := List.exists_mem_of_ne_nil _ hne
      exact (hvalue w hw).2
    · intro hV
      obtain ⟨r, hr, s, hs⟩ := exists_violationRule_text hp hf hn hV
      exact List.ne_nil_of_mem ((hmem (.str s)).2 (List.mem_map.2 ⟨r, hr, hs⟩))

theorem exists_rules_length (rule : ExtractedComplianceRule) (ruleVersion : Int) (p : RegoParts) :
    ∃ k, (regoModule rule ruleVersion p).rules.length = k + 3 := by
  refine ⟨_, (Nat.sub_add_cancel ?_).symm⟩
  simp only [regoModule, List.length_cons, List.length_append]
  omega

/-- The `allow` that OPA answers with, also on other entity types than texts. -/
theorem query_allow_on (hp : PartsOf rule p) (hf : input.get? "facts" = some facts)
    (hn : NumericFor rule facts) (ruleVersion : Int) (sprintf : String → List Json → String) :
    (regoModule rule ruleVersion p).query sprintf input "allow" =
      value (.bool (AllowsOn rule input facts)) := by
  obtain ⟨k, hk⟩ := exists_rules_length rule ruleVersion p
  rw [Module.query, hk]
  exact document_allow (n := k + 1) hp hf hn

/-- The `violation` that OPA answers with. -/
theorem query_violation_on (hp : PartsOf rule p) (hf : input.get? "facts" = some facts)
    (hn : NumericFor rule facts) (ruleVersion : Int) (sprintf : String → List Json → String) :
    ∃ ws, (regoModule rule ruleVersion p).query sprintf input "violation" = value (.arr ws) ∧
      (ws ≠ [] ↔ ViolatesOn rule input facts) := by
  obtain ⟨k, hk⟩ := exists_rules_length rule ruleVersion p
  obtain ⟨ws, hws, -, hiff⟩ : ∃ ws, (regoModule rule ruleVersion p).document sprintf input
        (k + 3) "violation" = value (.arr ws) ∧
      (∀ w ∈ ws, ∃ s, w = .str s) ∧ (ws ≠ [] ↔ ViolatesOn rule input facts) :=
    document_violation (n := k + 1) hp hf hn
  exact ⟨ws, by rw [Module.query, hk]; exact hws, hiff⟩

/-- The `allow` that OPA answers with. -/
theorem query_allow (hp : PartsOf rule p) (he : input.get? "entity_type" = some (.str e))
    (hf : input.get? "facts" = some facts) (hn : NumericFacts facts) (ruleVersion : Int)
    (sprintf : String → List Json → String) :
    (regoModule rule ruleVersion p).query sprintf input "allow" =
      value (.bool (Allows rule e facts)) := by
  rw [query_allow_on hp hf (hn.for rule)]
  simp only [allowsOn_iff he]

/-- The fields of the `decision` object after the two verdicts. -/
def provenance (rule : ExtractedComplianceRule) (ruleVersion : Int) (p : RegoParts) :
    List (String × Json) :=
  [("rule_id", .str rule.ruleId), ("rule_version", .int ruleVersion),
    ("clause_number", .str p.clause), ("circular_number", jsonText rule.circularNumber),
    ("obligation_type", .str rule.obligationType.value), ("source_sha256", .str rule.sourceSha256),
    ("source_document_sha256", jsonText rule.sourceDocumentSha256),
    ("extracted_text_sha256", jsonText rule.extractedTextSha256),
    ("canonical_facts_digest", .str p.digest)]

/-- **The `decision` object is defined on every input with numeric facts**, with the verdicts of
`allow` and `violation` in it. -/
theorem query_decision (hp : PartsOf rule p) (he : input.get? "entity_type" = some (.str e))
    (hf : input.get? "facts" = some facts) (hn : NumericFacts facts) (ruleVersion : Int)
    (sprintf : String → List Json → String) :
    ∃ ws, (regoModule rule ruleVersion p).query sprintf input "decision" =
        value (.obj (("allow", .bool (Allows rule e facts)) :: ("violations", .arr ws) ::
          provenance rule ruleVersion p)) ∧
      (∀ w ∈ ws, ∃ s, w = .str s) ∧ (ws ≠ [] ↔ Violates rule e facts) := by
  obtain ⟨k, hk⟩ := exists_rules_length rule ruleVersion p
  obtain ⟨ws, hws, htext, hiff⟩ : ∃ ws, (regoModule rule ruleVersion p).document sprintf input
        (k + 2) "violation" = value (.arr ws) ∧
      (∀ w ∈ ws, ∃ s, w = .str s) ∧ (ws ≠ [] ↔ ViolatesOn rule input facts) :=
    document_violation hp hf (hn.for rule)
  refine ⟨ws, ?_, htext, hiff.trans (violatesOn_iff he)⟩
  rw [Module.query, hk, document_complete rules_decision, Rule.eval]
  simp only [evalBody, bind_value, decisionTerm, Term.eval, Term.evalFields,
    document_allow hp hf (hn.for rule), hws, provenance, allowsOn_iff he]

end

end RegEngine.Compiler
