import RegEngine.Backtest.Proof.JsonLogic
import RegEngine.Lib.Binary64

/-!
# A rule as comparisons

The tree of a rule is a conjunction of comparisons of a fact with a number, grouped by threshold,
behind the guard. On facts that doubles hold it is true where the guard holds, every fact is there and
no fact's name has a `.` in it, which JSON-Logic takes for a step into the fact.

* `thresholdToLogic_comparisons`: the clause of a threshold.
* `isTrue_comparison`: when JSON-Logic finds a comparison true.
* `evaluate_true_iff`: when it finds the tree of a rule true.
-/

namespace RegEngine.Native

open Lib Lib.Python Lib.Rego Lib.Except Compiler Backtest

/-! ## Exact numbers -/

/-- Every fact is a number that a double holds. -/
def ExactFacts (facts : List (String × Json)) : Prop :=
  ∀ f j, (Json.obj facts).get? f = some j → ∃ x, j.num? = some x ∧ Binary64.Exact x

/-- The bounds of the thresholds are numbers that doubles hold. -/
def ExactThresholds (rule : ExtractedComplianceRule) : Prop :=
  ∀ t ∈ rule.deterministicLogic, Binary64.Exact t.value.toRat ∧
    ∀ u ∈ t.valueUpper, Binary64.Exact u.toRat

/-- A number of which a multiple by a power of two has 53 significant bits has no more. -/
theorem shift_dvd_of_scaled {n m k scale : Nat} (h : n * 2 ^ scale = m * 2 ^ k) (hm : m < 2 ^ 53) :
    2 ^ (n.log2 - 52) ∣ n := by
  by_cases hlog : n.log2 ≤ 52
  · rw [Nat.sub_eq_zero_of_le hlog]
    exact one_dvd n
  · have hzero : n ≠ 0 := by
      intro h
      rw [h] at hlog
      exact hlog (by decide)
    have hlow : 2 ^ (n.log2 + scale) ≤ m * 2 ^ k := by
      rw [← h, Nat.pow_add]
      exact Nat.mul_le_mul_right _ (Nat.log2_self_le hzero)
    have hhigh : m * 2 ^ k < 2 ^ (53 + k) := by
      rw [Nat.pow_add]
      exact Nat.mul_lt_mul_of_pos_right hm (Nat.two_pow_pos k)
    have hk : n.log2 + scale < 53 + k :=
      (Nat.pow_lt_pow_iff_right (by decide)).1 (Nat.lt_of_le_of_lt hlow hhigh)
    have hpow : 2 ^ (n.log2 - 52) * 2 ^ scale ∣ n * 2 ^ scale := by
      rw [h, ← Nat.pow_add]
      exact Dvd.dvd.mul_left (Nat.pow_dvd_pow 2 (by omega)) m
    exact Nat.dvd_of_mul_dvd_mul_right (Nat.two_pow_pos scale) hpow

/-- An exact integer is rounded to itself. -/
theorem roundDouble_of_exact {q : Rat} (h : Binary64.Exact q) (hden : q.den = 1) :
    Decimal.roundDouble q.num.natAbs = q.num.natAbs := by
  obtain ⟨units, m, k, hunits, habs, hm, -⟩ := h
  have hq : q = (q.num : Rat) := ((Rat.den_eq_one_iff q).1 hden).symm
  have hscaled : q.num.natAbs * 2 ^ 1074 = m * 2 ^ k := by
    have hcast : ((q.num * 2 ^ 1074 : Int) : Rat) = units := by
      rw [← hunits, Int.cast_mul, Int.cast_pow, ← hq, Int.cast_ofNat]
    have htwo : (2 : Int).natAbs = 2 := rfl
    rw [← habs, ← Int.cast_inj.1 hcast, Int.natAbs_mul, Int.natAbs_pow, htwo]
  have hdvd := shift_dvd_of_scaled hscaled hm
  unfold Decimal.roundDouble
  dsimp only
  rw [Nat.mod_eq_zero_of_dvd hdvd]
  simp [Nat.div_mul_cancel hdvd]

theorem bound_of_exact {d : Decimal} (h : Binary64.Exact d.toRat) : bound d = d.toRat := by
  unfold bound
  split
  · rename_i hint
    have hden : d.toRat.den = 1 := of_decide_eq_true hint
    have hnum : ((d.toRat.num : Int) : Rat) = d.toRat := (Rat.den_eq_one_iff _).1 hden
    rw [Decimal.toInt, roundDouble_of_exact h hden, Int.sign_mul_natAbs, hnum]
  · rfl

/-- Python reads an exact number as it is. -/
theorem pyNum_of_exact {j : Json} {x : Rat} (hj : j.num? = some x) (hx : Binary64.Exact x) :
    j.pyNum? = some x := by
  cases j with
  | int n => exact hj
  | float d =>
    cases hj
    rw [pyNum_float, bound_of_exact hx]
  | null => cases hj
  | bool _ => cases hj
  | str _ => cases hj
  | arr _ => cases hj
  | obj _ => cases hj

/-! ## Comparisons -/

/-- A comparison of the tree: a fact, an operator and a number. -/
structure Comparison where
  fact : String
  operator : ComparisonOperator
  value : Decimal
  ne_range : operator ≠ .range

def Comparison.node (c : Comparison) : Json :=
  Compiler.node c.operator.value (.arr [varNode ("facts." ++ c.fact), .float c.value])

/-- The fact is there, under its whole name, and the comparison holds of it. -/
def Comparison.Holds (facts : List (String × Json)) (c : Comparison) : Prop :=
  ∃ j x, (Json.obj facts).get? c.fact = some j ∧ j.num? = some x ∧ c.operator.cmp.Rel x c.value.toRat

/-- The threshold's fact is there, under its whole name, and satisfies it. -/
def WholePasses (facts : List (String × Json)) (t : NumericalThreshold) : Prop :=
  ∃ f j x, thresholdVarPath t = .ok ("facts." ++ f) ∧ (Json.obj facts).get? f = some j ∧
    j.num? = some x ∧ t.Satisfied x

/-- The comparisons of a threshold. -/
structure Comparisons (t : NumericalThreshold) (cs : List Comparison) : Prop where
  fact : ∃ f, thresholdVarPath t = .ok ("facts." ++ f) ∧ ∀ c ∈ cs, c.fact = f
  ne_nil : cs ≠ []
  value : ∀ c ∈ cs, c.value = t.value ∨ some c.value = t.valueUpper
  satisfied : ∀ x, t.Satisfied x ↔ ∀ c ∈ cs, c.operator.cmp.Rel x (bound c.value)

theorem exists_thresholdVarPath {t : NumericalThreshold} {path : String}
    (h : thresholdVarPath t = .ok path) : ∃ f, path = "facts." ++ f := by
  unfold thresholdVarPath at h
  dsimp only at h
  split at h
  · obtain ⟨f, -, rfl⟩ := map_ok_iff.1 h
    exact ⟨f, rfl⟩
  · exact ⟨_, (Except.ok.inj h).symm⟩

/-- **The clause of a threshold is its comparisons.** -/
theorem thresholdToLogic_comparisons {t : NumericalThreshold} {clause : Json}
    (h : thresholdToLogic t = .ok clause) :
    ∃ cs, Comparisons t cs ∧ clause = conjunction (cs.map Comparison.node) := by
  unfold thresholdToLogic at h
  obtain ⟨path, hpath, h⟩ := bind_ok_iff.1 h
  obtain ⟨f, rfl⟩ := exists_thresholdVarPath hpath
  by_cases hr : t.operator = .range
  · rw [if_pos hr] at h
    obtain ⟨u, hu, h⟩ := bind_ok_iff.1 h
    cases h
    refine ⟨[⟨f, .gte, t.value, by decide⟩, ⟨f, .lte, u, by decide⟩], ⟨⟨f, hpath, ?_⟩, ?_, ?_, ?_⟩, rfl⟩
    · simp
    · simp
    · simp [upperBound_ok hu]
    · intro x
      simp [NumericalThreshold.Satisfied, hr, upperBound_ok hu, ComparisonOperator.cmp, CmpOp.Rel]
  · rw [if_neg hr] at h
    cases h
    refine ⟨[⟨f, t.operator, t.value, hr⟩], ⟨⟨f, hpath, ?_⟩, ?_, ?_, ?_⟩, rfl⟩
    · simp
    · simp
    · simp
    · intro x
      simp [satisfied_of_ne_range hr]

/-- The comparisons of the thresholds, for a rule's clauses. -/
theorem mapM_comparisons {ts : List NumericalThreshold} {clauses : List Json}
    (h : ts.mapM thresholdToLogic = .ok clauses) :
    ∃ css, List.Forall₂ Comparisons ts css ∧
      clauses = css.map fun cs => conjunction (cs.map Comparison.node) := by
  induction ts generalizing clauses with
  | nil =>
    have hnil : [] = clauses := by simpa [pure, Except.pure] using h
    exact ⟨[], .nil, hnil.symm⟩
  | cons t ts ih =>
    obtain ⟨clause, rest, hclause, hrest, rfl⟩ := mapM_cons_ok_iff.1 h
    obtain ⟨cs, hcs, rfl⟩ := thresholdToLogic_comparisons hclause
    obtain ⟨css, hcss, rfl⟩ := ih hrest
    exact ⟨cs :: css, .cons hcs hcss, rfl⟩

theorem Comparisons.exact {t : NumericalThreshold} {cs : List Comparison} (h : Comparisons t cs)
    (hvalue : Binary64.Exact t.value.toRat) (hupper : ∀ u ∈ t.valueUpper, Binary64.Exact u.toRat) :
    ∀ c ∈ cs, Binary64.Exact c.value.toRat := by
  intro c hc
  cases h.value c hc with
  | inl heq => exact heq ▸ hvalue
  | inr heq => exact hupper c.value heq.symm

/-- On exact numbers a threshold passes when its comparisons hold. -/
theorem Comparisons.holds_iff {t : NumericalThreshold} {cs : List Comparison}
    (h : Comparisons t cs) (hvalue : Binary64.Exact t.value.toRat)
    (hupper : ∀ u ∈ t.valueUpper, Binary64.Exact u.toRat) {facts : List (String × Json)} :
    (∀ c ∈ cs, c.Holds facts) ↔ WholePasses facts t := by
  obtain ⟨f, hf, hfact⟩ := h.fact
  have hbound : ∀ c ∈ cs, bound c.value = c.value.toRat :=
    fun c hc => bound_of_exact (h.exact hvalue hupper c hc)
  constructor
  · intro hall
    obtain ⟨c, hc⟩ := List.exists_mem_of_ne_nil cs h.ne_nil
    obtain ⟨j, x, hj, hx, -⟩ := hall c hc
    refine ⟨f, j, x, hf, hfact c hc ▸ hj, hx, (h.satisfied x).2 fun c' hc' => ?_⟩
    obtain ⟨j', x', hj', hx', hrel⟩ := hall c' hc'
    rw [hfact c' hc', ← hfact c hc, hj] at hj'
    cases hj'
    rw [hx] at hx'
    cases hx'
    rw [hbound c' hc']
    exact hrel
  · rintro ⟨g, j, x, hg, hj, hx, hsat⟩ c hc
    have hgf : "facts." ++ g = "facts." ++ f := Except.ok.inj (hg.symm.trans hf)
    obtain rfl : g = f := by
      rw [← String.toList_inj] at hgf ⊢
      simpa using hgf
    refine ⟨j, x, (hfact c hc).symm ▸ hj, hx, ?_⟩
    rw [← hbound c hc]
    exact (h.satisfied x).1 hsat c hc

/-! ## JSON-Logic -/

/-- The node comes to a value that counts as true. -/
def IsTrue (data node : Json) : Prop :=
  ∃ v, evaluateJsonlogic data node = .ok v ∧ v.truthy = true

theorem evaluateAll_true_iff {data : Json} {cs : List Json} :
    evaluateAll data cs = .ok true ↔ ∀ c ∈ cs, IsTrue data c := by
  induction cs with
  | nil => simp [evaluateAll]
  | cons c cs ih =>
    rw [List.forall_mem_cons, ← ih, evaluateAll]
    constructor
    · intro h
      obtain ⟨v, hv, h⟩ := bind_ok_iff.1 h
      split at h
      · exact ⟨⟨v, hv, by assumption⟩, h⟩
      · cases h
    · rintro ⟨⟨v, hv, htrue⟩, hrest⟩
      rw [hv]
      show (if v.truthy then evaluateAll data cs else pure false) = _
      rw [if_pos htrue, hrest]

theorem isTrue_and {data : Json} {cs : List Json} :
    IsTrue data (Compiler.node "and" (.arr cs)) ↔ ∀ c ∈ cs, IsTrue data c := by
  rw [← evaluateAll_true_iff, IsTrue, evaluate_and]
  constructor
  · rintro ⟨v, hv, htrue⟩
    obtain ⟨b, hb, rfl⟩ := map_ok_iff.1 hv
    rw [hb, show b = true from htrue]
  · intro h
    exact ⟨.bool true, by rw [h]; rfl, rfl⟩

theorem isTrue_conjunction {data : Json} {cs : List Json} :
    IsTrue data (conjunction cs) ↔ ∀ c ∈ cs, IsTrue data c := by
  unfold conjunction
  split
  · simp
  · exact isTrue_and

/-- An operator other than `var` comes to a truth value. -/
theorem evaluate_node_bool {data operand v : Json} {operator : String} (hop : operator ≠ "var")
    (h : evaluateJsonlogic data (Compiler.node operator operand) = .ok v) : ∃ b, v = .bool b := by
  have hresult : ∀ {o : Option Bool} {w : Json}, pyResult o = .ok w → ∃ b, w = .bool b := by
    intro o w hw
    cases o with
    | none => cases hw
    | some b => exact ⟨b, (Except.ok.inj hw).symm⟩
  change evaluateNode data [(operator, operand)] = .ok v at h
  unfold evaluateNode at h
  rw [if_neg hop] at h
  split at h
  · unfold evaluateAnd at h
    split at h
    · obtain ⟨b, -, rfl⟩ := map_ok_iff.1 h
      exact ⟨b, rfl⟩
    · cases h
  · split at h
    · obtain ⟨pair, -, h⟩ := bind_ok_iff.1 h
      exact hresult h
    · split at h
      · obtain ⟨pair, -, h⟩ := bind_ok_iff.1 h
        exact hresult h
      · cases h

/-- The node has an operator that comes to a truth value. -/
def Boolean (j : Json) : Prop := ∃ operator operand, operator ≠ "var" ∧ j = Compiler.node operator operand

theorem Comparison.boolean (c : Comparison) : Boolean c.node := by
  refine ⟨c.operator.value, _, ?_, rfl⟩
  cases c.operator <;> decide

theorem boolean_conjunction {cs : List Json} (h : ∀ c ∈ cs, Boolean c) : Boolean (conjunction cs) := by
  unfold conjunction
  split
  · exact h _ List.mem_cons_self
  · exact ⟨"and", _, by decide, rfl⟩

theorem boolean_entityLogic {rule : ExtractedComplianceRule} {clause : Json}
    (h : entityLogic rule = some clause) : Boolean clause := by
  unfold entityLogic at h
  split at h
  · cases h
  · exact ⟨"==", _, by decide, (Option.some.inj h).symm⟩
  · exact ⟨"in", _, by decide, (Option.some.inj h).symm⟩

theorem Boolean.isTrue_iff {data j : Json} (h : Boolean j) :
    IsTrue data j ↔ evaluateJsonlogic data j = .ok (.bool true) := by
  obtain ⟨operator, operand, hop, rfl⟩ := h
  constructor
  · rintro ⟨v, hv, htrue⟩
    obtain ⟨b, rfl⟩ := evaluate_node_bool hop hv
    rw [hv, show b = true from htrue]
  · intro hv
    exact ⟨_, hv, rfl⟩

section
variable {e : String} {facts : List (String × Json)}

/-- A name with a `.` in it is a path into a fact, and a number has nothing in it. -/
theorem resolveVar_dot {f : String} (hf : '.' ∈ f.toList) (hfacts : ExactFacts facts) (v : Json) :
    resolveVar ("facts." ++ f) (candidateInput e facts) ≠ .ok v := by
  obtain ⟨first, rest, hsplit, hfirst⟩ := List.eq_append_cons_of_mem hf
  have htext : ("facts." ++ f).toList = "facts".toList ++ '.' :: (first ++ '.' :: rest) := by
    rw [← hsplit]
    simp
  obtain ⟨second, others, hrest⟩ := List.exists_cons_of_ne_nil (List.splitOn_ne_nil '.' rest)
  have hparts : split '.' ("facts." ++ f) =
      "facts" :: String.ofList first :: String.ofList second :: others.map String.ofList := by
    have hfacts : '.' ∉ "facts".toList := by decide
    rw [split, htext, List.splitOn_append_cons_self_of_not_mem hfacts,
      List.splitOn_append_cons_self_of_not_mem hfirst, hrest]
    rfl
  rw [resolveVar, hparts]
  show resolveParts _ (String.ofList first :: String.ofList second :: _) (.obj facts) ≠ _
  rw [resolveParts]
  cases hget : (Json.obj facts).get? (String.ofList first) with
  | none => simp
  | some j =>
    obtain ⟨x, hx, -⟩ := hfacts _ j hget
    have hnone : j.get? (String.ofList second) = none := by
      cases j <;> first | rfl | cases hx
    show resolveParts _ (String.ofList second :: _) j ≠ _
    rw [resolveParts, hnone]
    simp

/-- **A comparison is true** when it holds of its fact and the fact's name is not a path. -/
theorem isTrue_comparison {c : Comparison} (hvalue : Binary64.Exact c.value.toRat)
    (hfacts : ExactFacts facts) :
    IsTrue (candidateInput e facts) c.node ↔ '.' ∉ c.fact.toList ∧ c.Holds facts := by
  obtain ⟨op, hop, hnum⟩ := comparison_of_ne_range c.ne_range
  have hnode : evaluateJsonlogic (candidateInput e facts) c.node =
      (resolveVar ("facts." ++ c.fact) (candidateInput e facts)).bind
        fun v => pyResult (op v (.float c.value)) := evaluate_compare hop rfl _
  by_cases hdot : '.' ∈ c.fact.toList
  · constructor
    · rintro ⟨v, hv, -⟩
      rw [hnode] at hv
      obtain ⟨w, hw, -⟩ := bind_ok_iff.1 hv
      exact absurd hw (resolveVar_dot hdot hfacts w)
    · exact fun h => absurd hdot h.1
  · rw [IsTrue, hnode, resolveVar_fact hdot]
    cases hget : (Json.obj facts).get? c.fact with
    | none =>
      constructor
      · rintro ⟨v, hv, -⟩
        cases hv
      · rintro ⟨-, j, x, hj, -⟩
        rw [hget] at hj
        cases hj
    | some j =>
      obtain ⟨x, hx, hexact⟩ := hfacts _ j hget
      obtain ⟨b, hb, hrel⟩ := hnum (pyNum_of_exact hx hexact) (pyNum_of_exact (j := .float c.value) rfl hvalue)
      have hresult : (Except.ok j : Except EvalError Json).bind
          (fun v => pyResult (op v (.float c.value))) = .ok (.bool b) := by
        show pyResult (op j (.float c.value)) = _
        rw [hb]
        rfl
      rw [hresult]
      constructor
      · rintro ⟨v, hv, htrue⟩
        cases hv
        exact ⟨hdot, j, x, hget, hx, hrel.1 htrue⟩
      · rintro ⟨-, j', x', hj', hx', hholds⟩
        rw [hget] at hj'
        cases hj'
        rw [hx] at hx'
        cases hx'
        exact ⟨_, rfl, hrel.2 hholds⟩

/-- The canonical fact of the threshold is no path. -/
def DotFree (t : NumericalThreshold) : Prop := '.' ∉ (t.canonicalFact.getD "").toList

/-- Names that the metric gives have no `.` in them. -/
theorem dotFree_iff {t : NumericalThreshold} {f : String}
    (h : thresholdVarPath t = .ok ("facts." ++ f)) : DotFree t ↔ '.' ∉ f.toList := by
  have hbegin : ∀ {g : String}, "facts." ++ g = "facts." ++ f → g = f := by
    intro g hg
    rw [← String.toList_inj] at hg ⊢
    simpa using hg
  unfold thresholdVarPath at h
  dsimp only at h
  split at h
  · rename_i hempty
    obtain ⟨g, hg, hgf⟩ := map_ok_iff.1 h
    have hfield : thresholdField t = .ok f := by
      rw [← hbegin hgf, thresholdField, if_pos hempty, hg]
    have hnot := dot_notMem_field hfield
    simp [DotFree, hempty, hnot]
  · rw [DotFree, hbegin (Except.ok.inj h)]

/-- The clause of a threshold. -/
theorem Comparisons.isTrue_iff {t : NumericalThreshold} {cs : List Comparison}
    (h : Comparisons t cs) (hvalue : Binary64.Exact t.value.toRat)
    (hupper : ∀ u ∈ t.valueUpper, Binary64.Exact u.toRat) (hfacts : ExactFacts facts) :
    IsTrue (candidateInput e facts) (conjunction (cs.map Comparison.node)) ↔
      DotFree t ∧ WholePasses facts t := by
  obtain ⟨f, hf, hfact⟩ := h.fact
  rw [isTrue_conjunction, List.forall_mem_map, ← h.holds_iff hvalue hupper, dotFree_iff hf]
  have hexact := h.exact hvalue hupper
  constructor
  · intro hall
    obtain ⟨c, hc⟩ := List.exists_mem_of_ne_nil cs h.ne_nil
    refine ⟨hfact c hc ▸ ((isTrue_comparison (hexact c hc) hfacts).1 (hall c hc)).1, fun c hc => ?_⟩
    exact ((isTrue_comparison (hexact c hc) hfacts).1 (hall c hc)).2
  · rintro ⟨hdot, hall⟩ c hc
    exact (isTrue_comparison (hexact c hc) hfacts).2 ⟨(hfact c hc).symm ▸ hdot, hall c hc⟩

theorem isTrue_entityLogic {rule : ExtractedComplianceRule} :
    (∀ c ∈ (entityLogic rule).toList, IsTrue (candidateInput e facts) c) ↔ GuardHolds rule e := by
  cases hentity : entityLogic rule with
  | none =>
    have hguard : GuardHolds rule e := by
      left
      unfold entityLogic at hentity
      split at hentity
      · assumption
      · cases hentity
      · cases hentity
    simpa using hguard
  | some clause =>
    obtain ⟨b, hb, hiff⟩ : ∃ b, evaluateJsonlogic (candidateInput e facts) clause = .ok (.bool b) ∧
        (b = true ↔ GuardHolds rule e) := evaluate_entityLogic hentity
    rw [← hiff]
    simp [IsTrue, hb, Json.truthy]

/-- **The tree of a rule is true** when the guard holds and every threshold passes, under a name that
is not a path. -/
theorem evaluate_true_iff {rule : ExtractedComplianceRule} {jl : JsonLogicRule}
    (hjl : compileRuleToJsonlogic rule = .ok jl) (hrule : ExactThresholds rule)
    (hfacts : ExactFacts facts) :
    evaluateJsonlogic (candidateInput e facts) jl.logic = .ok (.bool true) ↔
      GuardHolds rule e ∧ ∀ t ∈ rule.deterministicLogic, DotFree t ∧ WholePasses facts t := by
  obtain ⟨clauses, hclauses, -, hlogic⟩ := compileRuleToJsonlogic_logic hjl
  obtain ⟨css, hcss, rfl⟩ := mapM_comparisons hclauses
  have hboolean : ∀ c ∈ (entityLogic rule).toList ++
      css.map (fun cs => conjunction (cs.map Comparison.node)), Boolean c := by
    intro c hc
    cases List.mem_append.1 hc with
    | inl hentity => exact boolean_entityLogic (Option.mem_toList.1 hentity)
    | inr hclause =>
      obtain ⟨cs, -, rfl⟩ := List.mem_map.1 hclause
      apply boolean_conjunction
      simp [Comparison.boolean]
  rw [hlogic, ← (boolean_conjunction hboolean).isTrue_iff, isTrue_conjunction,
    List.forall_mem_append, isTrue_entityLogic]
  apply and_congr_right'
  rw [List.forall_mem_map]
  clear hjl hlogic hclauses hboolean
  unfold ExactThresholds at hrule
  generalize rule.deterministicLogic = ts at hcss hrule
  induction hcss with
  | nil => simp
  | @cons t cs ts css hcs _ ih =>
    rw [List.forall_mem_cons, List.forall_mem_cons, ih fun s hs => hrule s (List.mem_cons_of_mem _ hs)]
    apply and_congr_left'
    obtain ⟨hvalue, hupper⟩ := hrule t List.mem_cons_self
    rw [hcs.isTrue_iff hvalue hupper hfacts]

end

end RegEngine.Native
