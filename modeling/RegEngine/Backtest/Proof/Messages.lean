import RegEngine.Backtest.Proof.TruthTable
import RegEngine.Lib.PyFormat

/-!
# Messages of a denied candidate

The template of a rule names its values by their path in the input document, `facts.<field>`, and is
formatted with the facts themselves as keyword arguments. There is no argument `facts`, so the first
field of the template raises a `KeyError`: a transaction that the tree of a rule denies has no decision.

* `evaluate_logic_numbers`: the tree on a document with a number for every threshold.
* `messages_render_iff`: when an evaluation ends in a decision whose message tells the values.
-/

namespace RegEngine.Backtest

open Lib Lib.Python Lib.Rego Lib.Except Compiler Execution

/-! ## Numbers where the tree looks for them -/

/-- The value that the document has at the path of a threshold. -/
def ValueAt (e : String) (facts : List (String × Json)) (t : NumericalThreshold) (v : Json) : Prop :=
  ∃ path, thresholdVarPath t = .ok path ∧ resolveVar path (candidateInput e facts) = .ok v

def HasNumberAt (e : String) (facts : List (String × Json)) (t : NumericalThreshold) : Prop :=
  ∃ v x, ValueAt e facts t v ∧ v.num? = some x

/-- The value satisfies the threshold, as the number it is for Python. -/
def Meets (e : String) (facts : List (String × Json)) (t : NumericalThreshold) : Prop :=
  ∃ v x, ValueAt e facts t v ∧ v.pyNum? = some x ∧ t.Satisfied x

section
variable {e : String} {facts : List (String × Json)}

theorem ValueAt.unique {t : NumericalThreshold} {v w : Json} (hv : ValueAt e facts t v)
    (hw : ValueAt e facts t w) : v = w := by
  obtain ⟨path, hpath, hv⟩ := hv
  obtain ⟨path', hpath', hw⟩ := hw
  obtain rfl : path = path' := Except.ok.inj (hpath.symm.trans hpath')
  exact Except.ok.inj (hv.symm.trans hw)

theorem meets_iff {t : NumericalThreshold} {v : Json} {x : Rat} (hv : ValueAt e facts t v)
    (hx : v.pyNum? = some x) : Meets e facts t ↔ t.Satisfied x := by
  constructor
  · rintro ⟨w, y, hw, hy, hsat⟩
    obtain rfl := hv.unique hw
    obtain rfl : x = y := Option.some.inj (hx.symm.trans hy)
    exact hsat
  · exact fun hsat => ⟨v, x, hv, hx, hsat⟩

/-- One comparison of a number in the document with a bound. -/
theorem evaluate_numberCmp {path : String} {v : Json} {x : Rat}
    (hv : resolveVar path (candidateInput e facts) = .ok v) (hx : v.pyNum? = some x)
    {o : ComparisonOperator} (ho : o ≠ .range) (d : Decimal) :
    ∃ b, evaluateJsonlogic (candidateInput e facts)
        (node o.value (.arr [varNode path, .float d])) = .ok (.bool b) ∧
      (b = true ↔ o.cmp.Rel x (bound d)) := by
  obtain ⟨op, hop, hnum⟩ := comparison_of_ne_range ho
  obtain ⟨b, hb, hrel⟩ := hnum hx (pyNum_float d)
  refine ⟨b, ?_, hrel⟩
  rw [evaluate_compare hop rfl, hv]
  show pyResult (op v (.float d)) = _
  rw [hb]
  rfl

/-- The clause of a threshold whose number is there. -/
theorem evaluate_threshold_number {t : NumericalThreshold} (hn : HasNumberAt e facts t) {clause : Json}
    (h : thresholdToLogic t = .ok clause) :
    ∃ b, evaluateJsonlogic (candidateInput e facts) clause = .ok (.bool b) ∧
      (b = true ↔ Meets e facts t) := by
  obtain ⟨v, y, hv, hnum⟩ := hn
  obtain ⟨x, hx⟩ := exists_pyNum hnum
  rw [meets_iff hv hx]
  obtain ⟨path, hpath, hv⟩ := hv
  rw [thresholdToLogic, hpath] at h
  obtain ⟨path', hpath', h⟩ := bind_ok_iff.1 h
  cases hpath'
  by_cases hr : t.operator = .range
  · rw [if_pos hr] at h
    obtain ⟨u, hu, h⟩ := bind_ok_iff.1 h
    cases h
    have hsat : t.Satisfied x ↔ bound t.value ≤ x ∧ x ≤ bound u := by
      simp [NumericalThreshold.Satisfied, hr, upperBound_ok hu]
    obtain ⟨b, hlow, hb⟩ : ∃ b, evaluateJsonlogic (candidateInput e facts)
        (node ">=" (.arr [varNode path, .float t.value])) = .ok (.bool b) ∧
          (b = true ↔ bound t.value ≤ x) := evaluate_numberCmp hv hx (o := .gte) (by decide) _
    obtain ⟨b', hhigh, hb'⟩ : ∃ b', evaluateJsonlogic (candidateInput e facts)
        (node "<=" (.arr [varNode path, .float u])) = .ok (.bool b') ∧
          (b' = true ↔ x ≤ bound u) := evaluate_numberCmp hv hx (o := .lte) (by decide) _
    refine ⟨b && b', ?_, by rw [hsat, Bool.and_eq_true, hb, hb']⟩
    rw [evaluate_and]
    cases b with
    | false =>
      rw [evaluateAll_cons_false hlow]
      rfl
    | true =>
      rw [evaluateAll_cons_true hlow]
      cases b' with
      | false =>
        rw [evaluateAll_cons_false hhigh]
        rfl
      | true =>
        rw [evaluateAll_cons_true hhigh]
        rfl
  · rw [if_neg hr] at h
    cases h
    obtain ⟨b, heval, hb⟩ := evaluate_numberCmp hv hx hr t.value
    exact ⟨b, heval, hb.trans (satisfied_of_ne_range hr x).symm⟩

theorem evaluateAll_numbers : ∀ {ts : List NumericalThreshold} {clauses : List Json},
    ts.mapM thresholdToLogic = .ok clauses → (∀ t ∈ ts, HasNumberAt e facts t) →
    ∃ b, evaluateAll (candidateInput e facts) clauses = .ok b ∧
      (b = true ↔ ∀ t ∈ ts, Meets e facts t)
  | [], clauses, h, _ => by
    obtain rfl : [] = clauses := by simpa [pure, Except.pure] using h
    exact ⟨true, rfl, by simp⟩
  | t :: ts, clauses, h, hn => by
    obtain ⟨clause, rest, hclause, hrest, rfl⟩ := mapM_cons_ok_iff.1 h
    obtain ⟨hnt, hnts⟩ := List.forall_mem_cons.1 hn
    obtain ⟨b, heval, hb⟩ := evaluate_threshold_number hnt hclause
    cases b with
    | true =>
      obtain ⟨b', hall, hb'⟩ := evaluateAll_numbers hrest hnts
      refine ⟨b', (evaluateAll_cons_true heval rest).trans hall, ?_⟩
      rw [List.forall_mem_cons, and_iff_right (hb.1 rfl), hb']
    | false =>
      refine ⟨false, evaluateAll_cons_false heval rest, ?_⟩
      have hnot : ¬ Meets e facts t := fun hm => absurd (hb.2 hm) (by decide)
      simp [hnot]

/-- **The tree of a rule on a document with a number for every threshold** is a truth value. -/
theorem evaluate_logic_numbers {rule : ExtractedComplianceRule} {jl : JsonLogicRule}
    (hjl : compileRuleToJsonlogic rule = .ok jl)
    (hn : ∀ t ∈ rule.deterministicLogic, HasNumberAt e facts t) :
    ∃ b, evaluateJsonlogic (candidateInput e facts) jl.logic = .ok (.bool b) ∧
      (b = true ↔ GuardHolds rule e ∧ ∀ t ∈ rule.deterministicLogic, Meets e facts t) := by
  obtain ⟨clauses, hclauses, -, hlogic⟩ := compileRuleToJsonlogic_logic hjl
  obtain ⟨b, hall, hb⟩ := evaluateAll_numbers hclauses hn
  have hbool : ∀ c ∈ clauses, ∀ v, evaluateJsonlogic (candidateInput e facts) c = .ok v →
      ∃ b, v = .bool b := by
    intro c hc v hv
    obtain ⟨p, hp, rfl⟩ := exists_zip_right hclauses hc
    obtain ⟨b, heval, -⟩ := evaluate_threshold_number (hn p.1 (List.of_mem_zip hp).1)
      ((zip_mapM_ok hclauses).1 p hp)
    exact ⟨b, Except.ok.inj (hv.symm.trans heval)⟩
  rw [hlogic]
  cases hentity : entityLogic rule with
  | none =>
    have hguard : GuardHolds rule e := by
      refine .inl ?_
      unfold entityLogic at hentity
      split at hentity
      · assumption
      · cases hentity
      · cases hentity
    refine ⟨b, ?_, by rw [and_iff_right hguard, hb]⟩
    show evaluateJsonlogic _ (conjunction clauses) = _
    rw [evaluate_conjunction hbool, hall]
    rfl
  | some clause =>
    obtain ⟨g, hg, hguard⟩ : ∃ b, evaluateJsonlogic (candidateInput e facts) clause = .ok (.bool b) ∧
        (b = true ↔ GuardHolds rule e) := evaluate_entityLogic hentity
    have hconj : evaluateJsonlogic (candidateInput e facts)
        (conjunction ((some clause).toList ++ clauses)) =
          (evaluateAll (candidateInput e facts) (clause :: clauses)).map .bool := by
      refine evaluate_conjunction (List.forall_mem_cons.2 ⟨fun v hv => ?_, hbool⟩)
      exact ⟨g, Except.ok.inj (hv.symm.trans hg)⟩
    rw [hconj]
    cases g with
    | true =>
      rw [evaluateAll_cons_true hg, hall]
      exact ⟨b, rfl, by rw [and_iff_right (hguard.1 rfl), hb]⟩
    | false =>
      rw [evaluateAll_cons_false hg]
      have hnot : ¬ GuardHolds rule e := fun hgh => absurd (hguard.2 hgh) (by decide)
      exact ⟨false, rfl, by simp [hnot]⟩

end

/-! ## The template -/

theorem thresholdVarPath_prefix {t : NumericalThreshold} {path : String}
    (h : thresholdVarPath t = .ok path) : ∃ f, path = "facts." ++ f := by
  unfold thresholdVarPath at h
  dsimp only at h
  split at h
  · obtain ⟨f, -, rfl⟩ := map_ok_iff.1 h
    exact ⟨f, rfl⟩
  · exact ⟨_, (Except.ok.inj h).symm⟩

/-- A message begins with the metric and the field of its threshold. -/
theorem messagePart_ok {clause : String} {t : NumericalThreshold} {part : String}
    (h : messagePart clause t = .ok part) :
    ∃ rest, part.toList = t.metric.toList ++ " is ".toList ++ '{' :: ("facts".toList ++ '.' :: rest) := by
  obtain ⟨path, hpath, h⟩ := bind_ok_iff.1 h
  obtain ⟨f, rfl⟩ := thresholdVarPath_prefix hpath
  cases h
  refine ⟨?_, ?_⟩
  rotate_left
  · simp only [String.toList_append, List.append_assoc]
    rfl

/-- The template begins with the metric and the field of the first threshold. -/
theorem compileRuleToJsonlogic_template {rule : ExtractedComplianceRule} {jl : JsonLogicRule}
    (h : compileRuleToJsonlogic rule = .ok jl) :
    ∃ t ts rest, rule.deterministicLogic = t :: ts ∧ jl.violationMessageTemplate.toList =
      t.metric.toList ++ " is ".toList ++ '{' :: ("facts".toList ++ '.' :: rest) := by
  unfold compileRuleToJsonlogic at h
  split at h
  · cases h
  · rename_i hl
    obtain ⟨-, -, h⟩ := bind_ok_iff.1 h
    obtain ⟨clauses, -, h⟩ := bind_ok_iff.1 h
    obtain ⟨schema, -, h⟩ := bind_ok_iff.1 h
    obtain ⟨template, htemplate, h⟩ := bind_ok_iff.1 h
    cases h
    obtain ⟨parts, hparts, htemplate⟩ := bind_ok_iff.1 htemplate
    cases htemplate
    cases hts : rule.deterministicLogic with
    | nil => simp [hts] at hl
    | cons t ts =>
      rw [hts] at hparts
      obtain ⟨part, parts', hpart, -, rfl⟩ := mapM_cons_ok_iff.1 hparts
      obtain ⟨rest, hrest⟩ := messagePart_ok hpart
      cases parts' with
      | nil => exact ⟨t, ts, rest, rfl, by simpa using hrest⟩
      | cons part' parts' =>
        refine ⟨t, ts, rest ++ (" AND " ++ " AND ".intercalate (part' :: parts')).toList, rfl, ?_⟩
        dsimp only
        rw [String.intercalate_cons_cons, String.append_assoc, String.toList_append, hrest]
        simp only [List.append_assoc, List.cons_append]

/-! ## Decisions -/

/-- `str.format` as the evaluator calls it: what it raises is an error of a Python operation. -/
def pyFormat (F : Formatter Json) (template : String) (facts : List (String × Json)) :
    Except EvalError String :=
  (strFormat F facts template).mapError fun _ => .typeError

/-- The evaluator a rule's compilation gives. -/
def candidateOf (jl : JsonLogicRule) : JsonLogicCandidateEvaluator where
  logic := jl.logic
  violationMessageTemplate := some jl.violationMessageTemplate

/-- The evaluation ends in a decision, and the message of a denial has the text of every threshold's
value in it. -/
def Renders (F : Formatter Json) (rule : ExtractedComplianceRule) (jl : JsonLogicRule) (e : String)
    (facts : List (String × Json)) : Prop :=
  ∃ d messages, (candidateOf jl).evaluate (pyFormat F) e facts = .ok (d, messages) ∧
    (d = .deny → ∀ t ∈ rule.deterministicLogic, ∀ v, ValueAt e facts t v →
      ∃ text, F.format v [] = .ok text ∧ ∃ m ∈ messages, text <:+: m.toList)

/-- A metric whose text is not markup. -/
def FreeOfBraces (s : String) : Prop := '{' ∉ s.toList ∧ '}' ∉ s.toList

theorem pyFormat_template (F : Formatter Json) {rule : ExtractedComplianceRule} {jl : JsonLogicRule}
    (hjl : compileRuleToJsonlogic rule = .ok jl)
    (hmetric : ∀ t ∈ rule.deterministicLogic.head?, FreeOfBraces t.metric)
    {facts : List (String × Json)} (hfacts : facts.lookup "facts" = none) :
    pyFormat F jl.violationMessageTemplate facts = .error .typeError := by
  obtain ⟨t, ts, rest, hts, htemplate⟩ := compileRuleToJsonlogic_template hjl
  obtain ⟨hopen, hclose⟩ := hmetric t (by rw [hts]; rfl)
  have hkey : ∀ c ∈ "facts".toList, IsPlain c := by simp [IsPlain]
  have hnoOpen : '{' ∉ t.metric.toList ++ " is ".toList := by simp [hopen]
  have hnoClose : '}' ∉ t.metric.toList ++ " is ".toList := by simp [hclose]
  obtain ⟨err, herr⟩ := expand_unknown F hnoOpen hnoClose hkey (by decide) (by simpa using hfacts) 1
  unfold pyFormat strFormat
  rw [htemplate, herr]
  rfl

/-- A denial whose template cannot be formatted raises. -/
theorem not_renders_of_denied (F : Formatter Json) {rule : ExtractedComplianceRule} {jl : JsonLogicRule}
    (hjl : compileRuleToJsonlogic rule = .ok jl)
    (hmetric : ∀ t ∈ rule.deterministicLogic.head?, FreeOfBraces t.metric) {e : String}
    {facts : List (String × Json)} (hfacts : facts.lookup "facts" = none)
    (heval : evaluateJsonlogic (candidateInput e facts) jl.logic = .ok (.bool false)) :
    ¬ Renders F rule jl e facts := by
  rintro ⟨d, messages, hdecision, -⟩
  obtain ⟨t, ts, rest, -, htemplate⟩ := compileRuleToJsonlogic_template hjl
  have hne : jl.violationMessageTemplate ≠ "" := by
    intro hempty
    rw [hempty] at htemplate
    exact absurd (congrArg List.length htemplate) (by simp)
  have htruthy : truthy (some jl.violationMessageTemplate) = true := by simp [truthy, hne]
  unfold JsonLogicCandidateEvaluator.evaluate candidateOf at hdecision
  rw [heval] at hdecision
  simp only [Json.truthy, Bool.false_eq_true, if_false, htruthy, if_true, Option.getD_some] at hdecision
  rw [pyFormat_template F hjl hmetric hfacts] at hdecision
  cases hdecision

/-- **When a candidate's message renders**: where the guard holds and every number satisfies its
threshold. Elsewhere the transaction is denied, and the template cannot be formatted unless the first
metric is markup itself or the facts have an entry `facts`. -/
theorem messages_render_iff (F : Formatter Json) (rule : ExtractedComplianceRule) (jl : JsonLogicRule)
    (e : String) (facts : List (String × Json)) (hjl : compileRuleToJsonlogic rule = .ok jl)
    (hn : ∀ t ∈ rule.deterministicLogic, HasNumberAt e facts t) :
    ((GuardHolds rule e ∧ ∀ t ∈ rule.deterministicLogic, Meets e facts t) →
      Renders F rule jl e facts) ∧
    ((∀ t ∈ rule.deterministicLogic.head?, FreeOfBraces t.metric) → facts.lookup "facts" = none →
      (Renders F rule jl e facts ↔
        GuardHolds rule e ∧ ∀ t ∈ rule.deterministicLogic, Meets e facts t)) := by
  obtain ⟨b, heval, hb⟩ := evaluate_logic_numbers hjl hn
  have hallowed : (GuardHolds rule e ∧ ∀ t ∈ rule.deterministicLogic, Meets e facts t) →
      Renders F rule jl e facts := by
    intro hmeets
    obtain rfl := hb.2 hmeets
    refine ⟨.allow, [], ?_, fun h => by cases h⟩
    unfold JsonLogicCandidateEvaluator.evaluate candidateOf
    rw [heval]
    rfl
  refine ⟨hallowed, fun hmetric hfacts => ⟨fun hrenders => ?_, hallowed⟩⟩
  cases b with
  | true => exact hb.1 rfl
  | false => exact absurd hrenders (not_renders_of_denied F hjl hmetric hfacts heval)

/-- A formatter of numbers without markup of their own. -/
def quietFormatter : Formatter Json where
  member v rest := if rest = [] then .ok v else .error .ofValue
  convert v _ := .ok v
  format v spec := match v, spec with
    | .int n, [] => .ok (toString n).toList
    | .float d, [] => .ok d.repr.toList
    | _, _ => .error .ofValue

theorem hasNumberAt_netWorth {value : Decimal} {e : String} (n : Int) :
    ∀ t ∈ (netWorthRule value).deterministicLogic, HasNumberAt e (netWorthFacts (.int n)) t := by
  intro t ht
  rw [List.mem_singleton.1 ht]
  have hpath : resolveVar ("facts." ++ "net_worth_inr_crore") (candidateInput e (netWorthFacts (.int n))) =
      .ok (.int n) := resolveVar_fact (by decide)
  exact ⟨.int n, n, ⟨_, rfl, hpath⟩, rfl⟩

/-- A net worth of 60 crore, where 60 is asked for. -/
theorem messages_render_sixty :
    ∃ jl, compileRuleToJsonlogic (netWorthRule sixty) = .ok jl ∧
      Renders quietFormatter (netWorthRule sixty) jl "Stockbroker" (netWorthFacts (.int 60)) := by
  have hjl := eq_ok_get
    (show (compileRuleToJsonlogic (netWorthRule sixty)).toOption.isSome = true from rfl)
  refine ⟨_, hjl, (messages_render_iff quietFormatter (netWorthRule sixty) _ "Stockbroker"
    (netWorthFacts (.int 60)) hjl (hasNumberAt_netWorth _)).1 ⟨.inl rfl, fun t ht => ?_⟩⟩
  rw [List.mem_singleton.1 ht]
  exact ⟨.int 60, 60, ⟨_, rfl, rfl⟩, rfl, rfl⟩

/-- **A net worth of 50 crore, where 60 is asked for**: the denial raises, whatever the format of
values. -/
theorem not_forall_messages_render : ¬ ∃ F : Formatter Json,
    ∀ (rule : ExtractedComplianceRule) (jl : JsonLogicRule) (e : String) (facts : List (String × Json)),
      compileRuleToJsonlogic rule = .ok jl → (∀ t ∈ rule.deterministicLogic, HasNumberAt e facts t) →
        Renders F rule jl e facts := by
  rintro ⟨F, h⟩
  have hjl := eq_ok_get
    (show (compileRuleToJsonlogic (netWorthRule sixty)).toOption.isSome = true from rfl)
  have hn : ∀ t ∈ (netWorthRule sixty).deterministicLogic,
      HasNumberAt "Stockbroker" (netWorthFacts (.int 50)) t := hasNumberAt_netWorth 50
  obtain ⟨b, heval, hb⟩ := evaluate_logic_numbers hjl hn
  have hbelow : b = false := by
    rw [Bool.eq_false_iff]
    intro hallowed
    obtain ⟨v, x, ⟨path, hpath, hv⟩, hx, hsat⟩ := (hb.1 hallowed).2 _ List.mem_cons_self
    cases hpath
    cases hv
    cases hx
    exact absurd (show ((50 : Int) : Rat) = bound sixty from hsat) (by decide +kernel)
  rw [hbelow] at heval
  have hmetric : ∀ t ∈ (netWorthRule sixty).deterministicLogic.head?, FreeOfBraces t.metric := by
    intro t ht
    cases ht
    exact ⟨by decide, by decide⟩
  exact not_renders_of_denied F hjl hmetric rfl heval (h _ _ _ _ hjl hn)

end RegEngine.Backtest
