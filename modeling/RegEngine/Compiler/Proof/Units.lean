import RegEngine.Compiler.Proof.JsonLogic
import RegEngine.Lib.DecimalDense

/-!
# The units of thresholds

Some facts have a unit in their name, and the taxonomy admits other units for them. A bound is emitted as
it stands, whatever its unit.

* `exists_unitScale`: every admitted unit has a size in the unit of the fact.
* `units_respected_iff`: when the emitted comparison is the threshold, read in its unit.
-/

namespace RegEngine.Compiler

open Lib Lib.Python Lib.Rego Lib.Rego.Outcome Lib.Except

/-! ## Sizes -/

/-- The facts with a unit in their name, and the sizes of units in it: a crore is 100 lakh and 10^7
rupees, a day 24 hours. -/
def unitScales : List (String × List (String × Rat)) :=
  [("net_worth_inr_crore", [("inr crore", 1), ("inr lakh", 1 / 100), ("inr", 1 / 10 ^ 7)]),
   ("settlement_window_days", [("days", 1), ("hours", 1 / 24)]),
   ("upfront_margin_pct", [("%", 1)]),
   ("crar_pct", [("%", 1)]),
   ("single_borrower_exposure_pct", [("%", 1)]),
   ("equity_exposure_pct", [("%", 1)])]

/-- The size of a unit, of any spelling, in the unit of the fact. -/
def unitScale (fact unit : String) : Option Rat := do
  let scales ← unitScales.lookup fact
  scales.lookup (normalizeUnit unit)

/-- The normal spellings of units. -/
def normalUnits : List String :=
  ["%", "days", "hours", "months", "weeks", "inr", "inr crore", "inr lakh"]

/-- The normal spelling depends on the text in lower case, and is that text if it is none of the known. -/
theorem normalizeUnit_cases (unit : String) :
    normalizeUnit unit ∈ normalUnits ∨ normalizeUnit unit = lower (strip unit) := by
  unfold normalizeUnit
  dsimp only
  split_ifs <;> simp [normalUnits]

theorem normalizeUnit_congr {u v : String} (h : lower (strip u) = lower (strip v)) :
    normalizeUnit u = normalizeUnit v := by
  unfold normalizeUnit
  rw [h]

/-- The admitted units of a fact, in any normal spelling, have a size. -/
theorem lookup_scales_of_allowed : ∀ f ∈ canonicalFacts, ∀ scales ∈ unitScales.lookup f.identifier,
    (∀ u ∈ f.allowedUnits, lower (strip u) = u ∧ ∃ s ∈ scales.lookup (normalizeUnit u), 0 < s) ∧
      ∀ u ∈ normalUnits, u ∈ f.allowedUnits → ∃ s ∈ scales.lookup u, 0 < s := by
  decide +kernel

/-- **Every unit that the taxonomy admits** for such a fact has a size. -/
theorem exists_unitScale {f : CanonicalFact} (hf : f ∈ canonicalFacts)
    (hfixed : (unitScales.lookup f.identifier).isSome) {unit : String} (hunit : strip unit ≠ "")
    (hadmitted : f.wrongUnit (some unit) = false) :
    ∃ s, unitScale f.identifier unit = some s ∧ 0 < s := by
  obtain ⟨scales, hscales⟩ := Option.isSome_iff_exists.1 hfixed
  obtain ⟨hallowed, hnormal⟩ := lookup_scales_of_allowed f hf scales hscales
  have hlower : lower (strip unit) ∈ f.allowedUnits →
      ∃ s ∈ scales.lookup (normalizeUnit unit), 0 < s := by
    intro hmem
    obtain ⟨hself, hscale⟩ := hallowed _ hmem
    rwa [normalizeUnit_congr hself] at hscale
  have hscale : ∃ s ∈ scales.lookup (normalizeUnit unit), 0 < s := by
    simp only [CanonicalFact.wrongUnit, decide_eq_false_iff_not, not_and, not_not] at hadmitted
    by_cases hmem : normalizeUnit unit ∈ f.allowedUnits
    · rcases normalizeUnit_cases unit with hknown | hself
      · exact hnormal _ hknown hmem
      · exact hlower (hself ▸ hmem)
    · exact hlower (hadmitted hunit hmem)
  obtain ⟨s, hs, hpos⟩ := hscale
  exact ⟨s, by rw [unitScale, hscales]; exact hs, hpos⟩

/-! ## Emitted comparisons -/

/-- The document of one fact. -/
def factInput (field : String) (x : Json) : Json := .obj [("facts", .obj [(field, x)])]

/-- The `i`-th comparison of the module holds for a value of the fact, exactly when the value, converted
from the unit of the fact to one of this size, satisfies the threshold. -/
def UnitsRespected (m : Module) (i : Nat) (t : NumericalThreshold) (field : String) (scale : Rat) :
    Prop :=
  ∀ (sprintf : String → List Json → String) (x : Json) (q : Rat), x.num? = some q →
    (m.query sprintf (factInput field x) (condName i) = value (.bool true) ↔ t.Satisfied (q / scale))

/-- The emitted comparison is the threshold as it stands. -/
theorem query_cond {rule : ExtractedComplianceRule} {p : RegoParts} (hp : regoParts rule = .ok p)
    (ruleVersion : Int) {i : Nat} {c : NumericalThreshold × List Literal} (hc : p.conditions[i]? = some c)
    {field : String} (hfield : thresholdField c.1 = .ok field)
    (sprintf : String → List Json → String) {x : Json} {q : Rat} (hx : x.num? = some q) :
    (regoModule rule ruleVersion p).query sprintf (factInput field x) (condName i) =
        value (.bool true) ↔ c.1.Satisfied q := by
  classical
  obtain ⟨k, hk⟩ := exists_rules_length rule ruleVersion p
  have hpasses : Passes (.obj [(field, x)]) c.1 ↔ c.1.Satisfied q := by
    have hfact : FactIs (.obj [(field, x)]) c.1 q := ⟨field, x, hfield, by simp [Json.get?], hx⟩
    constructor
    · rintro ⟨y, hy, hsat⟩
      rwa [hfact.unique hy]
    · exact fun hsat => ⟨q, hfact, hsat⟩
  rw [Module.query, hk, document_cond (n := k + 2) (partsOf hp) rfl
      ((numericFacts_singleton field hx).for rule) hc,
    ← hpasses]
  by_cases h : Passes (.obj [(field, x)]) c.1
  · simp [h]
  · simp [h]

/-- The size does not matter: it is that of the fact's own unit, or all bounds are zero, or the range is
empty. -/
def Unscaled (t : NumericalThreshold) (scale : Rat) : Prop :=
  scale = 1 ∨ (bound t.value = 0 ∧ ∀ u ∈ t.valueUpper, bound u = 0) ∨
    (t.operator = .range ∧ ∃ u ∈ t.valueUpper, bound u < bound t.value)

/-- A bound is a decimal. -/
theorem exists_num_bound (d : Decimal) : ∃ x : Json, x.num? = some (bound d) :=
  ⟨regoScalar d, num_regoScalar d⟩

theorem mul_eq_self_iff {v s : Rat} : v = v * s ↔ s = 1 ∨ v = 0 := by
  constructor
  · intro h
    by_cases hv : v = 0
    · exact .inr hv
    · exact .inl (mul_left_cancel₀ hv (by rw [mul_one]; exact h.symm))
  · rintro (rfl | rfl) <;> simp

/-- One bound. -/
theorem satisfied_div_iff {t : NumericalThreshold} {scale : Rat} (hs : 0 < scale)
    (hr : t.operator ≠ .range) :
    (∀ (x : Json) q, x.num? = some q → (t.Satisfied q ↔ t.Satisfied (q / scale))) ↔
      bound t.value = bound t.value * scale := by
  have hsat : ∀ q, t.Satisfied (q / scale) ↔ t.operator.cmp.Rel q (bound t.value * scale) := by
    intro q
    rw [satisfied_of_ne_range hr]
    cases ho : t.operator <;>
      simp [ComparisonOperator.cmp, CmpOp.Rel, le_div_iff₀ hs, lt_div_iff₀ hs, div_le_iff₀ hs,
        div_lt_iff₀ hs, div_eq_iff hs.ne']
  simp only [hsat, satisfied_of_ne_range hr]
  refine ⟨fun h => ?_, fun h x q _ => by rw [← h]⟩
  have hdecimal : ∀ d : Decimal, t.operator.cmp.Rel d.toRat (bound t.value) ↔
      t.operator.cmp.Rel d.toRat (bound t.value * scale) := fun d => h (.float d) _ rfl
  cases ho : t.operator <;> simp only [ho, ComparisonOperator.cmp, CmpOp.Rel] at hdecimal h
  · exact Decimal.eq_of_le_iff hdecimal
  · exact Decimal.eq_of_lt_iff hdecimal
  · exact Decimal.eq_of_lt_iff fun d => by
      have := not_congr (hdecimal d)
      rwa [not_le, not_le] at this
  · exact Decimal.eq_of_le_iff fun d => by
      have := not_congr (hdecimal d)
      rwa [not_lt, not_lt] at this
  · obtain ⟨x, hx⟩ := exists_num_bound t.value
    exact (h x _ hx).1 rfl
  · exact absurd ho hr

/-- Two bounds. -/
theorem range_div_iff {v w scale : Rat} (hs : 0 < scale) {x y : Json} (hx : x.num? = some v)
    (hy : y.num? = some w) :
    (∀ (z : Json) q, z.num? = some q → (v ≤ q ∧ q ≤ w ↔ v ≤ q / scale ∧ q / scale ≤ w)) ↔
      (v = v * scale ∧ w = w * scale) ∨ w < v := by
  simp only [le_div_iff₀ hs, div_le_iff₀ hs]
  constructor
  · intro h
    by_cases hempty : w < v
    · exact .inr hempty
    · left
      have hle : v ≤ w := not_lt.1 hempty
      obtain ⟨hv, hvw⟩ := (h x v hx).1 ⟨le_rfl, hle⟩
      obtain ⟨-, hw⟩ := (h y w hy).1 ⟨hle, le_rfl⟩
      have hlow : v = v * scale := by
        refine le_antisymm ?_ hv
        by_contra hlt
        obtain ⟨d, hd, hd'⟩ := Decimal.exists_between (not_le.1 hlt)
        have hin := (h (.float d) _ rfl).2 ⟨hd.le, hd'.le.trans hvw⟩
        exact absurd hin.1 (not_le.2 hd')
      refine ⟨hlow, le_antisymm hw ?_⟩
      by_contra hlt
      obtain ⟨d, hd, hd'⟩ := Decimal.exists_between (not_le.1 hlt)
      have hin := (h (.float d) _ rfl).2 ⟨hlow ▸ hle.trans hd.le, hd'.le⟩
      exact absurd hin.2 (not_le.2 hd)
  · rintro (⟨hv, hw⟩ | hempty) z q -
    · rw [← hv, ← hw]
    · have hscaled : w * scale < v * scale := mul_lt_mul_of_pos_right hempty hs
      exact iff_of_false (fun h => absurd (h.1.trans h.2) (not_le.2 hempty))
        fun h => absurd (h.1.trans h.2) (not_le.2 hscaled)

/-- The threshold of a unit of this size is the threshold as it stands. -/
theorem satisfied_scaled_iff {t : NumericalThreshold} {scale : Rat} (hs : 0 < scale) (ht : Accepted t) :
    (∀ (x : Json) q, x.num? = some q → (t.Satisfied q ↔ t.Satisfied (q / scale))) ↔
      Unscaled t scale := by
  unfold Unscaled
  by_cases hr : t.operator = .range
  · obtain ⟨u, hu⟩ := Option.ne_none_iff_exists'.1 (ht.upper hr)
    have hsat : ∀ q, t.Satisfied q ↔ bound t.value ≤ q ∧ q ≤ bound u := by
      intro q
      simp [NumericalThreshold.Satisfied, hr, hu]
    simp only [hsat, range_div_iff hs (num_regoScalar t.value) (num_regoScalar u), hr, hu,
      Option.mem_some_iff, forall_eq', exists_eq_left', true_and, mul_eq_self_iff]
    constructor
    · rintro (⟨hv | hv, hu | hu⟩ | hempty)
      · exact .inl hv
      · exact .inl hv
      · exact .inl hu
      · exact .inr (.inl ⟨hv, hu⟩)
      · exact .inr (.inr hempty)
    · rintro (hone | hzero | hempty)
      · exact .inl ⟨.inl hone, .inl hone⟩
      · exact .inl ⟨.inr hzero.1, .inr hzero.2⟩
      · exact .inr hempty
  · have hnone : t.valueUpper = none := by
      by_contra hupper
      exact hr (t.upperRequiresRange hupper)
    rw [satisfied_div_iff hs hr, mul_eq_self_iff]
    simp [hr, hnone]

/-- **The emitted comparison reads a threshold in its own unit exactly when** that is the unit of the fact,
or the size of the unit does not matter. -/
theorem units_respected_iff (rule : ExtractedComplianceRule) (p : RegoParts) (ruleVersion : Int) (i : Nat)
    (c : NumericalThreshold × List Literal) (f : CanonicalFact) (hp : regoParts rule = .ok p)
    (hc : p.conditions[i]? = some c) (hfield : thresholdField c.1 = .ok f.identifier)
    (hf : f ∈ canonicalFacts) (hfixed : (unitScales.lookup f.identifier).isSome)
    (hunit : strip c.1.unit ≠ "") (hadmitted : f.wrongUnit (some c.1.unit) = false) :
    ∃ scale, unitScale f.identifier c.1.unit = some scale ∧
      (UnitsRespected (regoModule rule ruleVersion p) i c.1 f.identifier scale ↔ Unscaled c.1 scale) := by
  obtain ⟨scale, hscale, hpos⟩ := exists_unitScale hf hfixed hunit hadmitted
  refine ⟨scale, hscale, ?_⟩
  have hrespected : UnitsRespected (regoModule rule ruleVersion p) i c.1 f.identifier scale ↔
      ∀ (x : Json) q, x.num? = some q → (c.1.Satisfied q ↔ c.1.Satisfied (q / scale)) := by
    constructor
    · intro h x q hx
      rw [← h (fun format _ => format) x q hx, query_cond hp ruleVersion hc hfield _ hx]
    · intro h sprintf x q hx
      rw [query_cond hp ruleVersion hc hfield sprintf hx]
      exact h x q hx
  obtain ⟨-, haccepted⟩ := exists_regoParts_iff.1 ⟨p, hp⟩
  rw [hrespected]
  exact satisfied_scaled_iff hpos (haccepted _ ((partsOf hp).condition c (List.mem_of_getElem? hc)).1)

/-- A net worth of at least this value in this unit. -/
def minimumNetWorth (value : Decimal) (unit : String) : NumericalThreshold where
  metric := "net worth"
  canonicalFact := some "net_worth_inr_crore"
  operator := .gte
  value := value
  unit := unit

def minimumNetWorthRule (value : Decimal) (unit : String) : ExtractedComplianceRule where
  ruleId := "RULE-9"
  sourceSha256 := "a5"
  circularNumber := some "SEBI/HO/9"
  clauseNumber := some "9.1"
  deterministicLogic := [minimumNetWorth value unit]
  obligationType := .mandatory
  canonicalFactsDigest := some "f9"

/-- What the condition of such a rule is. -/
def minimumNetWorthCondition (value : Decimal) (unit : String) : NumericalThreshold × List Literal :=
  (minimumNetWorth value unit,
    [.cmp .ge (factTerm "net_worth_inr_crore") (.lit (regoScalar value))])

def netWorthFact : CanonicalFact := canonicalFacts[5]

theorem netWorthFact_mem : netWorthFact ∈ canonicalFacts := List.getElem_mem _

/-- 5 crore. -/
theorem units_respected_crore : ∃ p, regoParts (minimumNetWorthRule ⟨5, 0, by decide⟩ "Crore") = .ok p ∧
    UnitsRespected (regoModule (minimumNetWorthRule ⟨5, 0, by decide⟩ "Crore") 1 p) 0
      (minimumNetWorth ⟨5, 0, by decide⟩ "Crore") "net_worth_inr_crore" 1 := by
  have hp := eq_ok_get
    (show (regoParts (minimumNetWorthRule ⟨5, 0, by decide⟩ "Crore")).toOption.isSome = true from rfl)
  obtain ⟨scale, hscale, hiff⟩ := units_respected_iff _ _ 1 0
    (minimumNetWorthCondition ⟨5, 0, by decide⟩ "Crore") netWorthFact hp rfl rfl netWorthFact_mem
    (by decide +kernel) (by decide +kernel) (by decide +kernel)
  have hone : unitScale "net_worth_inr_crore" "Crore" = some 1 := by decide +kernel
  obtain rfl : scale = 1 := Option.some.inj (hscale.symm.trans hone)
  exact ⟨_, hp, hiff.2 (.inl rfl)⟩

/-- **500 lakh** are 5 crore; the module asks for 500 crore. -/
theorem not_forall_units_respected : ¬ ∀ (rule : ExtractedComplianceRule) (p : RegoParts)
    (ruleVersion : Int) (i : Nat) (c : NumericalThreshold × List Literal) (f : CanonicalFact)
    (scale : Rat), regoParts rule = .ok p → p.conditions[i]? = some c →
    thresholdField c.1 = .ok f.identifier → f ∈ canonicalFacts →
    f.wrongUnit (some c.1.unit) = false → unitScale f.identifier c.1.unit = some scale →
      UnitsRespected (regoModule rule ruleVersion p) i c.1 f.identifier scale := by
  intro h
  have hp := eq_ok_get
    (show (regoParts (minimumNetWorthRule ⟨5, 2, by decide⟩ "lakh")).toOption.isSome = true from rfl)
  have hscale : unitScale "net_worth_inr_crore" "lakh" = some (1 / 100) := by decide +kernel
  have hcondition : (((regoParts (minimumNetWorthRule ⟨5, 2, by decide⟩ "lakh")).toOption.get
      rfl).conditions)[0]? = some (minimumNetWorthCondition ⟨5, 2, by decide⟩ "lakh") := rfl
  have hfield : thresholdField (minimumNetWorthCondition ⟨5, 2, by decide⟩ "lakh").1 =
      .ok netWorthFact.identifier := rfl
  have hrespected := h _ _ 1 0 _ netWorthFact (1 / 100) hp hcondition hfield netWorthFact_mem
    (by decide +kernel) hscale (fun format _ => format) (.int 5) 5 rfl
  have hquery := query_cond hp 1 hcondition hfield (fun format _ => format)
    (show (Json.int 5).num? = some 5 from rfl)
  have hemitted : ¬ bound ⟨5, 2, by decide⟩ ≤ 5 := by decide +kernel
  have hmeant : bound ⟨5, 2, by decide⟩ ≤ 5 / (1 / 100) := by decide +kernel
  exact hemitted (hquery.1 (hrespected.2 hmeant))

end RegEngine.Compiler
