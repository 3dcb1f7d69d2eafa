import RegEngine.Compiler.Proof.JsonLogic
import RegEngine.Compiler.Proof.Lexical
import RegEngine.Hitl.Pipeline

/-!
# What the gate lets through

`compile_audited_rule` checks the verdict, the confidence and the facts of a rule. It does not look at
the characters of its texts, and an entity that is not in the taxonomy is only advised about.

* `compileAuditedRule_rego`: a policy it compiles is the module of the rule.
* `compiled_policy_read_iff`: that module is read as it is meant exactly when the texts of the rule
  stay where they are put.
-/

namespace RegEngine.Hitl

open Lib Lib.Calendar Lib.Lexer Lib.Except Compiler

theorem mapError_ok_iff {ε ε' α : Type} {f : ε → ε'} {x : Except ε α} {a : α} :
    x.mapError f = .ok a ↔ x = .ok a := by
  cases x <;> simp [Except.mapError]

/-- What a compiled policy went through. -/
theorem compileAuditedRule_rego {a : AuditedComplianceRule} {ruleVersion : Int} {now : DateTime}
    {uuids : Nat → String} {result : CompilationResult} {rego : CompiledRego}
    (h : compileAuditedRule a ruleVersion now uuids = .ok result) (hr : result.rego = some rego) :
    compileRuleToRego a.rule ruleVersion now = .ok rego := by
  unfold compileAuditedRule at h
  dsimp only at h
  split at h
  · cases h
    cases hr
  · obtain ⟨c, hc, h⟩ := bind_ok_iff.1 h
    obtain ⟨jsonLogic, -, h⟩ := bind_ok_iff.1 h
    obtain ⟨-, -, h⟩ := bind_ok_iff.1 h
    cases h
    cases hr
    exact mapError_ok_iff.1 hc

/-- The text is that of the rule's module, and a lexer takes each of its characters for what it is
meant as: the rule heads and bodies for code, and every text of the rule for a part of the package
path, of one comment or of one string literal. -/
def ReadAsMeant (rule : ExtractedComplianceRule) (ruleVersion : Int) (now : DateTime)
    (regoCode : String) : Prop :=
  ∃ p, regoParts rule = .ok p ∧
    render (modulePieces rule ruleVersion now p) = regoCode.toList ∧
    regions .code regoCode.toList = intended (modulePieces rule ruleVersion now p)

theorem readAsMeant_iff {rule : ExtractedComplianceRule} {ruleVersion : Int} {now : DateTime}
    {rego : CompiledRego} (h : compileRuleToRego rule ruleVersion now = .ok rego) :
    ReadAsMeant rule ruleVersion now rego.regoCode ↔ SafeTexts rule := by
  obtain ⟨p, hp, rfl⟩ := map_ok_iff.1 h
  rw [← regoCode_read_iff hp ruleVersion now]
  constructor
  · rintro ⟨p', hp', -, hread⟩
    obtain rfl : p = p' := Except.ok.inj (hp.symm.trans hp')
    exact hread
  · intro hread
    exact ⟨p, hp, render_modulePieces, hread⟩

/-- **A policy that the pipeline compiles is read as it is meant exactly when** no text of the rule
ends the comment or the string literal it is put in, and the domain is made of word characters. -/
theorem compiled_policy_read_iff (a : AuditedComplianceRule) (ruleVersion : Int) (now : DateTime)
    (uuids : Nat → String) (result : CompilationResult) (rego : CompiledRego)
    (h : compileAuditedRule a ruleVersion now uuids = .ok result) (hr : result.rego = some rego) :
    ReadAsMeant a.rule ruleVersion now rego.regoCode ↔ SafeTexts a.rule :=
  readAsMeant_iff (compileAuditedRule_rego h hr)

/-- An approved rule on the upfront margin for one kind of entity, which is not in the taxonomy. -/
def approvedRule (entity : String) : AuditedComplianceRule where
  rule :=
    { ruleId := "RULE-7"
      sourceSha256 := "b2"
      circularNumber := some "SEBI/HO/7"
      clauseNumber := some "7.1"
      targetEntities := [{ rawText := entity }]
      deterministicLogic :=
        [{ metric := "upfront_margin_pct"
           canonicalFact := some "upfront_margin_pct"
           operator := .lt
           value := ⟨25, 0, by decide⟩
           unit := "%" }]
      obligationType := .mandatory
      canonicalFactsDigest := some "f7" }
  entityEvidence := [entity]
  thresholdEvidence := ["25 %"]
  extractionConfidence := { value := ⟨9, -1, by decide⟩ }
  verdict := .approved
  fidelityScore := { value := ⟨95, -2, by decide⟩ }

/-- Whatever the entity is called, the rule has an advisory flag only. -/
theorem approvedRule_flags (entity : String) (uuids : Nat → String) :
    hasBlockingFlags (collectHitlFlags (approvedRule entity) uuids) = false := by
  have hconfidence : flagLowConfidence (approvedRule entity) = [] :=
    if_pos (by
      show lowConfidenceThreshold.toRat ≤ Decimal.toRat ⟨9, -1, _⟩
      decide)
  have hfact : resolveCanonicalFact "upfront_margin_pct" (some "%") (some ⟨25, 0, by decide⟩) none =
      { status := .valid, canonicalIdentifier := some "upfront_margin_pct" } := by decide +kernel
  have hfacts : flagUnmappedOrInvalidFacts (approvedRule entity) = [] := by
    simp [flagUnmappedOrInvalidFacts, approvedRule, invalidFact, hfact]
  have hconflicts : flagConflictingThresholds (approvedRule entity) = [] := by
    simp [flagConflictingThresholds, approvedRule, firstKeys]
  rw [collectHitlFlags, hconfidence, hfacts, hconflicts]
  rfl

/-- A rule without a blocking flag that both compilers accept is compiled. -/
theorem compileAuditedRule_ok {a : AuditedComplianceRule} {ruleVersion : Int} {now : DateTime}
    {uuids : Nat → String} {rego : CompiledRego} {jl : JsonLogicRule}
    (hflags : hasBlockingFlags (collectHitlFlags a uuids) = false)
    (hrego : compileRuleToRego a.rule ruleVersion now = .ok rego)
    (hjl : compileRuleToJsonlogic a.rule = .ok jl) :
    ∃ result, compileAuditedRule a ruleVersion now uuids = .ok result ∧
      result.rego = some rego := by
  obtain ⟨-, -, hlogic, -⟩ := compileRuleToJsonlogic_logic hjl
  refine ⟨
    { compiled := true
      rego := some rego
      jsonLogic := some jl.logic
      hitlFlags := collectHitlFlags a uuids }, ?_, rfl⟩
  unfold compileAuditedRule
  rw [if_neg (by simp [hflags, hlogic])]
  refine bind_ok_iff.2 ⟨rego, mapError_ok_iff.2 hrego, ?_⟩
  refine bind_ok_iff.2 ⟨jl, mapError_ok_iff.2 hjl, ?_⟩
  exact bind_ok_iff.2 ⟨(), mapError_ok_iff.2 (validateJsonLogicAst_compiled hjl "$"), rfl⟩

theorem approvedRule_compiles (entity : String) (now : DateTime) (uuids : Nat → String) :
    ∃ result rego, compileAuditedRule (approvedRule entity) 1 now uuids = .ok result ∧
      result.rego = some rego := by
  obtain ⟨rego, hrego⟩ := exists_compiled
    (show (regoParts (approvedRule entity).rule).toOption.isSome = true from rfl) 1 now
  have hjl := eq_ok_get
    (show (compileRuleToJsonlogic (approvedRule entity).rule).toOption.isSome = true from rfl)
  obtain ⟨result, hok, hresult⟩ := compileAuditedRule_ok (approvedRule_flags entity uuids) hrego hjl
  exact ⟨result, rego, hok, hresult⟩

/-- An entity name of plain letters. -/
theorem plain_entity_read : ∃ result rego,
    compileAuditedRule (approvedRule "Broker") 1 (.ofInstant 7 (by decide)) toString = .ok result ∧
      result.rego = some rego ∧
      ReadAsMeant (approvedRule "Broker").rule 1 (.ofInstant 7 (by decide)) rego.regoCode := by
  obtain ⟨result, rego, hok, hrego⟩ := approvedRule_compiles "Broker" (.ofInstant 7 (by decide)) toString
  have hsafe : SafeTexts (approvedRule "Broker").rule := by
    refine ⟨List.all_eq_true.1 ?_, ?_, ?_⟩
    · decide +kernel
    · decide +kernel
    · exact (by decide +kernel : ∀ s ∈ literalTexts (approvedRule "Broker").rule, Closed s.toList)
  exact ⟨result, rego, hok, hrego,
    (compiled_policy_read_iff _ _ _ _ result rego hok hrego).2 hsafe⟩

/-- **An entity name can end its literal**: the rest of it is read as code, here a rule that makes
`allow` true. -/
theorem injected_entity_not_read : ∃ result rego,
    compileAuditedRule (approvedRule "Broker\" \x7d\nallow := true\n#") 1 (.ofInstant 7 (by decide))
        toString = .ok result ∧
      result.rego = some rego ∧
      ¬ ReadAsMeant (approvedRule "Broker\" \x7d\nallow := true\n#").rule 1
        (.ofInstant 7 (by decide)) rego.regoCode := by
  obtain ⟨result, rego, hok, hrego⟩ :=
    approvedRule_compiles "Broker\" \x7d\nallow := true\n#" (.ofInstant 7 (by decide)) toString
  refine ⟨result, rego, hok, hrego, ?_⟩
  rw [readAsMeant_iff (compileAuditedRule_rego hok hrego)]
  intro hsafe
  have hmem : "Broker\" \x7d\nallow := true\n#" ∈
      literalTexts (approvedRule "Broker\" \x7d\nallow := true\n#").rule := by decide +kernel
  exact absurd (hsafe.literals _ hmem) (by decide)

end RegEngine.Hitl

/-!
## What the gate checks of the thresholds

Without a blocking flag every metric resolves to a canonical fact that admits its unit and values. The
generators read two things that no flag looks at: a canonical fact given beforehand, and the upper bound
of a range.

* `gate_total_iff`: when the gate returns.
* `fields_from_taxonomy_iff`: when the compiled policy tests the facts that the metrics resolve to.
-/

namespace RegEngine.Hitl

open Lib Lib.Python Lib.Calendar Lib.Rego Lib.Except Compiler

/-! ### Resolved facts -/

/-- The bounds of the fact admit the value. -/
def Admits (f : CanonicalFact) (value : Decimal) : Prop :=
  (∀ b ∈ f.minValue, b.toRat ≤ value.toRat) ∧ ∀ b ∈ f.maxValue, value.toRat ≤ b.toRat

theorem outOfRange_none {f : CanonicalFact} {what : String} {value : Option Decimal}
    (h : f.outOfRange what value = none) : ∀ v ∈ value, Admits f v := by
  rintro v rfl
  simp only [CanonicalFact.outOfRange, Option.bind_eq_bind, Option.bind_some, Option.or_eq_none_iff,
    Option.map_eq_none_iff, Option.filter_eq_none_iff, decide_eq_true_eq, not_lt] at h
  exact h

/-- The canonical fact that the threshold's metric, unit and values resolve to. -/
structure Resolves (t : NumericalThreshold) (f : CanonicalFact) : Prop where
  resolved : resolveCanonicalFact t.metric (some t.unit) (some t.value) t.valueUpper =
    { status := .valid, canonicalIdentifier := some f.identifier }
  value : Admits f t.value
  upper : ∀ u ∈ t.valueUpper, Admits f u
  field : metricFieldName t.metric t.unit = .ok f.identifier

theorem exists_resolves {t : NumericalThreshold}
    (h : (resolveCanonicalFact t.metric (some t.unit) (some t.value) t.valueUpper).status = .valid) :
    ∃ f, Resolves t f := by
  have hresolved := h
  unfold resolveCanonicalFact at h
  split at h
  · cases h
  · rename_i hmetric
    split at h
    · cases h
    · rename_i f hf
      split at h
      · cases h
      · rename_i hunit
        split at h
        · cases h
        · rename_i hbounds
          obtain ⟨hvalue, hupper⟩ := Option.or_eq_none_iff.1 hbounds
          refine ⟨f, ?_, outOfRange_none hvalue _ rfl, outOfRange_none hupper, ?_⟩
          · unfold resolveCanonicalFact
            rw [if_neg hmetric, hf]
            simp only [hunit, hbounds, Bool.false_eq_true, if_false]
          · unfold metricFieldName resolveCanonicalFact
            rw [if_neg hmetric, hf]
            simp only [hunit, Bool.false_eq_true, if_false]
            rfl

/-! ### Blocking flags -/

section
variable {a : AuditedComplianceRule} {uuids : Nat → String} {ruleVersion : Int} {now : DateTime}
  {result : CompilationResult}

/-- A flag blocks under any id. -/
theorem not_blocking_iff : hasBlockingFlags (collectHitlFlags a uuids) = false ↔
    ∀ f ∈ flagAuditNotApproved a ++ flagLowConfidence a ++ flagUnmappedOrInvalidFacts a ++
      flagConflictingThresholds a ++ flagNoDeterministicLogic a ++ flagQualitativeDirectives a ++
      flagAmbiguousSpans a ++ flagUnresolvedEntities a, f.severity ≠ .blocking := by
  unfold collectHitlFlags
  generalize flagAuditNotApproved a ++ flagLowConfidence a ++ flagUnmappedOrInvalidFacts a ++
    flagConflictingThresholds a ++ flagNoDeterministicLogic a ++ flagQualitativeDirectives a ++
    flagAmbiguousSpans a ++ flagUnresolvedEntities a = flags
  simp only [hasBlockingFlags, List.any_eq_false, List.mem_map, decide_eq_true_eq]
  constructor
  · intro h f hf
    obtain ⟨i, hi⟩ := List.mem_iff_getElem?.1 hf
    exact h { f with flagId := uuids i } ⟨(f, i), List.mem_zipIdx_iff_getElem?.2 hi, rfl⟩
  · rintro h _ ⟨c, hc, rfl⟩
    exact h c.1 (List.mem_of_getElem? (List.mem_zipIdx_iff_getElem?.1 hc))

/-- Whatever is wrong with a fact blocks. -/
theorem invalidFact_eq_none {t : NumericalThreshold} {evidence : String} {i : Nat}
    (h : ∀ f ∈ invalidFact t evidence i, f.severity ≠ .blocking) :
    (resolveCanonicalFact t.metric (some t.unit) (some t.value) t.valueUpper).status = .valid := by
  unfold invalidFact at h
  dsimp only at h
  split at h
  · exact absurd rfl (h _ rfl)
  · exact absurd rfl (h _ rfl)
  · exact absurd rfl (h _ rfl)
  · assumption

/-- Without a blocking flag every threshold resolves. -/
theorem resolves_of_not_blocking (h : hasBlockingFlags (collectHitlFlags a uuids) = false) :
    ∀ t ∈ a.rule.deterministicLogic, ∃ f, Resolves t f := by
  intro t ht
  have hflags := not_blocking_iff.1 h
  obtain ⟨i, hi⟩ := List.mem_iff_getElem?.1 ht
  have hlt : i < a.thresholdEvidence.length := by
    rw [a.thresholdEvidence_length]
    exact (List.getElem?_eq_some_iff.1 hi).1
  have hzip : (a.rule.deterministicLogic.zip a.thresholdEvidence)[i]? =
      some (t, a.thresholdEvidence[i]) :=
    List.getElem?_zip_eq_some.2 ⟨hi, List.getElem?_eq_getElem hlt⟩
  have hclean : ∀ f ∈ invalidFact t a.thresholdEvidence[i] i, f.severity ≠ .blocking := by
    intro f hf
    have hmem : f ∈ flagUnmappedOrInvalidFacts a :=
      List.mem_filterMap.2 ⟨((t, a.thresholdEvidence[i]), i), List.mem_zipIdx_iff_getElem?.2 hzip, hf⟩
    apply hflags f
    simp only [List.mem_append]
    exact .inl (.inl (.inl (.inl (.inl (.inr hmem)))))
  exact exists_resolves (invalidFact_eq_none hclean)

/-! ### What the gate returns -/

theorem compileAuditedRule_flagged
    (h : hasBlockingFlags (collectHitlFlags a uuids) = true ∨ a.rule.deterministicLogic = []) :
    compileAuditedRule a ruleVersion now uuids =
      .ok { compiled := false, hitlFlags := collectHitlFlags a uuids } := if_pos h

/-- A rule with thresholds and without a blocking flag is what the generators make of it. -/
theorem compileAuditedRule_ok_iff
    (hflags : hasBlockingFlags (collectHitlFlags a uuids) = false)
    (hlogic : a.rule.deterministicLogic ≠ []) :
    compileAuditedRule a ruleVersion now uuids = .ok result ↔
      ∃ rego jl, compileRuleToRego a.rule ruleVersion now = .ok rego ∧
        compileRuleToJsonlogic a.rule = .ok jl ∧
        result =
          { compiled := true
            rego := some rego
            jsonLogic := some jl.logic
            hitlFlags := collectHitlFlags a uuids } := by
  unfold compileAuditedRule
  rw [if_neg (by simp [hflags, hlogic])]
  constructor
  · intro h
    obtain ⟨rego, hrego, h⟩ := bind_ok_iff.1 h
    obtain ⟨jl, hjl, h⟩ := bind_ok_iff.1 h
    obtain ⟨-, -, h⟩ := bind_ok_iff.1 h
    exact ⟨rego, jl, mapError_ok_iff.1 hrego, mapError_ok_iff.1 hjl, (Except.ok.inj h).symm⟩
  · rintro ⟨rego, jl, hrego, hjl, rfl⟩
    refine bind_ok_iff.2 ⟨rego, mapError_ok_iff.2 hrego, ?_⟩
    refine bind_ok_iff.2 ⟨jl, mapError_ok_iff.2 hjl, ?_⟩
    exact bind_ok_iff.2 ⟨(), mapError_ok_iff.2 (validateJsonLogicAst_compiled hjl "$"), rfl⟩

/-- What a compiled rule went through. -/
theorem of_compiled (h : compileAuditedRule a ruleVersion now uuids = .ok result)
    (hcompiled : result.compiled = true) :
    hasBlockingFlags (collectHitlFlags a uuids) = false ∧ a.rule.deterministicLogic ≠ [] := by
  by_cases hflags : hasBlockingFlags (collectHitlFlags a uuids) = true ∨
      a.rule.deterministicLogic = []
  · rw [compileAuditedRule_flagged hflags] at h
    cases h
    cases hcompiled
  · obtain ⟨hflags, hlogic⟩ := not_or.1 hflags
    exact ⟨by simpa using hflags, hlogic⟩

end

/-! ### Totality -/

/-- The gate returns; it compiles exactly the rules with thresholds and without a blocking flag, to both
forms. -/
def GateTotal (a : AuditedComplianceRule) (ruleVersion : Int) (now : DateTime) (uuids : Nat → String) :
    Prop :=
  ∃ result, compileAuditedRule a ruleVersion now uuids = .ok result ∧
    (result.compiled = true ↔
      a.rule.deterministicLogic ≠ [] ∧ hasBlockingFlags result.hitlFlags = false) ∧
    (result.compiled = true → result.rego.isSome ∧ result.jsonLogic.isSome)

/-- A threshold that the generators can take: a range with both bounds, and a canonical fact given
beforehand that is in the table. -/
structure WellGiven (t : NumericalThreshold) : Prop where
  upper : t.operator = .range → t.valueUpper ≠ none
  fact : ∀ fact ∈ t.canonicalFact, fact ≠ "" → (getCanonicalFact fact).isSome

/-- A threshold that resolves is accepted exactly when it is well given. -/
theorem Resolves.accepted_iff {t : NumericalThreshold} {f : CanonicalFact} (h : Resolves t f) :
    Accepted t ↔ WellGiven t := by
  have hfield : (∃ field, thresholdField t = .ok field) ↔
      ∀ fact ∈ t.canonicalFact, fact ≠ "" → (getCanonicalFact fact).isSome := by
    unfold thresholdField
    cases hfact : t.canonicalFact with
    | none => simp [h.field]
    | some fact =>
      by_cases hempty : fact = ""
      · simp [hempty, h.field]
      · cases hknown : getCanonicalFact fact <;> simp [hempty, hknown]
  rw [Compiler.accepted_iff, hfield]
  exact ⟨fun h => ⟨h.2, h.1⟩, fun h => ⟨h.fact, h.upper⟩⟩

/-- **The gate is total exactly on** rules that it flags, and on rules whose ranges have an upper bound
and whose given facts are in the table. -/
theorem gate_total_iff (a : AuditedComplianceRule) (ruleVersion : Int) (now : DateTime)
    (uuids : Nat → String) :
    GateTotal a ruleVersion now uuids ↔
      hasBlockingFlags (collectHitlFlags a uuids) = true ∨ a.rule.deterministicLogic = [] ∨
        ∀ t ∈ a.rule.deterministicLogic, WellGiven t := by
  by_cases hflagged : hasBlockingFlags (collectHitlFlags a uuids) = true ∨
      a.rule.deterministicLogic = []
  · refine iff_of_true ⟨_, compileAuditedRule_flagged hflagged, ?_, nofun⟩ ?_
    · refine iff_of_false nofun fun h => ?_
      rcases hflagged with hflags | hlogic
      · exact absurd h.2 (by simp [hflags])
      · exact h.1 hlogic
    · exact hflagged.imp_right .inl
  · obtain ⟨hflags, hlogic⟩ := not_or.1 hflagged
    have hflags' : hasBlockingFlags (collectHitlFlags a uuids) = false := by simpa using hflags
    rw [or_iff_right hflags, or_iff_right hlogic]
    have haccepted : (∀ t ∈ a.rule.deterministicLogic, Accepted t) ↔
        ∀ t ∈ a.rule.deterministicLogic, WellGiven t := by
      refine forall₂_congr fun t ht => ?_
      obtain ⟨f, hf⟩ := resolves_of_not_blocking hflags' t ht
      exact hf.accepted_iff
    rw [← haccepted]
    constructor
    · rintro ⟨result, hresult, -⟩
      obtain ⟨rego, -, hrego, -⟩ := (compileAuditedRule_ok_iff hflags' hlogic).1 hresult
      obtain ⟨p, hp, -⟩ := map_ok_iff.1 hrego
      exact (exists_regoParts_iff.1 ⟨p, hp⟩).2
    · intro hall
      obtain ⟨p, hp⟩ := exists_regoParts_iff.2 ⟨hlogic, hall⟩
      obtain ⟨jl, hjl⟩ := exists_compileRuleToJsonlogic hlogic hall
      refine ⟨_, (compileAuditedRule_ok_iff hflags' hlogic).2
        ⟨_, jl, map_ok_iff.2 ⟨p, hp, rfl⟩, hjl, rfl⟩, ?_, ?_⟩
      · exact iff_of_true rfl ⟨hlogic, hflags'⟩
      · exact fun _ => ⟨rfl, rfl⟩

/-- An approved rule with these thresholds. -/
def approvedThresholds (thresholds : List NumericalThreshold) : AuditedComplianceRule where
  rule :=
    { ruleId := "RULE-8"
      sourceSha256 := "c4"
      circularNumber := some "SEBI/HO/8"
      clauseNumber := some "8.1"
      deterministicLogic := thresholds
      obligationType := .mandatory
      canonicalFactsDigest := some "e8" }
  entityEvidence := []
  thresholdEvidence := thresholds.map fun _ => "as quoted"
  extractionConfidence := { value := ⟨9, -1, by decide⟩ }
  verdict := .approved
  fidelityScore := { value := ⟨95, -2, by decide⟩ }
  thresholdEvidence_length := List.length_map _

def five : Decimal := ⟨5, 0, Decimal.shortest_five⟩

/-- A range of net worths from 5 crore on, without an upper bound. -/
def openRange : AuditedComplianceRule :=
  approvedThresholds
    [{ metric := "net worth"
       canonicalFact := some "net_worth_inr_crore"
       operator := .range
       value := five
       unit := "crore" }]

/-- **A range without an upper bound** has no flag, and the gate raises. -/
theorem not_forall_gate_total : ¬ ∀ a ruleVersion now uuids, GateTotal a ruleVersion now uuids := by
  intro h
  obtain ⟨result, hresult, -⟩ := h openRange 1 (.ofInstant 7 (by decide)) toString
  have herror : (compileAuditedRule openRange 1 (.ofInstant 7 (by decide)) toString).toOption.isSome =
      false := by decide +kernel
  rw [hresult] at herror
  cases herror

/-! ### The tested facts -/

/-- The literals of a body all compare the fact of this field with a bound. -/
def TestsField (field : String) (body : List Literal) : Prop :=
  body ≠ [] ∧ ∀ l ∈ body, ∃ op d, l = .cmp op (factTerm field) (.lit (regoScalar d))

/-- A comparison of the value at a path with a bound. -/
def ComparesPath (path : String) (clause : Json) : Prop :=
  ∃ operator d, clause = node operator (.arr [varNode path, .float d])

/-- One comparison, or two of them. -/
def TestsPath (path : String) (clause : Json) : Prop :=
  ComparesPath path clause ∨
    ∃ low high, ComparesPath path low ∧ ComparesPath path high ∧ clause = node "and" (.arr [low, high])

theorem passCondition_tests {t : NumericalThreshold} {body : List Literal}
    (h : passCondition t = .ok body) : ∃ f, thresholdField t = .ok f ∧ TestsField f body := by
  obtain ⟨f, hf, h⟩ := bind_ok_iff.1 h
  refine ⟨f, hf, ?_⟩
  split at h
  · obtain ⟨u, -, h⟩ := bind_ok_iff.1 h
    cases h
    refine ⟨List.cons_ne_nil _ _, fun l hl => ?_⟩
    simp only [List.mem_cons, List.not_mem_nil, or_false] at hl
    rcases hl with rfl | rfl
    · exact ⟨_, t.value, rfl⟩
    · exact ⟨_, u, rfl⟩
  · cases h
    refine ⟨List.cons_ne_nil _ _, fun l hl => ?_⟩
    rw [List.mem_singleton.1 hl]
    exact ⟨_, t.value, rfl⟩

/-- A body tests one field. -/
theorem TestsField.unique {f f' : String} {body : List Literal} (h : TestsField f body)
    (h' : TestsField f' body) : f = f' := by
  obtain ⟨l, hl⟩ := List.exists_mem_of_ne_nil _ h.1
  obtain ⟨op, d, rfl⟩ := h.2 l hl
  obtain ⟨op', d', heq⟩ := h'.2 _ hl
  simp only [Literal.cmp.injEq, factTerm, Term.input.injEq, List.cons.injEq, and_true, true_and] at heq
  exact heq.2.1

theorem thresholdToLogic_tests {t : NumericalThreshold} {clause : Json}
    (h : thresholdToLogic t = .ok clause) :
    ∃ path, thresholdVarPath t = .ok path ∧ TestsPath path clause := by
  obtain ⟨path, hpath, h⟩ := bind_ok_iff.1 h
  refine ⟨path, hpath, ?_⟩
  split at h
  · obtain ⟨u, -, h⟩ := bind_ok_iff.1 h
    cases h
    exact .inr ⟨_, _, ⟨">=", t.value, rfl⟩, ⟨"<=", u, rfl⟩, rfl⟩
  · cases h
    exact .inl ⟨t.operator.value, t.value, rfl⟩

theorem violationClauses_tests {t : NumericalThreshold} {clause f : String}
    {vs : List (Literal × Term)} (h : violationClauses t clause = .ok vs)
    (hf : thresholdField t = .ok f) : TestsField f (vs.map (·.1)) := by
  obtain ⟨f', hf', hcovers⟩ := violationClauses_covers h
  obtain rfl : f = f' := Except.ok.inj (hf.symm.trans hf')
  refine ⟨by simpa using violationClauses_ne_nil h, fun l hl => ?_⟩
  obtain ⟨v, hv, rfl⟩ := List.mem_map.1 hl
  obtain ⟨op, d, hclause⟩ := hcovers.1 v hv
  exact ⟨op, d, hclause.cond⟩

/-- Where the condition and the violations of a module and the clause of the tree test the canonical fact
that the threshold resolves to, and the fact's bounds admit its values. -/
def TestsResolved (p : RegoParts) (clauses : List Json) (rule : ExtractedComplianceRule)
    (t : NumericalThreshold) : Prop :=
  ∃ f, Resolves t f ∧
    (∃ c ∈ p.conditions, c.1 = t ∧ TestsField f.identifier c.2) ∧
    (∃ vs, violationClauses t p.clause = .ok vs ∧ (∀ v ∈ vs, v ∈ p.violations) ∧
      TestsField f.identifier (vs.map (·.1))) ∧
    ∃ c ∈ rule.deterministicLogic.zip clauses, c.1 = t ∧ TestsPath ("facts." ++ f.identifier) c.2

/-- The compiled forms are the module of the rule and its tree, and test the resolved fact of every
threshold. -/
def FieldsFromTaxonomy (rule : ExtractedComplianceRule) (ruleVersion : Int) (now : DateTime)
    (result : CompilationResult) : Prop :=
  ∃ p clauses, regoParts rule = .ok p ∧ rule.deterministicLogic.mapM thresholdToLogic = .ok clauses ∧
    result.rego = some (compiledRego rule ruleVersion now p) ∧
    result.jsonLogic = some (conjunction ((entityLogic rule).toList ++ clauses)) ∧
    ∀ t ∈ rule.deterministicLogic, TestsResolved p clauses rule t

/-- No canonical fact was given beforehand, or the one that the threshold resolves to. -/
def GivenFactResolved (t : NumericalThreshold) : Prop :=
  orText t.canonicalFact "" = "" ∨ t.canonicalFact =
    (resolveCanonicalFact t.metric (some t.unit) (some t.value) t.valueUpper).canonicalIdentifier

/-- The field of an accepted threshold is the resolved one exactly when a given fact is. -/
theorem Resolves.field_iff {t : NumericalThreshold} {f : CanonicalFact} {field : String}
    (h : Resolves t f) (hfield : thresholdField t = .ok field) :
    field = f.identifier ↔ GivenFactResolved t := by
  unfold GivenFactResolved
  rw [h.resolved]
  unfold thresholdField at hfield
  cases hfact : t.canonicalFact with
  | none =>
    rw [hfact, Option.getD_none, if_pos rfl, h.field] at hfield
    exact iff_of_true (Except.ok.inj hfield).symm (.inl rfl)
  | some fact =>
    rw [hfact, Option.getD_some] at hfield
    by_cases hempty : fact = ""
    · rw [if_pos hempty, h.field] at hfield
      exact iff_of_true (Except.ok.inj hfield).symm (.inl (by simp [orText, hempty]))
    · rw [if_neg hempty] at hfield
      split at hfield
      · cases hfield
      · obtain rfl := Except.ok.inj hfield
        simp [orText, hempty]

/-- The two generators take the same field. -/
theorem thresholdVarPath_of_thresholdField {t : NumericalThreshold} {f : String}
    (h : thresholdField t = .ok f) : thresholdVarPath t = .ok ("facts." ++ f) := by
  unfold thresholdField at h
  unfold thresholdVarPath
  dsimp only at h ⊢
  split
  · rename_i hnone
    rw [if_pos hnone] at h
    exact map_ok_iff.2 ⟨f, h, rfl⟩
  · rename_i hsome
    rw [if_neg hsome] at h
    split at h
    · cases h
    · rw [Except.ok.inj h]

/-- **A compiled policy tests the facts that the metrics resolve to exactly when** no threshold came with
another canonical fact. -/
theorem fields_from_taxonomy_iff (a : AuditedComplianceRule) (ruleVersion : Int) (now : DateTime)
    (uuids : Nat → String) (result : CompilationResult)
    (h : compileAuditedRule a ruleVersion now uuids = .ok result) (hcompiled : result.compiled = true) :
    FieldsFromTaxonomy a.rule ruleVersion now result ↔
      ∀ t ∈ a.rule.deterministicLogic, GivenFactResolved t := by
  obtain ⟨hflags, hlogic⟩ := of_compiled h hcompiled
  obtain ⟨rego, jl, hrego, hjl, rfl⟩ := (compileAuditedRule_ok_iff hflags hlogic).1 h
  obtain ⟨p, hp, rfl⟩ := map_ok_iff.1 hrego
  obtain ⟨clauses, hclauses, -, htree⟩ := compileRuleToJsonlogic_logic hjl
  constructor
  · rintro ⟨p', clauses', hp', -, -, -, htests⟩ t ht
    obtain ⟨f, hf, ⟨c, hc, rfl, hcond⟩, -⟩ := htests t ht
    obtain ⟨field, hfield, hbody⟩ := passCondition_tests ((partsOf hp').condition c hc).2
    exact (hf.field_iff hfield).1 (hbody.unique hcond)
  · intro hgiven
    refine ⟨p, clauses, hp, hclauses, rfl, congrArg some htree, fun t ht => ?_⟩
    obtain ⟨f, hf⟩ := resolves_of_not_blocking hflags t ht
    obtain ⟨field, hfield⟩ := ((exists_regoParts_iff.1 ⟨p, hp⟩).2 t ht).field
    obtain rfl := (hf.field_iff hfield).2 (hgiven t ht)
    refine ⟨f, hf, ?_, ?_, ?_⟩
    · obtain ⟨c, hc, rfl⟩ := (partsOf hp).conditions t ht
      obtain ⟨field, hfield', hbody⟩ := passCondition_tests ((partsOf hp).condition c hc).2
      obtain rfl := Except.ok.inj (hfield.symm.trans hfield')
      exact ⟨c, hc, rfl, hbody⟩
    · obtain ⟨vs, hvs, hmem⟩ := (partsOf hp).violations t ht
      exact ⟨vs, hvs, hmem, violationClauses_tests hvs hfield⟩
    · obtain ⟨c, hc, rfl⟩ := exists_zip_left hclauses ht
      obtain ⟨path, hpath, hclause⟩ := thresholdToLogic_tests ((zip_mapM_ok hclauses).1 c hc)
      obtain rfl := Except.ok.inj ((thresholdVarPath_of_thresholdField hfield).symm.trans hpath)
      exact ⟨c, hc, rfl, hclause⟩

/-- A net worth of at least 5 crore, with this canonical fact given beforehand. -/
def netWorthAs (fact : String) : AuditedComplianceRule :=
  approvedThresholds
    [{ metric := "net worth"
       canonicalFact := some fact
       operator := .gte
       value := five
       unit := "crore"
       upperRequiresRange := no_valueUpper }]

/-- A rule that the gate compiles. -/
theorem exists_compiled_result (a : AuditedComplianceRule) (ruleVersion : Int) (now : DateTime)
    (uuids : Nat → String)
    (h : ((compileAuditedRule a ruleVersion now uuids).toOption.map (·.compiled)) = some true) :
    ∃ result, compileAuditedRule a ruleVersion now uuids = .ok result ∧ result.compiled = true := by
  cases hresult : compileAuditedRule a ruleVersion now uuids with
  | error e =>
    rw [hresult] at h
    cases h
  | ok result =>
    rw [hresult] at h
    exact ⟨result, rfl, Option.some.inj h⟩

/-- The canonical fact of the net worth. -/
theorem net_worth_from_taxonomy : ∃ result,
    compileAuditedRule (netWorthAs "net_worth_inr_crore") 1 (.ofInstant 7 (by decide)) toString =
      .ok result ∧
    FieldsFromTaxonomy (netWorthAs "net_worth_inr_crore").rule 1 (.ofInstant 7 (by decide)) result := by
  obtain ⟨result, hresult, hcompiled⟩ := exists_compiled_result (netWorthAs "net_worth_inr_crore") 1
    (.ofInstant 7 (by decide)) toString (by decide +kernel)
  refine ⟨result, hresult, (fields_from_taxonomy_iff _ _ _ _ _ hresult hcompiled).2 fun t ht => ?_⟩
  rw [List.mem_singleton.1 ht]
  exact .inr (by decide +kernel)

/-- **A net worth under another fact** is compiled, and tested against `crar_pct`. -/
theorem not_forall_fields_from_taxonomy : ¬ ∀ (a : AuditedComplianceRule) (ruleVersion : Int)
    (now : DateTime) (uuids : Nat → String) (result : CompilationResult),
    compileAuditedRule a ruleVersion now uuids = .ok result → result.compiled = true →
      FieldsFromTaxonomy a.rule ruleVersion now result := by
  intro h
  obtain ⟨result, hresult, hcompiled⟩ := exists_compiled_result (netWorthAs "crar_pct") 1
    (.ofInstant 7 (by decide)) toString (by decide +kernel)
  obtain ⟨p, clauses, hp, -, -, -, htests⟩ := h _ _ _ _ result hresult hcompiled
  obtain ⟨f, hf, ⟨c, hc, heq, hcond⟩, -⟩ := htests _ (List.mem_singleton_self _)
  obtain ⟨field, hfield, hbody⟩ := passCondition_tests ((partsOf hp).condition c hc).2
  rw [heq] at hfield
  have hidentifier := (hf.field_iff hfield).1 (hbody.unique hcond)
  revert hidentifier
  unfold GivenFactResolved
  decide +kernel

end RegEngine.Hitl
