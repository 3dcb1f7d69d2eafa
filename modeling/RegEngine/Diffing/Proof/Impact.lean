import RegEngine.Diffing.Proof.ReadBack
import RegEngine.Diffing.ReportBuilder

/-!
# What a report hides, and what it invents

A field of both rules is a delta, whether its threshold changed or not (`deltas_eq_nil_iff`). So a clause that
did not change is never reported as such. As long as the old rule has a threshold something is reported; but
where a delta is, no field that came or went decides.
-/

namespace RegEngine.Diffing

open Lib Lib.Except Compiler

variable {rule old : ExtractedComplianceRule} {jl : JsonLogicRule}

/-! ## Dictionaries -/

theorem items_keys {α : Type} (pairs : List (String × α)) (k : String) :
    k ∈ (items pairs).map (·.1) ↔ k ∈ pairs.map (·.1) := by
  have hkeys : (items pairs).map (·.1) = (firstHits Prod.fst [] pairs).map Prod.fst := by
    rw [items, List.map_map]
    rfl
  rw [hkeys, mem_map_firstHits]
  simp

theorem dict_ne_none_iff {α : Type} {pairs : List (String × α)} {k : String} :
    Query.dict pairs k ≠ none ↔ k ∈ pairs.map (·.1) := by
  constructor
  · intro h
    obtain ⟨c, hc⟩ := Option.ne_none_iff_exists'.1 h
    exact List.mem_map_of_mem (f := Prod.fst) (Query.mem_of_dict_eq_some hc)
  · intro h
    obtain ⟨p, hp, rfl⟩ := List.mem_map.1 h
    obtain ⟨c, hc⟩ := Query.exists_dict_eq_some hp
    rw [hc]
    exact Option.some_ne_none c

/-! ## The fields of both sides -/

theorem newFields_eq_ok {ts : List NumericalThreshold} {fields : List String} (h : newFields ts = .ok fields) :
    fields.length = ts.length ∧
      ∀ f, f ∈ fields ↔ ∃ t ∈ ts, metricFieldName t.metric t.unit = .ok f := by
  induction ts generalizing fields with
  | nil =>
    obtain rfl : [] = fields := by simpa [newFields, pure, Except.pure] using h
    exact ⟨rfl, by simp⟩
  | cons t ts ih =>
    obtain ⟨f, rest, hf, hrest, rfl⟩ := mapM_cons_ok_iff.1 h
    obtain ⟨hlength, hmem⟩ := ih hrest
    refine ⟨by rw [List.length_cons, List.length_cons, hlength], fun g => ?_⟩
    rw [List.mem_cons, hmem]
    simp only [List.mem_cons, exists_eq_or_imp, hf, Except.ok.injEq]
    rw [eq_comm]

theorem map_fst_zip {fields : List String} {ts : List NumericalThreshold} (h : fields.length = ts.length) :
    (fields.zip ts).map (·.1) = fields := List.map_fst_zip h.le

/-- The fields that are read off a compiled rule are the paths of its thresholds. -/
theorem mem_extracted_fields (h : compileRuleToJsonlogic old = .ok jl) (path : String) :
    path ∈ (extractThresholdsFromJsonlogic jl.logic).map (·.field) ↔
      ∃ u ∈ old.deterministicLogic, thresholdVarPath u = .ok path := by
  obtain ⟨css, hcss, hcomparisons⟩ := comparisons_of_compiled h
  have hfold : ∀ (field : String) (cs : List FieldComparison), cs ≠ [] →
      foldRange field cs ≠ [] ∧ ∀ e ∈ foldRange field cs, e.field = field := by
    intro field cs hne
    unfold foldRange
    split
    · split
      · simp
      · split
        · simp
        · simp
    · refine ⟨by simpa using hne, fun e he => ?_⟩
      obtain ⟨c, -, rfl⟩ := List.mem_map.1 he
      rfl
  have hfields : path ∈ (extractThresholdsFromJsonlogic jl.logic).map (·.field) ↔
      ∃ c ∈ css.flatten, c.field = path := by
    have hextract : extractThresholdsFromJsonlogic jl.logic = thresholdsByField css.flatten := by
      rw [← hcomparisons]
      rfl
    rw [hextract, List.mem_map]
    unfold thresholdsByField
    have hgroup : ∀ c ∈ css.flatten, (css.flatten.filter fun d => d.field = c.field) ≠ [] := fun c hc =>
      List.ne_nil_of_mem (List.mem_filter.2 ⟨hc, by simp⟩)
    constructor
    · intro h
      obtain ⟨e, he, rfl⟩ := h
      obtain ⟨field, hfield, he⟩ := List.mem_flatMap.1 he
      obtain ⟨c, hc, rfl⟩ := List.mem_map.1 (mem_map_firstHits.1 hfield).1
      exact ⟨c, hc, ((hfold _ _ (hgroup c hc)).2 e he).symm⟩
    · intro h
      obtain ⟨c, hc, rfl⟩ := h
      obtain ⟨hne, hfield⟩ := hfold c.field _ (hgroup c hc)
      obtain ⟨e, he⟩ := List.exists_mem_of_ne_nil _ hne
      exact ⟨e, List.mem_flatMap.2
        ⟨c.field, mem_map_firstHits.2 ⟨List.mem_map_of_mem hc, List.not_mem_nil⟩, he⟩, hfield e he⟩
  rw [hfields]
  constructor
  · intro h
    obtain ⟨c, hc, rfl⟩ := h
    obtain ⟨u, hu, cs, hstands, hmem⟩ := exists_stands hcss hc
    obtain ⟨path, -, -, hpath, -, hfield⟩ := hstands.field
    exact ⟨u, hu, by rw [hfield c hmem]; exact hpath⟩
  · intro h
    obtain ⟨u, hu, hpath⟩ := h
    obtain ⟨cs, hcs, hstands⟩ := exists_stands_of_mem hcss hu
    obtain ⟨path', c, rest, hpath', hcons, hfield⟩ := hstands.field
    have hc : c ∈ cs := by rw [hcons]; exact List.mem_cons_self
    refine ⟨c, List.mem_flatten.2 ⟨cs, hcs, hc⟩, ?_⟩
    rw [hfield c hc]
    exact Except.ok.inj (hpath'.symm.trans hpath)

theorem withoutFacts_append (f : String) : withoutFacts ("facts." ++ f) = f := by
  have hstart : Python.startsWith ("facts." ++ f) "facts." = true := by
    rw [Python.startsWith_iff, String.toList_append]
    exact List.prefix_append _ _
  rw [withoutFacts, if_pos hstart, String.toList_append]
  show String.ofList (("facts.".toList ++ f.toList).drop "facts.".toList.length) = f
  rw [List.drop_left, String.ofList_toList]

/-! ## One diff -/

/-- The new rule has a field of the old one, by the name that `metric_field_name` gives it. -/
def Shares (new : List NumericalThreshold) (old : List NumericalThreshold) : Prop :=
  ∃ t ∈ new, ∃ u ∈ old, ∃ f, metricFieldName t.metric t.unit = .ok f ∧ thresholdVarPath u = .ok ("facts." ++ f)

/-- The keys of the old side. -/
theorem mem_oldFields (h : compileRuleToJsonlogic old = .ok jl) (f : String) :
    f ∈ ((extractThresholdsFromJsonlogic jl.logic).map fun t => (withoutFacts t.field, t)).map (·.1) ↔
      ∃ u ∈ old.deterministicLogic, thresholdVarPath u = .ok ("facts." ++ f) := by
  have hkeys : ((extractThresholdsFromJsonlogic jl.logic).map fun t => (withoutFacts t.field, t)).map (·.1) =
      ((extractThresholdsFromJsonlogic jl.logic).map (·.field)).map withoutFacts := by
    rw [List.map_map, List.map_map]
    rfl
  rw [hkeys, List.mem_map]
  constructor
  · intro h'
    obtain ⟨path, hpath, rfl⟩ := h'
    obtain ⟨u, hu, hvar⟩ := (mem_extracted_fields h path).1 hpath
    obtain ⟨g, rfl⟩ := exists_fact hvar
    exact ⟨u, hu, by rw [withoutFacts_append]; exact hvar⟩
  · intro h'
    obtain ⟨u, hu, hvar⟩ := h'
    exact ⟨_, (mem_extracted_fields h _).2 ⟨u, hu, hvar⟩, withoutFacts_append f⟩

/-- **A delta stands for every field of both rules**, changed or not; a field of one alone is new or removed. -/
theorem diffThresholds_ok {ts : List NumericalThreshold} (h : compileRuleToJsonlogic old = .ok jl)
    {deltas : List ThresholdDelta} {newOnly removed : List String}
    (hdiff : diffThresholds ts (extractThresholdsFromJsonlogic jl.logic) = .ok (deltas, newOnly, removed)) :
    (deltas = [] ↔ ¬ Shares ts old.deterministicLogic) ∧
      (deltas = [] → ts ≠ [] → newOnly ≠ []) ∧
      (deltas = [] → old.deterministicLogic ≠ [] → removed ≠ []) := by
  unfold diffThresholds at hdiff
  obtain ⟨fields, hfields, hdiff⟩ := bind_ok_iff.1 hdiff
  obtain ⟨hlength, hmem⟩ := newFields_eq_ok hfields
  cases hdiff
  have hnew : ∀ f, f ∈ (items (fields.zip ts)).map (·.1) ↔
      ∃ t ∈ ts, metricFieldName t.metric t.unit = .ok f := by
    intro f
    rw [items_keys, map_fst_zip hlength, hmem]
  have hold := mem_oldFields h
  have hdeltas : ((items (fields.zip ts)).filterMap fun p =>
      (Query.dict ((extractThresholdsFromJsonlogic jl.logic).map fun t => (withoutFacts t.field, t)) p.1).map
        (thresholdDelta p.1 p.2)) = [] ↔ ¬ Shares ts old.deterministicLogic := by
    rw [List.filterMap_eq_nil_iff]
    constructor
    · intro hnil hshares
      obtain ⟨t, ht, u, hu, f, hf, hvar⟩ := hshares
      obtain ⟨p, hp, rfl⟩ := List.mem_map.1 ((hnew f).2 ⟨t, ht, hf⟩)
      exact dict_ne_none_iff.2 ((hold p.1).2 ⟨u, hu, hvar⟩) (Option.map_eq_none_iff.1 (hnil p hp))
    · intro hshares p hp
      rw [Option.map_eq_none_iff]
      by_contra hsome
      obtain ⟨u, hu, hvar⟩ := (hold p.1).1 (dict_ne_none_iff.1 hsome)
      obtain ⟨t, ht, hf⟩ := (hnew p.1).1 (List.mem_map_of_mem hp)
      exact hshares ⟨t, ht, u, hu, p.1, hf, hvar⟩
  refine ⟨hdeltas, fun hnil hne => ?_, fun hnil hne => ?_⟩
  · obtain ⟨t, ht⟩ := List.exists_mem_of_ne_nil _ hne
    have hlen : fields ≠ [] := fun hnil => hne (List.length_eq_zero_iff.1 (by rw [← hlength, hnil]; rfl))
    obtain ⟨f, hf⟩ := List.exists_mem_of_ne_nil _ hlen
    obtain ⟨t, ht, hname⟩ := (hmem f).1 hf
    refine List.ne_nil_of_mem (List.mem_filter.2 ⟨(hnew f).2 ⟨t, ht, hname⟩, ?_⟩)
    by_contra hsome
    obtain ⟨u, hu, hvar⟩ := (hold f).1 (dict_ne_none_iff.1 (by simpa using hsome))
    exact hdeltas.1 hnil ⟨t, ht, u, hu, f, hname, hvar⟩
  · obtain ⟨u, hu⟩ := List.exists_mem_of_ne_nil _ hne
    obtain ⟨css, hcss, -⟩ := comparisons_of_compiled h
    obtain ⟨cs, -, hstands⟩ := exists_stands_of_mem hcss hu
    obtain ⟨path, -, -, hpath, -⟩ := hstands.field
    obtain ⟨f, rfl⟩ := exists_fact hpath
    have hkey := (hold f).2 ⟨u, hu, hpath⟩
    refine List.ne_nil_of_mem (List.mem_filter.2 ⟨(items_keys _ f).2 hkey, ?_⟩)
    by_contra hsome
    have hzip := dict_ne_none_iff.1 (by simpa using hsome : Query.dict (fields.zip ts) f ≠ none)
    rw [map_fst_zip hlength] at hzip
    obtain ⟨t, ht, hname⟩ := (hmem f).1 hzip
    exact hdeltas.1 hnil ⟨t, ht, u, hu, f, hname, hpath⟩

/-! ## An unchanged clause -/

/-- A rule and its own compiled thresholds differ in nothing, and an identical match is unchanged. -/
structure ReportsNoChange (rule : ExtractedComplianceRule) (jl : JsonLogicRule) : Prop where
  noDiff : diffThresholds rule.deterministicLogic (extractThresholdsFromJsonlogic jl.logic) = .ok ([], [], [])
  unchanged : ∀ m : HistoricalMatch, m.confidence = .identical → ∀ deltas newOnly removed,
    diffThresholds rule.deterministicLogic (extractThresholdsFromJsonlogic jl.logic) =
      .ok (deltas, newOnly, removed) →
    (classifyStructurally rule m deltas newOnly removed).changeType = .unchanged

/-- **An unchanged clause is never reported as such.** -/
theorem not_reportsNoChange (rule : ExtractedComplianceRule) (jl : JsonLogicRule)
    (h : compileRuleToJsonlogic rule = .ok jl) : ¬ ReportsNoChange rule jl := by
  intro hreports
  obtain ⟨-, -, hne, -⟩ := compileRuleToJsonlogic_logic h
  obtain ⟨-, hnewOnly, -⟩ := diffThresholds_ok h hreports.noDiff
  exact hnewOnly rfl hne rfl

theorem not_reportsNoChange_netWorth : ¬ ReportsNoChange (netWorthClause .gte) netWorthLogic :=
  not_reportsNoChange _ _ compile_netWorthClause

/-- The net worth is a delta of the clause with itself. -/
theorem not_forall_reportsNoChange :
    ¬ ∀ rule jl, compileRuleToJsonlogic rule = .ok jl → ReportsNoChange rule jl := by
  intro h
  have hnone := (h _ _ compile_netWorthClause).noDiff
  have hdelta : ∃ d, diffThresholds (netWorthClause .gte).deterministicLogic
      (extractThresholdsFromJsonlogic netWorthLogic.logic) = .ok ([d], [], []) := ⟨_, rfl⟩
  obtain ⟨d, hd⟩ := hdelta
  rw [hd] at hnone
  cases hnone

/-! ## A changed clause -/

/-- The clause was matched to the one that a rule was compiled from. -/
structure MatchedTo (compiledRules : String → Option Json) (m : HistoricalMatch) (jl : JsonLogicRule) :
    Prop where
  confidence : m.confidence = .identical ∨ m.confidence = .nearDuplicate ∨ m.confidence = .likelyAmendment
  compiled : ∃ sha, m.sha256 = some sha ∧ sha ≠ "" ∧ compiledRules sha = some jl.logic

/-- A field of the first that the second does not have. -/
def Added (new old : List NumericalThreshold) : Prop :=
  ∃ t ∈ new, ∀ u ∈ old, thresholdVarPath u ≠ thresholdVarPath t

/-- The result of a clause hides no change from the old rule. -/
structure HidesNothing (compiledRules : String → Option Json) (llm : String → HistoricalMatch → LlmChange)
    (text : String) (rule : ExtractedComplianceRule) (m : HistoricalMatch) (old : ExtractedComplianceRule) :
    Prop where
  reported : ∀ result sha, diffOneClause compiledRules llm text rule (some m) = .ok (result, sha) →
    (∃ doc, ¬ ((∀ t ∈ rule.deterministicLogic, ThresholdMet doc t) ↔
      ∀ t ∈ old.deterministicLogic, ThresholdMet doc t)) →
    result.changeType ≠ .unchanged ∧ result.changeType ≠ .wordingOnly
  critical : ∀ result sha, diffOneClause compiledRules llm text rule (some m) = .ok (result, sha) →
    Added rule.deterministicLogic old.deterministicLogic ∨ Added old.deterministicLogic rule.deterministicLogic →
    result.severity = .critical ∧ result.requiresHitlReview = true

/-- A tree that something is read off is no empty value. -/
theorem truthy_of_extracted {ast : Json} (h : extractThresholdsFromJsonlogic ast ≠ []) : ast.truthy = true := by
  cases ast with
  | obj fields =>
    cases fields with
    | nil => exact absurd rfl h
    | cons f fields => rfl
  | null | bool _ | int _ | float _ | str _ | arr _ => exact absurd rfl h

theorem extracted_ne_nil (h : compileRuleToJsonlogic old = .ok jl) :
    extractThresholdsFromJsonlogic jl.logic ≠ [] := by
  obtain ⟨-, -, hne, -⟩ := compileRuleToJsonlogic_logic h
  obtain ⟨u, hu⟩ := List.exists_mem_of_ne_nil _ hne
  obtain ⟨css, hcss, -⟩ := comparisons_of_compiled h
  obtain ⟨cs, -, hstands⟩ := exists_stands_of_mem hcss hu
  obtain ⟨path, -, -, hpath, -⟩ := hstands.field
  intro hnil
  have hmem := (mem_extracted_fields h path).2 ⟨u, hu, hpath⟩
  rw [hnil] at hmem
  cases hmem

/-- A clause matched to a compiled rule is classified by its thresholds. -/
theorem diffOneClause_matched {compiledRules : String → Option Json} {llm : String → HistoricalMatch → LlmChange}
    {text : String} {m : HistoricalMatch} (h : compileRuleToJsonlogic old = .ok jl)
    (hm : MatchedTo compiledRules m jl) :
    diffOneClause compiledRules llm text rule (some m) =
      (diffThresholds rule.deterministicLogic (extractThresholdsFromJsonlogic jl.logic)).map
        fun (deltas, newOnly, removed) => (classifyStructurally rule m deltas newOnly removed, m.sha256) := by
  obtain ⟨sha, hsha, hne, hrow⟩ := hm.compiled
  have hextracted := extracted_ne_nil h
  have hconfidence : m.confidence ≠ .noMatch ∧ m.confidence ≠ .weakMatch := by
    rcases hm.confidence with hc | hc | hc
    all_goals
      rw [hc]
      decide
  have hfilter : (some m).filter (fun m => m.confidence ≠ .noMatch) = some m := by
    rw [Option.filter_some, if_pos (by simpa using hconfidence.1)]
  have hlookup : (lookupHistoricalCompiledRule compiledRules m.sha256).filter Json.truthy = some jl.logic := by
    rw [lookupHistoricalCompiledRule, hsha, Option.bind_some, if_neg hne, hrow, Option.filter_some,
      if_pos (truthy_of_extracted hextracted)]
  unfold diffOneClause
  rw [hfilter]
  simp only [if_neg hconfidence.2, hlookup]
  rw [if_pos (.inl hextracted)]
  cases diffThresholds rule.deterministicLogic (extractThresholdsFromJsonlogic jl.logic) <;> rfl

/-- Deltas are never critical, and hide nothing. -/
theorem structuralChange_of_deltas {deltas : List ThresholdDelta} (h : deltas ≠ []) (newOnly removed : List String)
    (confidence : MatchConfidence) :
    (structuralChange deltas newOnly removed confidence).2.1 ≠ .critical ∧
      (structuralChange deltas newOnly removed confidence).1 ≠ .unchanged ∧
      (structuralChange deltas newOnly removed confidence).1 ≠ .wordingOnly := by
  unfold structuralChange
  rw [if_pos h]
  dsimp only
  split
  · exact ⟨by simp [severityFor], by decide, by decide⟩
  · refine ⟨?_, by decide, by decide⟩
    unfold severityFor
    dsimp only
    split <;> decide

theorem structuralChange_of_removed {removed : List String} (h : removed ≠ []) (newOnly : List String)
    (confidence : MatchConfidence) :
    (structuralChange [] newOnly removed confidence).2 = (.critical, true) ∧
      (structuralChange [] newOnly removed confidence).1 ≠ .unchanged ∧
      (structuralChange [] newOnly removed confidence).1 ≠ .wordingOnly := by
  unfold structuralChange
  rw [if_neg (not_not.2 rfl)]
  by_cases hnew : newOnly = []
  · rw [if_neg (not_not.2 hnew), if_pos h]
    exact ⟨rfl, by decide, by decide⟩
  · rw [if_pos hnew]
    exact ⟨rfl, by decide, by decide⟩

/-- **A report hides no change** unless a field came or went and another is in both rules. -/
theorem hidesNothing_iff (compiledRules : String → Option Json) (llm : String → HistoricalMatch → LlmChange)
    (text : String) (rule : ExtractedComplianceRule) (m : HistoricalMatch) (old : ExtractedComplianceRule)
    (jl : JsonLogicRule) (h : compileRuleToJsonlogic old = .ok jl) (hm : MatchedTo compiledRules m jl) :
    HidesNothing compiledRules llm text rule m old ↔
      ¬ ((∀ t ∈ rule.deterministicLogic, ∃ f, metricFieldName t.metric t.unit = .ok f) ∧
        (Added rule.deterministicLogic old.deterministicLogic ∨
          Added old.deterministicLogic rule.deterministicLogic) ∧
        Shares rule.deterministicLogic old.deterministicLogic) := by
  have hresult : ∀ result sha, diffOneClause compiledRules llm text rule (some m) = .ok (result, sha) ↔
      ∃ deltas newOnly removed, diffThresholds rule.deterministicLogic (extractThresholdsFromJsonlogic jl.logic) =
        .ok (deltas, newOnly, removed) ∧ (classifyStructurally rule m deltas newOnly removed, m.sha256) =
          (result, sha) := by
    intro result sha
    rw [diffOneClause_matched h hm, map_ok_iff]
    constructor
    · intro h'
      obtain ⟨⟨deltas, newOnly, removed⟩, hdiff, heq⟩ := h'
      exact ⟨deltas, newOnly, removed, hdiff, heq⟩
    · intro h'
      obtain ⟨deltas, newOnly, removed, hdiff, heq⟩ := h'
      exact ⟨(deltas, newOnly, removed), hdiff, heq⟩
  obtain ⟨-, -, hne, -⟩ := compileRuleToJsonlogic_logic h
  constructor
  · intro hhides hall
    obtain ⟨hmapped, hadded, hshares⟩ := hall
    obtain ⟨fields, hfields⟩ := exists_mapM_ok_iff.2 hmapped
    have hdiff : ∃ deltas newOnly removed, diffThresholds rule.deterministicLogic
        (extractThresholdsFromJsonlogic jl.logic) = .ok (deltas, newOnly, removed) := by
      unfold diffThresholds
      rw [show newFields rule.deterministicLogic = .ok fields from hfields]
      exact ⟨_, _, _, rfl⟩
    obtain ⟨deltas, newOnly, removed, hdiff⟩ := hdiff
    have hdeltas : deltas ≠ [] := fun hnil => (diffThresholds_ok h hdiff).1.1 hnil hshares
    have hcritical := hhides.critical _ _ ((hresult _ _).2 ⟨deltas, newOnly, removed, hdiff, rfl⟩) hadded
    exact (structuralChange_of_deltas hdeltas newOnly removed m.confidence).1 hcritical.1
  · intro hnot
    refine ⟨fun result sha hdiffed _ => ?_, fun result sha hdiffed hadded => ?_⟩
    · obtain ⟨deltas, newOnly, removed, hdiff, heq⟩ := (hresult _ _).1 hdiffed
      cases heq
      by_cases hnil : deltas = []
      · obtain rfl := hnil
        exact (structuralChange_of_removed ((diffThresholds_ok h hdiff).2.2 rfl hne) newOnly m.confidence).2
      · exact (structuralChange_of_deltas hnil newOnly removed m.confidence).2
    · obtain ⟨deltas, newOnly, removed, hdiff, heq⟩ := (hresult _ _).1 hdiffed
      cases heq
      have hmapped : ∀ t ∈ rule.deterministicLogic, ∃ f, metricFieldName t.metric t.unit = .ok f := by
        unfold diffThresholds at hdiff
        obtain ⟨fields, hfields, -⟩ := bind_ok_iff.1 hdiff
        exact exists_mapM_ok_iff.1 ⟨fields, hfields⟩
      have hnil : deltas = [] := (diffThresholds_ok h hdiff).1.2 fun hshares => hnot ⟨hmapped, hadded, hshares⟩
      obtain rfl := hnil
      have hcritical := (structuralChange_of_removed ((diffThresholds_ok h hdiff).2.2 rfl hne) newOnly
        m.confidence).1
      exact ⟨congrArg Prod.fst hcritical, congrArg Prod.snd hcritical⟩

/-! ## A dropped margin -/

/-- The clause on the net worth, with a margin. -/
def marginClause : ExtractedComplianceRule where
  ruleId := "RULE-0"
  sourceSha256 := "c0"
  deterministicLogic :=
    [{ metric := "net worth", operator := .gte, value := ⟨5, 0, Decimal.shortest_five⟩, unit := "crore",
       upperRequiresRange := no_valueUpper },
     { metric := "upfront margin", canonicalFact := some "upfront_margin_pct", operator := .gte,
       value := ⟨2, 1, Decimal.shortest_twenty⟩, unit := "%", upperRequiresRange := no_valueUpper }]
  obligationType := .mandatory

def marginLogic : JsonLogicRule where
  ruleId := "RULE-0"
  logic := node "and" (.arr
    [node ">=" (.arr [varNode "facts.net_worth_inr_crore", .float ⟨5, 0, Decimal.shortest_five⟩]),
     node ">=" (.arr [varNode "facts.upfront_margin_pct", .float ⟨2, 1, Decimal.shortest_twenty⟩])])
  dataSchema := [("entity_type", "string"), ("facts.net_worth_inr_crore", "number"),
    ("facts.upfront_margin_pct", "number")]
  violationMessageTemplate :=
    "net worth is \x7bfacts.net_worth_inr_crore\x7d crore, required to be >= 5.0 crore (clause unscoped) AND " ++
      "upfront margin is \x7bfacts.upfront_margin_pct\x7d %, required to be >= 20.0 % (clause unscoped)"
  thresholdsCompiled := 2

theorem compile_marginClause : compileRuleToJsonlogic marginClause = .ok marginLogic := by rfl

/-- The clause of the margin, found again. -/
def marginMatch : HistoricalMatch where
  chunkId := "c0"
  sha256 := some "c0"
  circularNumber := none
  clauseNumber := none
  text := "Maintain a net worth of 5 crore and collect an upfront margin of 20%."
  similarity := .ofRat 1

def wordingChange : String → HistoricalMatch → LlmChange := fun _ _ => ⟨.wordingOnly, .ofRat 1⟩

theorem matchedTo_margin : MatchedTo (fun _ => some marginLogic.logic) marginMatch marginLogic where
  confidence := .inl (by decide +kernel)
  compiled := ⟨"c0", rfl, by decide, rfl⟩

theorem hidesNothing_margin :
    HidesNothing (fun _ => some marginLogic.logic) wordingChange "" (netWorthClause .gte) marginMatch
        marginClause ↔
      ¬ ((∀ t ∈ (netWorthClause .gte).deterministicLogic, ∃ f, metricFieldName t.metric t.unit = .ok f) ∧
        (Added (netWorthClause .gte).deterministicLogic marginClause.deterministicLogic ∨
          Added marginClause.deterministicLogic (netWorthClause .gte).deterministicLogic) ∧
        Shares (netWorthClause .gte).deterministicLogic marginClause.deterministicLogic) :=
  hidesNothing_iff _ _ _ _ _ _ _ compile_marginClause matchedTo_margin

/-- The new clause drops the margin, and its net worth is a delta of a low severity. -/
theorem not_forall_hidesNothing :
    ¬ ∀ compiledRules llm text rule m old jl, compileRuleToJsonlogic old = .ok jl →
      MatchedTo compiledRules m jl → HidesNothing compiledRules llm text rule m old := by
  intro h
  have hhides := h _ wordingChange "" (netWorthClause .gte) marginMatch _ _ compile_marginClause matchedTo_margin
  have hdiff : ∃ d removed, diffThresholds (netWorthClause .gte).deterministicLogic
      (extractThresholdsFromJsonlogic marginLogic.logic) = .ok ([d], [], removed) := ⟨_, _, rfl⟩
  obtain ⟨d, removed, hdiff⟩ := hdiff
  have hresult : diffOneClause _ wordingChange "" (netWorthClause .gte) (some marginMatch) = _ :=
    diffOneClause_matched compile_marginClause matchedTo_margin
  rw [hdiff] at hresult
  have hadded : Added marginClause.deterministicLogic (netWorthClause .gte).deterministicLogic := by
    refine ⟨_, List.mem_cons_of_mem _ List.mem_cons_self, fun u hu heq => ?_⟩
    obtain rfl := List.mem_singleton.1 hu
    have hpath : (Except.ok "facts.net_worth_inr_crore" : Except CompileError String) =
        .ok "facts.upfront_margin_pct" := heq
    exact absurd (Except.ok.inj hpath) (by decide)
  exact (structuralChange_of_deltas (List.cons_ne_nil d []) [] removed marginMatch.confidence).1
    (hhides.critical _ _ hresult (.inr hadded)).1

end RegEngine.Diffing
