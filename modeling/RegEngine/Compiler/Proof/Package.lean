import RegEngine.Compiler.Rego
import RegEngine.Lib.Except
import RegEngine.Lib.Words

/-!
# Which rules share a package

The package of a rule is named after its regulator, its domain and the slugs of its circular and
clause numbers; the rule's id has no part in it. A slug keeps the words of a number and forgets what
stands between them.

* `slugOr_toList`: a slug is the words of the number, joined.
* `regoPackageName_inj`: a package name determines its four parts.
* `package_ne_iff`: when two compiled rules have different packages.
-/

namespace RegEngine.Compiler

open Lib Lib.Python Lib.Text Lib.Words Lib.Except Lib.Calendar

/-! ## Slugs -/

/-- The words of a number: its longest runs of ASCII letters and digits, in lower case. One with no
word counts as `unnamed`, a missing or empty one as the default. -/
def numberWords (number : Option String) (default : String) : List (List Char) :=
  if truthy number then
    match words isAlnum (lower (strip (number.getD ""))).toList with
    | [] => ["unnamed".toList]
    | ws => ws
  else words isAlnum default.toList

theorem numberWords_mem {number : Option String} {default : String} {w : List Char}
    (hw : w ∈ numberWords number default) : ∀ c ∈ w, isAlnum c := by
  unfold numberWords at hw
  split at hw
  · split at hw
    · have hall : "unnamed".toList.all isAlnum = true := by decide
      rw [List.mem_singleton.1 hw]
      exact List.all_eq_true.1 hall
    · exact (words_mem hw).2
  · exact (words_mem hw).2

/-- A slug is the words of the number, joined. -/
theorem slugOr_toList (number : Option String) {default : String}
    (hd : join '_' (words isAlnum default.toList) = default.toList) :
    (slugOr number default).toList = join '_' (numberWords number default) := by
  unfold slugOr numberWords
  by_cases h : truthy number
  · rw [if_pos h, if_pos h, slugify]
    simp only [stripChars_subRuns (show isAlnum '_' = false by decide)]
    cases hws : words isAlnum (lower (strip (number.getD ""))).toList with
    | nil => rfl
    | cons w ws =>
      have hne : join '_' (w :: ws) ≠ [] := by
        rw [Ne, join_eq_nil fun v hv => (words_mem (hws ▸ hv)).1]
        exact List.cons_ne_nil _ _
      have htext : String.ofList (join '_' (w :: ws)) ≠ "" := by
        rwa [Ne, ← String.toList_inj, String.toList_ofList]
      simp [orText, htext]
  · rw [if_neg h, if_neg h, hd]

theorem dot_notMem_slugOr (number : Option String) {default : String}
    (hd : join '_' (words isAlnum default.toList) = default.toList) :
    '.' ∉ (slugOr number default).toList := by
  rw [slugOr_toList number hd]
  intro h
  rcases mem_join h with h | ⟨w, hw, h⟩
  · exact absurd h (by decide)
  · exact absurd (numberWords_mem hw _ h) (by decide)

/-- Two numbers have the same slug exactly when they have the same words. -/
theorem slugOr_eq_iff (a b : Option String) {default : String}
    (hd : join '_' (words isAlnum default.toList) = default.toList)
    (hne : words isAlnum default.toList ≠ []) :
    slugOr a default = slugOr b default ↔ numberWords a default = numberWords b default := by
  have hwords : ∀ n, numberWords n default ≠ [] := by
    intro n
    unfold numberWords
    split
    · split
      · simp
      · assumption
    · exact hne
  have hsep : ∀ n, ∀ w ∈ numberWords n default, '_' ∉ w :=
    fun n w hw h => absurd (numberWords_mem hw _ h) (by decide)
  rw [← String.toList_inj, slugOr_toList a hd, slugOr_toList b hd]
  exact ⟨join_inj (hwords a) (hwords b) (hsep a) (hsep b), congrArg _⟩

/-! ## Package names -/

theorem join_words_clause : join '_' (words isAlnum "unscoped".toList) = "unscoped".toList := by
  decide

theorem join_words_circular :
    join '_' (words isAlnum "uncategorized_circular".toList) = "uncategorized_circular".toList := by
  decide

theorem Regulator.value_inj {a b : Regulator} (h : a.value.toList = b.value.toList) : a = b := by
  cases a <;> cases b <;> first | rfl | exact absurd h (by decide)

theorem Regulator.dot_notMem_value (r : Regulator) : '.' ∉ r.value.toList := by
  cases r <;> decide

/-- **A package name determines its parts.** The slugs have no dot in them, so they are cut off from
the right; the domain is what is left between the regulator and them, whatever it holds. -/
theorem regoPackageName_inj {r r' : Regulator} {d d' : String} {k k' c c' : Option String}
    (h : regoPackageName r d k c = regoPackageName r' d' k' c') :
    r = r' ∧ d = d' ∧ circularSlug k = circularSlug k' ∧ clauseSlug c = clauseSlug c' := by
  have hclause : ∀ n, '.' ∉ "clause_".toList ++ (clauseSlug n).toList := by
    intro n hn
    rcases List.mem_append.1 hn with hn | hn
    · exact absurd hn (by decide)
    · exact dot_notMem_slugOr n join_words_clause hn
  have hcircular : ∀ n, '.' ∉ (circularSlug n).toList :=
    fun n => dot_notMem_slugOr n join_words_circular
  have hshape : ∀ (r : Regulator) (d : String) (k c : Option String),
      (regoPackageName r d k c).toList =
        ((r.value.toList ++ '.' :: d.toList) ++ ".circulars".toList ++
          '.' :: (circularSlug k).toList) ++ '.' :: ("clause_".toList ++ (clauseSlug c).toList) := by
    intro r d k c
    simp [regoPackageName]
  have hlist := congrArg String.toList h
  rw [hshape, hshape] at hlist
  obtain ⟨hrest, hc⟩ := append_sep_inj_last (hclause c) (hclause c') hlist
  obtain ⟨hhead, hk⟩ := append_sep_inj_last (hcircular k) (hcircular k') hrest
  obtain ⟨hr, hd⟩ := append_sep_inj r.dot_notMem_value r'.dot_notMem_value
    (List.append_cancel_right hhead)
  exact ⟨Regulator.value_inj hr, String.toList_injective hd, String.toList_injective hk,
    String.toList_injective (List.append_cancel_left hc)⟩

/-! ## Compiled rules -/

/-- The domain of the package: the rule's own, else the one of its first entity. -/
def ExtractedComplianceRule.domain (rule : ExtractedComplianceRule) : String :=
  orText rule.regulatoryDomain
    (resolveDomain rule.regulator (rule.targetEntities.head?.bind (·.normalizedEntity)))

/-- What the parts of a module say about the rule besides its thresholds. -/
theorem regoParts_head {rule : ExtractedComplianceRule} {p : RegoParts}
    (h : regoParts rule = .ok p) :
    p.package = regoPackageName rule.regulator rule.domain rule.circularNumber rule.clauseNumber ∧
      p.clause = orText rule.clauseNumber "unscoped" ∧
      p.digest = orText rule.canonicalFactsDigest
        (computeCanonicalFactsDigest rule.deterministicLogic) := by
  unfold regoParts at h
  split at h
  · cases h
  · obtain ⟨-, -, h⟩ := bind_ok_iff.1 h
    obtain ⟨conditions, -, h⟩ := bind_ok_iff.1 h
    obtain ⟨violations, -, h⟩ := bind_ok_iff.1 h
    cases h
    exact ⟨rfl, rfl, rfl⟩

theorem package_of_compileRuleToRego {rule : ExtractedComplianceRule} {v : Int} {g : DateTime}
    {c : CompiledRego} (h : compileRuleToRego rule v g = .ok c) :
    c.package =
      regoPackageName rule.regulator rule.domain rule.circularNumber rule.clauseNumber := by
  obtain ⟨p, hp, rfl⟩ := map_ok_iff.1 h
  exact (regoParts_head hp).1

/-- **Two compiled rules have different packages exactly when** they differ in the regulator, in the
domain, or in the words of the circular or of the clause number. -/
theorem package_ne_iff (a b : ExtractedComplianceRule) (va vb : Int) (ga gb : DateTime)
    (ca cb : CompiledRego) (ha : compileRuleToRego a va ga = .ok ca)
    (hb : compileRuleToRego b vb gb = .ok cb) :
    ca.package ≠ cb.package ↔
      a.regulator ≠ b.regulator ∨ a.domain ≠ b.domain ∨
      numberWords a.circularNumber "uncategorized_circular" ≠
        numberWords b.circularNumber "uncategorized_circular" ∨
      numberWords a.clauseNumber "unscoped" ≠ numberWords b.clauseNumber "unscoped" := by
  have hcircular := slugOr_eq_iff a.circularNumber b.circularNumber join_words_circular (by decide)
  have hclause := slugOr_eq_iff a.clauseNumber b.clauseNumber join_words_clause (by decide)
  rw [package_of_compileRuleToRego ha, package_of_compileRuleToRego hb, Ne, Ne, Ne, Ne, Ne,
    ← hcircular, ← hclause, ← not_and_or, ← not_and_or, ← not_and_or, not_iff_not]
  refine ⟨regoPackageName_inj, fun ⟨hr, hd, hk, hc⟩ => ?_⟩
  rw [regoPackageName, regoPackageName, hr, hd]
  show _ ++ circularSlug _ ++ _ ++ clauseSlug _ = _
  rw [show circularSlug a.circularNumber = circularSlug b.circularNumber from hk,
    show clauseSlug a.clauseNumber = clauseSlug b.clauseNumber from hc]

/-- A rule on the upfront margin, found in a clause of a circular. -/
def clauseRule (ruleId clause : String) : ExtractedComplianceRule :=
  { ruleId := ruleId
    sourceSha256 := ""
    circularNumber := some "SEBI/HO/1"
    clauseNumber := some clause
    deterministicLogic := [
      { metric := "upfront margin"
        canonicalFact := some "upfront_margin_pct"
        operator := .gt
        value := ⟨35, 0, by decide⟩
        unit := "%" }]
    obligationType := .mandatory
    canonicalFactsDigest := some "d" }

theorem exists_compiled {rule : ExtractedComplianceRule}
    (h : (regoParts rule).toOption.isSome = true) (v : Int) (g : DateTime) :
    ∃ c, compileRuleToRego rule v g = .ok c :=
  ⟨_, map_ok_iff.2 ⟨_, eq_ok_get h, rfl⟩⟩

/-- Rules of two clauses. -/
theorem package_ne_clauses :
    ∃ ca cb, compileRuleToRego (clauseRule "r1" "2.1") 1 (.ofInstant 0 (by decide)) = .ok ca ∧
      compileRuleToRego (clauseRule "r2" "2.2") 1 (.ofInstant 0 (by decide)) = .ok cb ∧
      ca.package ≠ cb.package := by
  obtain ⟨ca, ha⟩ := exists_compiled (show (regoParts (clauseRule "r1" "2.1")).toOption.isSome = true
    by decide) 1 (.ofInstant 0 (by decide))
  obtain ⟨cb, hb⟩ := exists_compiled (show (regoParts (clauseRule "r2" "2.2")).toOption.isSome = true
    by decide) 1 (.ofInstant 0 (by decide))
  exact ⟨ca, cb, ha, hb, (package_ne_iff _ _ _ _ _ _ _ _ ha hb).2 (by decide)⟩

/-- **Two rules of one clause share a package**: those of its fragments, and those whose clause
numbers differ in punctuation only. -/
theorem package_shared :
    ∃ ca cb cc, compileRuleToRego (clauseRule "r1" "2.1") 1 (.ofInstant 0 (by decide)) = .ok ca ∧
      compileRuleToRego (clauseRule "r2" "2.1") 1 (.ofInstant 0 (by decide)) = .ok cb ∧
      compileRuleToRego (clauseRule "r3" "(2) 1") 1 (.ofInstant 0 (by decide)) = .ok cc ∧
      (clauseRule "r1" "2.1").ruleId ≠ (clauseRule "r2" "2.1").ruleId ∧
      (clauseRule "r1" "2.1").ruleId ≠ (clauseRule "r3" "(2) 1").ruleId ∧
      ca.package = cb.package ∧ ca.package = cc.package := by
  obtain ⟨ca, ha⟩ := exists_compiled (show (regoParts (clauseRule "r1" "2.1")).toOption.isSome = true
    by decide) 1 (.ofInstant 0 (by decide))
  obtain ⟨cb, hb⟩ := exists_compiled (show (regoParts (clauseRule "r2" "2.1")).toOption.isSome = true
    by decide) 1 (.ofInstant 0 (by decide))
  obtain ⟨cc, hc⟩ := exists_compiled (show (regoParts (clauseRule "r3" "(2) 1")).toOption.isSome =
    true by decide) 1 (.ofInstant 0 (by decide))
  refine ⟨ca, cb, cc, ha, hb, hc, by decide, by decide, ?_, ?_⟩
  · rw [package_of_compileRuleToRego ha, package_of_compileRuleToRego hb]
    decide
  · rw [package_of_compileRuleToRego ha, package_of_compileRuleToRego hc]
    decide

end RegEngine.Compiler
