import RegEngine.Backtest.Proof.JsonLogic

/-!
# The two compiled forms of a rule

`evaluate_jsonlogic` compares doubles by their value, OPA compares numbers by their decimal text. The
two agree on all numbers but doubles past 2^53 whose shortest decimal is another integer than the one
they hold.

* `evaluate_logic_true_iff`: when the tree of a rule is true.
* `truth_table_iff`: when `allow` is true exactly where the tree is.
-/

namespace RegEngine.Backtest

open Lib Lib.Python Lib.Calendar Lib.Rego Lib.Except Compiler Execution
open scoped Classical

/-! ## OPA -/

/-- The reserved words of Rego. -/
def regoKeywords : List String :=
  ["as", "contains", "default", "else", "every", "false", "if", "import", "in", "not", "null",
    "package", "some", "true", "with"]

/-- A name of Rego. -/
def isRegoName (s : String) : Bool :=
  s ∉ regoKeywords &&
    match s.toList with
    | [] => false
    | c :: cs => (c.isAlpha || c = '_') && cs.all fun d => d.isAlphanum || d = '_'

/-- No character of the text is special between quotes. -/
def PlainText (s : String) : Prop := ∀ c ∈ s.toList, 32 ≤ c.toNat ∧ c ≠ '"' ∧ c ≠ '\\'

instance (s : String) : Decidable (PlainText s) := List.decidableBAll _ s.toList

/-- The texts of a rule need no escape where the compiler puts them: the parts of the package path
are names, a comment stays on its line, and between quotes no character is special. -/
structure PlainTexts (rule : ExtractedComplianceRule) : Prop where
  path : ∀ s ∈ split '.' (regoPackageName rule.regulator rule.domain rule.circularNumber
    rule.clauseNumber), isRegoName s = true
  comments : ∀ s ∈ commentTexts rule, OneLine s
  literals : ∀ s ∈ literalTexts rule, PlainText s

/-- OPA follows Rego on the module of a rule: it reads a module with plain texts as it is meant, and
gives its rules the documents of Rego's semantics. -/
def Opa.FollowsRego (opa : Opa) (rule : ExtractedComplianceRule) (ruleVersion : Int)
    (generatedAt : DateTime) : Prop :=
  PlainTexts rule → ∀ p, regoParts rule = .ok p → ∀ name input,
    opa.eval (compiledRego rule ruleVersion generatedAt p).regoCode name input =
      (regoModule rule ruleVersion p).query opa.sprintf input name

/-- The tree of a rule and its module agree on an input: the tree is true exactly where `allow` is,
the evaluator knows all its nodes, and the structural check accepts it. -/
structure TruthTable (opa : Opa) (regoCode : String) (logic input : Json) : Prop where
  agree : evaluateJsonlogic input logic = .ok (.bool true) ↔
    opa.eval regoCode "allow" input = .value (.bool true)
  supported : ∀ message, evaluateJsonlogic input logic ≠ .error (.unsupportedNode message)
  valid : validateJsonLogicAst "$" logic = .ok ()

section
variable {rule : ExtractedComplianceRule} {e : String} {facts : List (String × Json)}

theorem exists_thresholdField {p : RegoParts} (h : regoParts rule = .ok p) :
    ∀ t ∈ rule.deterministicLogic, ∃ f, thresholdField t = .ok f := by
  intro t ht
  obtain ⟨vs, hvs, -⟩ := (partsOf h).violations t ht
  obtain ⟨f, hf, -⟩ := violationClauses_covers hvs
  exact ⟨f, hf⟩

/-- A threshold that passes for Python is neither breached nor without its fact. -/
theorem PyPasses.not_breaches {facts : Json} {t : NumericalThreshold} (h : PyPasses facts t) :
    ¬ PyBreaches facts t ∧ ¬ FactMissing facts t := by
  obtain ⟨x, hx, hs⟩ := h
  refine ⟨?_, fun hm => FactMissing.not_pyFactIs hm x hx⟩
  rintro ⟨y, hy, hns⟩
  exact hns (hx.unique hy ▸ hs)

theorem LogicOutcome.eq_true_iff {facts : Json} {ts : List NumericalThreshold}
    {r : Except EvalError Bool} (h : LogicOutcome facts ts r) :
    r = .ok true ↔ ∀ t ∈ ts, PyPasses facts t := by
  cases h with
  | passes hall => exact iff_of_true rfl hall
  | breaches hts _ hb =>
    refine iff_of_false nofun fun hall => ?_
    exact (hall _ (by simp [hts])).not_breaches.1 hb
  | missing path hts _ hm =>
    refine iff_of_false nofun fun hall => ?_
    exact (hall _ (by simp [hts])).not_breaches.2 hm

/-- The tree is true exactly when the guard holds and every threshold passes for Python. -/
theorem evaluate_logic_true_iff {p : RegoParts} (hp : regoParts rule = .ok p) {jl : JsonLogicRule}
    (hjl : compileRuleToJsonlogic rule = .ok jl) (hn : NumericFacts (.obj facts)) :
    (evaluateJsonlogic (candidateInput e facts) jl.logic = .ok (.bool true) ↔
      GuardHolds rule e ∧ ∀ t ∈ rule.deterministicLogic, PyPasses (.obj facts) t) ∧
    ∀ message, evaluateJsonlogic (candidateInput e facts) jl.logic ≠
      .error (.unsupportedNode message) := by
  rcases evaluate_logic (e := e) hjl (exists_thresholdField hp) hn with
    ⟨hg, heval⟩ | ⟨hg, r, hout, heval⟩
  · rw [heval]
    exact ⟨iff_of_false (by simp) fun h => hg h.1, nofun⟩
  · rw [heval]
    refine ⟨?_, fun message herr => ?_⟩
    · rw [and_iff_right hg, ← hout.eq_true_iff]
      cases r with
      | error err => simp [Except.map]
      | ok b => simp [Except.map]
    · cases hout <;> cases herr

/-! ## Doubles and decimals -/

/-- A double below 2^53 is named exactly by its decimal. -/
theorem roundDouble_of_lt {n : Nat} (h : n < 2 ^ 53) : Decimal.roundDouble n = n := by
  have hlog : n.log2 - 52 = 0 := by
    by_cases hn : n = 0
    · subst hn
      decide
    · have := (Nat.log2_lt hn).2 h
      omega
  simp [Decimal.roundDouble, hlog, Nat.mod_one]

theorem pyNum_eq_num {j : Json} (h : ∀ d, j = .float d → d.isInteger = true →
    d.toRat.num.natAbs < 2 ^ 53) {x : Rat} (hx : j.num? = some x) : j.pyNum? = some x := by
  cases j <;> simp [Json.num?] at hx
  case int n => simp [Json.pyNum?, hx]
  case float d =>
    subst hx
    by_cases hd : d.isInteger = true
    · have hden : d.toRat.den = 1 := by simpa [Decimal.isInteger] using hd
      have hint : d.toInt = d.toRat.num := by
        rw [Decimal.toInt, roundDouble_of_lt (h d rfl hd), Int.sign_mul_natAbs]
      have hrat : (d.toRat.num : Rat) = d.toRat := Rat.coe_int_num_of_den_eq_one hden
      simp [Json.pyNum?, hd, hint, hrat]
    · simp [Json.pyNum?, hd]

/-- **On facts below 2^53 the two readings agree.** -/
theorem pyPasses_iff_of_small {facts : Json} (hn : NumericFacts facts)
    (h : ∀ f d, facts.get? f = some (.float d) → d.isInteger = true →
      d.toRat.num.natAbs < 2 ^ 53) (t : NumericalThreshold) :
    PyPasses facts t ↔ Passes facts t := by
  have hfact : ∀ x, PyFactIs facts t x ↔ FactIs facts t x := by
    intro x
    constructor
    · rintro ⟨f, j, hf, hj, hx⟩
      obtain ⟨y, hy⟩ := hn f j hj
      have hpy := pyNum_eq_num (fun d hd => h f d (hd ▸ hj)) hy
      exact ⟨f, j, hf, hj, hy.trans (hpy.symm.trans hx)⟩
    · rintro ⟨f, j, hf, hj, hx⟩
      exact ⟨f, j, hf, hj, pyNum_eq_num (fun d hd => h f d (hd ▸ hj)) hx⟩
  simp only [PyPasses, Passes, hfact]

/-- **The two forms of a rule agree on an input exactly when**, should the guard hold, the facts
satisfy all thresholds as doubles exactly when they do as decimals. -/
theorem truth_table_iff (opa : Opa) (rule : ExtractedComplianceRule) (ruleVersion : Int)
    (generatedAt : DateTime) (rego : CompiledRego) (jl : JsonLogicRule) (e : String)
    (facts : List (String × Json)) (hrego : compileRuleToRego rule ruleVersion generatedAt = .ok rego)
    (hjl : compileRuleToJsonlogic rule = .ok jl) (hn : NumericFacts (.obj facts))
    (hopa : opa.FollowsRego rule ruleVersion generatedAt) (hplain : PlainTexts rule) :
    TruthTable opa rego.regoCode jl.logic (candidateInput e facts) ↔
      (GuardHolds rule e →
        ((∀ t ∈ rule.deterministicLogic, PyPasses (.obj facts) t) ↔
          ∀ t ∈ rule.deterministicLogic, Passes (.obj facts) t)) := by
  obtain ⟨p, hp, rfl⟩ := map_ok_iff.1 hrego
  have hallow := hopa hplain p hp "allow" (candidateInput e facts)
  rw [query_allow (partsOf hp) rfl rfl hn] at hallow
  have htrue : opa.eval (compiledRego rule ruleVersion generatedAt p).regoCode "allow"
      (candidateInput e facts) = .value (.bool true) ↔ Allows rule e (.obj facts) := by
    rw [hallow]
    simp
  obtain ⟨hiff, hsupported⟩ := evaluate_logic_true_iff (e := e) hp hjl hn
  have hagree : (evaluateJsonlogic (candidateInput e facts) jl.logic = .ok (.bool true) ↔
      opa.eval (compiledRego rule ruleVersion generatedAt p).regoCode "allow"
        (candidateInput e facts) = .value (.bool true)) ↔
      (GuardHolds rule e →
        ((∀ t ∈ rule.deterministicLogic, PyPasses (.obj facts) t) ↔
          ∀ t ∈ rule.deterministicLogic, Passes (.obj facts) t)) := by
    rw [hiff, htrue, Allows, and_congr_right_iff]
  rw [← hagree]
  exact ⟨fun h => h.agree, fun h => ⟨h, hsupported, validateJsonLogicAst_compiled hjl "$"⟩⟩

end

/-! ## A net worth rule -/

/-- A net worth of exactly this value. -/
def netWorthRule (value : Decimal) : ExtractedComplianceRule where
  ruleId := "RULE-2"
  sourceSha256 := "c3"
  circularNumber := some "SEBI/HO/2"
  clauseNumber := some "3.1"
  deterministicLogic :=
    [{ metric := "net worth"
       canonicalFact := some "net_worth_inr_crore"
       operator := .eq
       value := value
       unit := "crore" }]
  obligationType := .mandatory
  canonicalFactsDigest := some "d2"

/-- An OPA that holds the module of one policy. -/
def opaHolding (P : CompiledPolicy) : Opa where
  eval regoCode name input :=
    if regoCode = P.compiled.regoCode then P.emitted.query sprintfVerbs input name else .undefined
  sprintf := sprintfVerbs

theorem followsRego_opaHolding (P : CompiledPolicy) :
    (opaHolding P).FollowsRego P.rule P.ruleVersion P.generatedAt := by
  intro _ p hp name input
  obtain rfl : P.parts = p := Except.ok.inj (P.compiles.symm.trans hp)
  exact if_pos rfl

def netWorthPolicy (value : Decimal) : CompiledPolicy where
  rule := netWorthRule value
  ruleVersion := 1
  generatedAt := .ofInstant 2 (by decide)
  parts := (regoParts (netWorthRule value)).toOption.get rfl
  compiles := eq_ok_get rfl

theorem plainTexts_netWorthRule (value : Decimal) : PlainTexts (netWorthRule value) := by
  -- the value is written as a number, so one value stands for all
  have h : PlainTexts (netWorthRule hundred) :=
    { path := by decide +kernel
      comments := by decide +kernel
      literals := by decide +kernel }
  exact ⟨h.path, h.comments, h.literals⟩

/-- The facts of one net worth. -/
def netWorthFacts (x : Json) : List (String × Json) := [("net_worth_inr_crore", x)]

def sixty : Decimal := ⟨6, 1, by decide⟩

/-- A net worth of 60 crore, given as an integer. -/
theorem truth_table_sixty :
    ∃ jl, compileRuleToJsonlogic (netWorthRule sixty) = .ok jl ∧
      TruthTable (opaHolding (netWorthPolicy sixty)) (netWorthPolicy sixty).compiled.regoCode jl.logic
        (candidateInput "Stockbroker" (netWorthFacts (.int 60))) := by
  have hjl := eq_ok_get
    (show (compileRuleToJsonlogic (netWorthRule sixty)).toOption.isSome = true from rfl)
  have hn : NumericFacts (.obj (netWorthFacts (.int 60))) := numericFacts_singleton _ rfl
  refine ⟨_, hjl, (truth_table_iff _ _ 1 (.ofInstant 2 (by decide)) _ _ _ _
    (netWorthPolicy sixty).compileRuleToRego_eq hjl hn (followsRego_opaHolding _)
    (plainTexts_netWorthRule _)).2 fun _ => ?_⟩
  refine forall₂_congr fun t _ => pyPasses_iff_of_small hn (fun f d hd => ?_) t
  by_cases hf : "net_worth_inr_crore" = f
  · simp [netWorthFacts, Json.get?, hf] at hd
  · simp [netWorthFacts, Json.get?, hf] at hd

def tenToThe23 : Decimal := ⟨1, 23, by decide⟩

/-- **A net worth of 10^23**, given as a double: the tree compares it with itself, the module says
`99999999999999991611392` and OPA reads the input as `1e+23`. -/
theorem truth_table_fails :
    ∃ jl, compileRuleToRego (netWorthRule tenToThe23) 1 (.ofInstant 2 (by decide)) =
        .ok (netWorthPolicy tenToThe23).compiled ∧
      compileRuleToJsonlogic (netWorthRule tenToThe23) = .ok jl ∧
      PlainTexts (netWorthRule tenToThe23) ∧
      (opaHolding (netWorthPolicy tenToThe23)).FollowsRego
        (netWorthRule tenToThe23) 1 (.ofInstant 2 (by decide)) ∧
      NumericFacts (.obj (netWorthFacts (.float tenToThe23))) ∧
      ¬ TruthTable (opaHolding (netWorthPolicy tenToThe23))
        (netWorthPolicy tenToThe23).compiled.regoCode jl.logic
        (candidateInput "Stockbroker" (netWorthFacts (.float tenToThe23))) := by
  have hjl := eq_ok_get
    (show (compileRuleToJsonlogic (netWorthRule tenToThe23)).toOption.isSome = true from rfl)
  have hn : NumericFacts (.obj (netWorthFacts (.float tenToThe23))) := numericFacts_singleton _ rfl
  have hplain := plainTexts_netWorthRule tenToThe23
  have hopa := followsRego_opaHolding (netWorthPolicy tenToThe23)
  have hp := (netWorthPolicy tenToThe23).compiles
  refine ⟨_, (netWorthPolicy tenToThe23).compileRuleToRego_eq, hjl, hplain, hopa, hn, fun h => ?_⟩
  have hpasses : ∀ t ∈ (netWorthRule tenToThe23).deterministicLogic,
      PyPasses (.obj (netWorthFacts (.float tenToThe23))) t := by
    intro t ht
    rw [List.mem_singleton.1 ht]
    exact ⟨_, ⟨"net_worth_inr_crore", .float tenToThe23, rfl, rfl, pyNum_float _⟩, rfl⟩
  have htree := (evaluate_logic_true_iff (e := "Stockbroker") hp hjl hn).1.2 ⟨.inl rfl, hpasses⟩
  have hallow := (hopa hplain _ hp "allow" _).symm.trans (h.agree.1 htree)
  rw [query_allow (partsOf hp) rfl rfl hn] at hallow
  have hallows : Allows (netWorthPolicy tenToThe23).rule "Stockbroker"
      (.obj (netWorthFacts (.float tenToThe23))) := by simpa using hallow
  obtain ⟨x, hx, hs⟩ := hallows.2 _ (List.mem_singleton_self _)
  have heq := hx.unique ⟨"net_worth_inr_crore", .float tenToThe23, rfl, rfl, rfl⟩
  have hbound : tenToThe23.toRat = bound tenToThe23 := heq.symm.trans hs
  exact absurd hbound (by decide +kernel)

end RegEngine.Backtest
