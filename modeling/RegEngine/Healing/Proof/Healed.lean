import RegEngine.Healing.SelfHealing

/-!
# What a healed policy was tested on

A loop over a sequence of suggestions heals at the first that is not tried in vain (`rounds_healed_iff`), and its
rule was run on every test case just when that suggestion has a tree and the failure has a schema
(`healsTested_iff`). Every run of the loop is one over the sequence of its suggestions (`exists_inTurn`).
-/

namespace RegEngine.Healing

open Lib Lib.Python Compiler Hitl Backtest

variable {crash : Logic → Json → String} {fixtures : List TestFixture} {maxRetries : Int} {failure : PolicyFailure}

/-- The suggestions of a sequence, one a round. -/
def inTurn (suggestions : Nat → RepairSuggestion × RepairStrategy) (_ : PolicyFailure)
    (priorAttempts : List RepairAttempt) : Option (RepairSuggestion × RepairStrategy) :=
  some (suggestions priorAttempts.length)

/-- A suggestion that ends the loop with a healed policy. -/
def Accepted (crash : Logic → Json → String) (fixtures : List TestFixture) (s : RepairSuggestion) : Prop :=
  s.canRepair = true ∧ passes crash fixtures s = true

/-- A suggestion after which the loop goes on. -/
def Retried (crash : Logic → Json → String) (fixtures : List TestFixture) (s : RepairSuggestion) : Prop :=
  s.canRepair = true ∧ passes crash fixtures s = false

/-- The test cases ran on a rule, and it passed them. -/
structure RanOn (crash : Logic → Json → String) (fixtures : List TestFixture) (logic : Logic)
    (results : List TestCaseResult) : Prop where
  exactly : results = runIsolatedTestCases crash logic fixtures
  passed : ∀ t ∈ results, t.passed = true
  evaluated : ∀ f ∈ fixtures, ∃ value, evaluateJsonlogic f.input (.obj logic) = .ok value ∧
    value.truthy = f.expectAllow.truthy

/-- The final compilation has a rule that passed its tests, within the budget. -/
structure Tested (crash : Logic → Json → String) (fixtures : List TestFixture) (maxRetries : Int)
    (result : SelfHealingResult) : Prop where
  rule : ∃ compilation ∈ result.finalCompilation, ∃ jl ∈ compilation.jsonLogic, ∃ logic, jl.logic = .obj logic ∧
    ∃ attempt ∈ result.attempts.getLast?, RanOn crash fixtures logic attempt.testResults
  withinBudget : (result.attempts.length : Int) ≤ maxRetries

/-- A policy that is healed was tested. -/
def HealsTested (crash : Logic → Json → String)
    (repair : PolicyFailure → List RepairAttempt → Option (RepairSuggestion × RepairStrategy)) (maxRetries : Int)
    (failure : PolicyFailure) (fixtures : List TestFixture) : Prop :=
  ∀ result, heal crash repair maxRetries failure fixtures = some result → result.outcome = .healed →
    Tested crash fixtures maxRetries result

/-! ## The test cases -/

theorem runFixture_passed {logic : Logic} {f : TestFixture} (h : (runFixture crash logic f).passed = true) :
    ∃ value, evaluateJsonlogic f.input (.obj logic) = .ok value ∧ value.truthy = f.expectAllow.truthy := by
  unfold runFixture at h
  cases heval : evaluateJsonlogic f.input (.obj logic) with
  | error e =>
    rw [heval] at h
    cases h
  | ok value =>
    rw [heval] at h
    by_cases hexpected : value.truthy = f.expectAllow.truthy
    · exact ⟨value, rfl, hexpected⟩
    · dsimp only at h
      rw [if_neg hexpected] at h
      cases h

/-- On an invalid tree no test case passes. -/
theorem ranOn_of_passed {logic : Logic}
    (h : ∀ t ∈ runIsolatedTestCases crash logic fixtures, t.passed = true) :
    RanOn crash fixtures logic (runIsolatedTestCases crash logic fixtures) := by
  refine ⟨rfl, h, fun f hf => ?_⟩
  unfold runIsolatedTestCases at h
  cases hvalid : validateJsonLogicAst "$" (.obj logic) with
  | error message =>
    rw [hvalid] at h
    cases h _ (List.mem_map_of_mem hf)
  | ok u =>
    rw [hvalid] at h
    exact runFixture_passed (h _ (List.mem_map_of_mem hf))

/-! ## The loop -/

section Rounds

variable {suggestions : Nat → RepairSuggestion × RepairStrategy} {i : Nat} {attempts : List RepairAttempt}

theorem rounds_declined (left : Nat) (current : PolicyFailure) (hi : attempts.length = i)
    (h : (suggestions i).1.canRepair = false) :
    ∃ attempt, rounds crash (inTurn suggestions) fixtures (left + 1) i current attempts =
      some (.escalatedUnfixable, attempts ++ [attempt]) := by
  unfold rounds inTurn
  rw [hi, Option.bind_some]
  dsimp only
  rw [h, if_pos (by decide)]
  exact ⟨_, rfl⟩

theorem rounds_accepted (left : Nat) (current : PolicyFailure) (hi : attempts.length = i)
    (h : Accepted crash fixtures (suggestions i).1) :
    rounds crash (inTurn suggestions) fixtures (left + 1) i current attempts =
      some (.healed, attempts ++ [attemptOf crash fixtures (i + 1) (suggestions i).1 (suggestions i).2]) := by
  have hpassed : (attemptOf crash fixtures (i + 1) (suggestions i).1 (suggestions i).2).passedTests = true := h.2
  unfold rounds inTurn
  rw [hi, Option.bind_some]
  dsimp only
  rw [h.1, if_neg (by decide), if_pos hpassed]

/-- A round that is tried in vain leaves one more attempt. -/
theorem rounds_retried (left : Nat) (current : PolicyFailure) (hi : attempts.length = i)
    (h : Retried crash fixtures (suggestions i).1) :
    ∃ next attempt, rounds crash (inTurn suggestions) fixtures (left + 1) i current attempts =
      rounds crash (inTurn suggestions) fixtures left (i + 1) next (attempts ++ [attempt]) := by
  have hpassed : (attemptOf crash fixtures (i + 1) (suggestions i).1 (suggestions i).2).passedTests = false := h.2
  rw [rounds, inTurn, hi, Option.bind_some]
  dsimp only
  rw [h.1, if_neg (by decide), hpassed, if_neg (by decide)]
  exact ⟨_, _, rfl⟩

theorem length_snoc {attempt : RepairAttempt} (hi : attempts.length = i) :
    (attempts ++ [attempt]).length = i + 1 := by
  rw [List.length_append, hi, List.length_singleton]

/-- The first suggestion that is not retried is accepted. -/
theorem rounds_of_accepted {left n : Nat} (current : PolicyFailure) (hi : attempts.length = i) (hin : i ≤ n) (hn : n < i + left)
    (hretried : ∀ m, i ≤ m → m < n → Retried crash fixtures (suggestions m).1)
    (haccepted : Accepted crash fixtures (suggestions n).1) :
    ∃ before, rounds crash (inTurn suggestions) fixtures left i current attempts =
      some (.healed, before ++ [attemptOf crash fixtures (n + 1) (suggestions n).1 (suggestions n).2]) := by
  induction left generalizing i current attempts with
  | zero => omega
  | succ left ih =>
    by_cases heq : n = i
    · rw [heq] at haccepted ⊢
      exact ⟨attempts, rounds_accepted left current hi haccepted⟩
    · obtain ⟨next, attempt, hstep⟩ := rounds_retried left current hi
        (hretried i le_rfl (by omega))
      rw [hstep]
      exact ih _ (length_snoc hi) (by omega) (by omega) fun m hm => hretried m (by omega)

/-- A healed policy is that of an accepted suggestion. -/
theorem accepted_of_rounds {left : Nat} {current : PolicyFailure} {as : List RepairAttempt} (hi : attempts.length = i)
    (h : rounds crash (inTurn suggestions) fixtures left i current attempts = some (.healed, as)) :
    ∃ n before, i ≤ n ∧ n < i + left ∧ (∀ m, i ≤ m → m < n → Retried crash fixtures (suggestions m).1) ∧
      Accepted crash fixtures (suggestions n).1 ∧ as.length = n + 1 ∧
      as = before ++ [attemptOf crash fixtures (n + 1) (suggestions n).1 (suggestions n).2] := by
  induction left generalizing i current attempts with
  | zero => cases h
  | succ left ih =>
    cases hrepair : (suggestions i).1.canRepair with
    | false =>
      obtain ⟨attempt, hstep⟩ := rounds_declined left current hi hrepair
      rw [hstep] at h
      cases h
    | true =>
      cases hpasses : passes crash fixtures (suggestions i).1 with
      | true =>
        have haccepted : Accepted crash fixtures (suggestions i).1 := ⟨hrepair, hpasses⟩
        rw [rounds_accepted left current hi haccepted] at h
        obtain rfl := congrArg Prod.snd (Option.some.inj h)
        exact ⟨i, attempts, le_rfl, by omega, fun m h1 h2 => by omega, haccepted, length_snoc hi, rfl⟩
      | false =>
        have hretried : Retried crash fixtures (suggestions i).1 := ⟨hrepair, hpasses⟩
        obtain ⟨next, attempt, hstep⟩ := rounds_retried left current hi hretried
        rw [hstep] at h
        obtain ⟨n, before, hin, hn, hearlier, hrest⟩ := ih (length_snoc hi) h
        refine ⟨n, before, by omega, by omega, fun m hm hmn => ?_, hrest⟩
        by_cases heq : m = i
        · rwa [heq]
        · exact hearlier m (by omega) hmn

/-- The suggestions of the rounds before do not matter. -/
theorem rounds_inTurn_congr {others : Nat → RepairSuggestion × RepairStrategy} {left : Nat} {current : PolicyFailure}
    (hi : attempts.length = i) (h : ∀ n, i ≤ n → others n = suggestions n) :
    rounds crash (inTurn others) fixtures left i current attempts =
      rounds crash (inTurn suggestions) fixtures left i current attempts := by
  induction left generalizing i current attempts with
  | zero => rfl
  | succ left ih =>
    have hfirst : inTurn others current attempts = inTurn suggestions current attempts := by
      unfold inTurn
      rw [hi, h i le_rfl]
    rw [rounds, rounds, hfirst]
    congr 1
    funext p
    dsimp only
    rw [ih (length_snoc hi) fun n hn => h n (by omega)]

/-- A run whose suggestions depend on the failure is one over a sequence. -/
theorem exists_rounds_inTurn
    {repair : PolicyFailure → List RepairAttempt → Option (RepairSuggestion × RepairStrategy)} {left : Nat}
    {current : PolicyFailure} {result : HealingOutcome × List RepairAttempt} (hi : attempts.length = i)
    (h : rounds crash repair fixtures left i current attempts = some result) :
    ∃ suggestions, rounds crash (inTurn suggestions) fixtures left i current attempts = some result := by
  induction left generalizing i current attempts with
  | zero => exact ⟨fun _ => (⟨false, none, none, ""⟩, .unfixable), h⟩
  | succ left ih =>
    rw [rounds] at h
    obtain ⟨p, hrepair, h⟩ := Option.bind_eq_some_iff.1 h
    dsimp only at h
    have hstep : ∀ suggestions : Nat → RepairSuggestion × RepairStrategy, suggestions i = p →
        inTurn suggestions current attempts = some p := by
      intro suggestions hp
      unfold inTurn
      rw [hi, hp]
    by_cases hdeclined : (!p.1.canRepair) = true
    · refine ⟨fun _ => p, ?_⟩
      rw [rounds, hstep _ rfl, Option.bind_some]
      dsimp only
      rw [if_pos hdeclined] at h ⊢
      exact h
    · by_cases hpassed : (attemptOf crash fixtures (i + 1) p.1 p.2).passedTests = true
      · refine ⟨fun _ => p, ?_⟩
        rw [rounds, hstep _ rfl, Option.bind_some]
        dsimp only
        rw [if_neg hdeclined, if_pos hpassed] at h ⊢
        exact h
      · rw [if_neg hdeclined, if_neg hpassed] at h
        obtain ⟨suggestions, hrest⟩ := ih (length_snoc hi) h
        refine ⟨Function.update suggestions i p, ?_⟩
        rw [rounds, hstep _ (Function.update_self ..), Option.bind_some]
        dsimp only
        have hlater : ∀ n, i + 1 ≤ n → Function.update suggestions i p n = suggestions n := by
          intro n hn
          exact Function.update_of_ne (by omega) _ _
        rw [if_neg hdeclined, if_neg hpassed, rounds_inTurn_congr (length_snoc hi) hlater]
        exact hrest

end Rounds

/-! ## The healed policy -/

/-- The rule of a healed compilation. -/
theorem jsonLogic_healed {attempt : RepairAttempt} {schema : List (String × String)}
    (hlogic : truthyLogic attempt.repairedJsonLogic = true) (hschema : failure.dataSchema = some schema) :
    ∃ jl, (buildHealedCompilation failure attempt).1.jsonLogic = some jl ∧
      jl.logic = .obj (attempt.repairedJsonLogic.getD []) := by
  unfold buildHealedCompilation
  dsimp only
  rw [if_pos hlogic, hschema]
  exact ⟨_, rfl, rfl⟩

theorem of_jsonLogic_healed {attempt : RepairAttempt} {jl : JsonLogicRule}
    (h : (buildHealedCompilation failure attempt).1.jsonLogic = some jl) :
    truthyLogic attempt.repairedJsonLogic = true ∧ failure.dataSchema ≠ none := by
  unfold buildHealedCompilation at h
  dsimp only at h
  by_cases hlogic : truthyLogic attempt.repairedJsonLogic = true
  · rw [if_pos hlogic] at h
    refine ⟨hlogic, fun hschema => ?_⟩
    rw [hschema] at h
    cases h
  · rw [if_neg hlogic] at h
    cases h

/-- What is healed with a tree ran on it. -/
theorem ranOn_of_accepted {s : RepairSuggestion} (hfixtures : fixtures ≠ []) (h : Accepted crash fixtures s)
    (hlogic : truthyLogic s.repairedJsonLogic = true) :
    RanOn crash fixtures (s.repairedJsonLogic.getD [])
      (validateRepair crash s.repairedRego s.repairedJsonLogic fixtures).1 := by
  have hresults : (validateRepair crash s.repairedRego s.repairedJsonLogic fixtures).1 =
      runIsolatedTestCases crash (s.repairedJsonLogic.getD []) fixtures := by
    unfold validateRepair
    exact if_pos ⟨hlogic, hfixtures⟩
  have hpasses := h.2
  unfold passes at hpasses
  dsimp only at hpasses
  rw [Bool.and_eq_true, Bool.or_eq_true, hresults, List.all_eq_true] at hpasses
  rw [hresults]
  exact ranOn_of_passed (hpasses.2.resolve_left fun h => hfixtures (List.isEmpty_iff.1 h))

theorem heal_of_rounds {repair : PolicyFailure → List RepairAttempt → Option (RepairSuggestion × RepairStrategy)}
    {before : List RepairAttempt} {attempt : RepairAttempt}
    (h : rounds crash repair fixtures maxRetries.toNat 0 failure [] = some (.healed, before ++ [attempt])) :
    heal crash repair maxRetries failure fixtures =
      some ⟨failure.ruleId, .healed, before ++ [attempt], some (buildHealedCompilation failure attempt).1,
        some (buildHealedCompilation failure attempt).2⟩ := by
  unfold heal
  rw [h, Option.map_some]
  dsimp only
  rw [List.getLast?_concat]
  rfl

theorem rounds_of_heal {repair : PolicyFailure → List RepairAttempt → Option (RepairSuggestion × RepairStrategy)}
    {result : SelfHealingResult} (h : heal crash repair maxRetries failure fixtures = some result)
    (houtcome : result.outcome = .healed) :
    ∃ attempts, rounds crash repair fixtures maxRetries.toNat 0 failure [] = some (.healed, attempts) := by
  unfold heal at h
  obtain ⟨r, hrounds, rfl⟩ := Option.map_eq_some_iff.1 h
  obtain ⟨outcome, attempts⟩ := r
  obtain rfl : outcome = .healed := houtcome
  exact ⟨attempts, hrounds⟩

theorem exists_inTurn {repair : PolicyFailure → List RepairAttempt → Option (RepairSuggestion × RepairStrategy)}
    {result : SelfHealingResult} (h : heal crash repair maxRetries failure fixtures = some result) :
    ∃ suggestions, heal crash (inTurn suggestions) maxRetries failure fixtures = some result := by
  unfold heal at h
  obtain ⟨r, hrounds, hresult⟩ := Option.map_eq_some_iff.1 h
  obtain ⟨suggestions, hrounds⟩ := exists_rounds_inTurn List.length_nil hrounds
  refine ⟨suggestions, ?_⟩
  unfold heal
  rw [hrounds, Option.map_some, hresult]

/-- **A healed policy was tested** just when the suggestion that is accepted has a tree, and the failure a schema. -/
theorem healsTested_iff (suggestions : Nat → RepairSuggestion × RepairStrategy) (hfixtures : fixtures ≠ []) :
    HealsTested crash (inTurn suggestions) maxRetries failure fixtures ↔
      ∀ n : Nat, n < maxRetries → (∀ m < n, Retried crash fixtures (suggestions m).1) →
        Accepted crash fixtures (suggestions n).1 →
        truthyLogic (suggestions n).1.repairedJsonLogic = true ∧ failure.dataSchema ≠ none := by
  constructor
  · intro h n hn hretried haccepted
    obtain ⟨before, hrounds⟩ := rounds_of_accepted failure
      (List.length_nil : ([] : List RepairAttempt).length = 0) (Nat.zero_le n)
      (by omega : n < 0 + maxRetries.toNat) (fun m _ => hretried m) haccepted
    have hheal := heal_of_rounds hrounds
    obtain ⟨compilation, hcompilation, jl, hjl, -⟩ := (h _ hheal rfl).rule
    obtain rfl := Option.some.inj hcompilation
    exact of_jsonLogic_healed hjl
  · intro h result hheal houtcome
    obtain ⟨attempts, hrounds⟩ := rounds_of_heal hheal houtcome
    obtain ⟨n, before, -, hn, hretried, haccepted, hlength, hlast⟩ :=
      accepted_of_rounds (List.length_nil : ([] : List RepairAttempt).length = 0) hrounds
    obtain ⟨hlogic, hschema⟩ := h n (by omega) (fun m hm => hretried m (Nat.zero_le m) hm) haccepted
    obtain ⟨schema, hschema⟩ := Option.ne_none_iff_exists'.1 hschema
    rw [hlast] at hrounds
    rw [heal_of_rounds hrounds] at hheal
    obtain rfl := Option.some.inj hheal
    have hrule : ∃ jl, (buildHealedCompilation failure (attemptOf crash fixtures (n + 1) (suggestions n).1
        (suggestions n).2)).1.jsonLogic = some jl ∧ jl.logic = .obj ((suggestions n).1.repairedJsonLogic.getD []) :=
      jsonLogic_healed hlogic hschema
    obtain ⟨jl, hjl, hobj⟩ := hrule
    refine ⟨⟨_, rfl, jl, hjl, _, hobj, _, List.getLast?_concat, ranOn_of_accepted hfixtures haccepted hlogic⟩, ?_⟩
    show ((before ++ [_]).length : Int) ≤ maxRetries
    rw [← hlast, hlength]
    omega

def netWorthTree : Logic := [(">=", .arr [varNode "facts.net_worth_inr_crore", .int 5])]

def netWorthFixture : TestFixture :=
  ⟨"enough net worth", .obj [("facts", .obj [("net_worth_inr_crore", .int 5)])], .bool true⟩

theorem healsTested_netWorth :
    HealsTested (fun _ _ => "") (inTurn fun _ => (⟨true, none, some netWorthTree, "tree"⟩, .llmRepairAgent)) 3
      { ruleId := "r", dataSchema := some [], errorType := .runtimeCrash, errorMessage := "" } [netWorthFixture] :=
  (healsTested_iff _ (List.cons_ne_nil _ _)).2 fun _ _ _ _ => ⟨rfl, Option.some_ne_none _⟩

/-- What OPA's rejection of a module without a default leaves. -/
def undefaulted : PolicyFailure :=
  buildFailureFromOpaError "r" "package p\n\nallow if \x7b true \x7d" "rego_parse_error"

def defaulted : String := "package p\n\n\ndefault allow := false\nallow if \x7b true \x7d"

/-- The module gets its default, and is healed with no rule to test. -/
theorem not_forall_healsTested :
    ¬ ∀ float crash token llm maxRetries failure fixtures, fixtures ≠ [] →
      HealsTested crash (repairPolicy float token llm) maxRetries failure fixtures := by
  intro h
  have hrepair : ∃ note, repairPolicy .str none (fun _ _ => none) undefaulted [] =
      some (⟨true, some defaulted, none, note⟩, .deterministicFix) := ⟨_, rfl⟩
  obtain ⟨note, hrepair⟩ := hrepair
  have hpassed : (attemptOf (fun _ _ => "") [netWorthFixture] 1 ⟨true, some defaulted, none, note⟩
      .deterministicFix).passedTests = true := by
    have hvalid : validateRepair (fun _ _ => "") (some defaulted) none [netWorthFixture] = ([], []) := by rfl
    show passes _ _ _ = true
    unfold passes
    rw [hvalid]
    rfl
  have hrounds : rounds (fun _ _ => "") (repairPolicy .str none fun _ _ => none) [netWorthFixture] (3 : Int).toNat 0
      undefaulted [] = some (.healed, [] ++ [attemptOf (fun _ _ => "") [netWorthFixture] 1
        ⟨true, some defaulted, none, note⟩ .deterministicFix]) := by
    show rounds _ _ _ (2 + 1) 0 undefaulted [] = _
    rw [rounds, hrepair, Option.bind_some]
    dsimp only
    rw [if_neg (by decide), if_pos hpassed]
  obtain ⟨compilation, hcompilation, jl, hjl, -⟩ := (h .str (fun _ _ => "") none (fun _ _ => none) 3 undefaulted
    [netWorthFixture] (List.cons_ne_nil _ _) _ (heal_of_rounds hrounds) rfl).rule
  obtain rfl := Option.some.inj hcompilation
  exact (of_jsonLogic_healed hjl).2 rfl

end RegEngine.Healing
