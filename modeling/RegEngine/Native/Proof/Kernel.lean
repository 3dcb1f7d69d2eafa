import RegEngine.Native.Proof.Flatten
import RegEngine.Native.Proof.RoundTrip
import RegEngine.Native.PybindModule

/-!
# The kernel against JSON-Logic

The packed policy of a rule is accepted, and on exact numbers the binding finds it true when the guard
holds and every threshold passes under its whole name. JSON-Logic takes a name with a `.` in it for a
path, so the two differ on the rules that have such a name, exactly where the kernel says true.

* `packPolicy_loads`: the packed policy is accepted, with the checks of its comparisons.
* `evaluateFacts_true_iff`: when the binding finds it true.
* `kernel_agrees_iff`: when that is the answer of `evaluate_jsonlogic`.
-/

namespace RegEngine.Native

open Lib Lib.Python Lib.Rego Lib.Except Compiler Backtest

/-! ## Packing -/

/-- Two lists that correspond satisfy corresponding properties. -/
theorem forall_mem_iff_of_forall₂ {α β : Type} {R : α → β → Prop} {P : α → Prop} {Q : β → Prop}
    {l : List α} {m : List β} (h : List.Forall₂ R l m) (hPQ : ∀ a ∈ l, ∀ b ∈ m, R a b → (P a ↔ Q b)) :
    (∀ a ∈ l, P a) ↔ ∀ b ∈ m, Q b := by
  induction h with
  | nil => simp
  | @cons a b l m hab _ ih =>
    have htail := ih fun a' ha b' hb =>
      hPQ a' (List.mem_cons_of_mem _ ha) b' (List.mem_cons_of_mem _ hb)
    rw [List.forall_mem_cons, List.forall_mem_cons, htail,
      hPQ a List.mem_cons_self b List.mem_cons_self hab]

theorem exists_left_of_forall₂ {α β : Type} {R : α → β → Prop} {l : List α} {m : List β}
    (h : List.Forall₂ R l m) : ∀ b ∈ m, ∃ a ∈ l, R a b := by
  refine (forall_mem_iff_of_forall₂ (P := fun a => a ∈ l) h fun a ha b _ hab => ?_).1 fun _ ha => ha
  exact iff_of_true ha ⟨a, ha, hab⟩

theorem Packs.slot_lt {packing : Packing} {cs : List Comparison} (h : Packs packing cs) :
    ∀ check ∈ packing.checks, check.slot < kMaxFactSlots := by
  intro check hcheck
  obtain ⟨c, -, hc⟩ := exists_left_of_forall₂ h.checks check hcheck
  exact Nat.lt_of_lt_of_le (packing.resolver.slot_lt hc.slot) packing.resolver.bounded

theorem Packs.code_lt {packing : Packing} {cs : List Comparison} (h : Packs packing cs) :
    ∀ check ∈ packing.checks, check.code < 256 := by
  intro check hcheck
  obtain ⟨c, -, hc⟩ := exists_left_of_forall₂ h.checks check hcheck
  rw [hc.code]
  cases c.operator <;> decide

/-! ## Filling in the values -/

theorem castDouble_exact {facts : List (String × Json)} (hfacts : ExactFacts facts) {f : String}
    {j : Json} (hj : (Json.obj facts).get? f = some j) {x : Rat} (hx : j.num? = some x) :
    castDouble j = .ok (.ofRat x) := by
  obtain ⟨y, hy, hexact⟩ := hfacts f j hj
  rw [hx] at hy
  cases hy
  cases j with
  | int n =>
    cases hx
    exact if_neg (Binary64.exponent_ofRat hexact)
  | float d =>
    cases hx
    rfl
  | null => cases hx
  | bool _ => cases hx
  | str _ => cases hx
  | arr _ => cases hx
  | obj _ => cases hx

/-- **The loop over the slots**: it notes whether every fact is there, and puts those that are in their
slots. -/
theorem fillValues_ok {facts : List (String × Json)} (hfacts : ExactFacts facts)
    {slots : List (String × Nat)} (values : List Binary64) (haveAll : Bool)
    (hdistinct : (slots.map (·.2)).Nodup) (hrange : ∀ p ∈ slots, p.2 < values.length) :
    ∃ values', fillValues facts slots values haveAll =
        .ok (values', haveAll && slots.all fun p => ((Json.obj facts).get? p.1).isSome) ∧
      (∀ p ∈ slots, ∀ j x, (Json.obj facts).get? p.1 = some j → j.num? = some x →
        values'[p.2]? = some (.ofRat x)) ∧
      ∀ i, i ∉ slots.map (·.2) → values'[i]? = values[i]? := by
  induction slots generalizing values haveAll with
  | nil => exact ⟨values, by simp [fillValues], by simp, fun _ _ => rfl⟩
  | cons p slots ih =>
    obtain ⟨name, slot⟩ := p
    obtain ⟨hslot, hrest⟩ := List.nodup_cons.1 hdistinct
    have hslotlt := hrange (name, slot) List.mem_cons_self
    have htail : ∀ p ∈ slots, p.2 < values.length := fun p hp => hrange p (List.mem_cons_of_mem _ hp)
    rw [fillValues]
    cases hget : (Json.obj facts).get? name with
    | none =>
      obtain ⟨values', hfill, hin, hout⟩ := ih values false hrest htail
      refine ⟨values', ?_, ?_, ?_⟩
      · simp [hfill, hget]
      · refine List.forall_mem_cons.2 ⟨fun j x hj => ?_, hin⟩
        rw [hget] at hj
        cases hj
      · exact fun i hi => hout i fun hmem => hi (List.mem_cons_of_mem _ hmem)
    | some j =>
      obtain ⟨x, hx, -⟩ := hfacts name j hget
      have hcast := castDouble_exact hfacts hget hx
      obtain ⟨values', hfill, hin, hout⟩ :=
        ih (values.set slot (.ofRat x)) haveAll hrest (by simpa using htail)
      refine ⟨values', ?_, ?_, ?_⟩
      · dsimp only
        rw [hcast]
        show fillValues facts slots (values.set slot (.ofRat x)) haveAll = _
        simp [hfill, hget]
      · refine List.forall_mem_cons.2 ⟨fun j' x' hj' hx' => ?_, hin⟩
        rw [hget] at hj'
        cases hj'
        rw [hx] at hx'
        cases hx'
        rw [hout slot hslot, List.getElem?_set_self hslotlt]
      · intro i hi
        rw [List.map_cons, List.mem_cons, not_or] at hi
        rw [hout i hi.2, List.getElem?_set_ne (Ne.symm hi.1)]

/-! ## Evaluation -/

/-- A check whose slot holds the fact's value comes to its comparison. -/
theorem satisfied_iff {slots : List (String × Nat)} {c : Comparison} {check : PackedCheck}
    (h : CheckOf slots c check) (hslot : check.slot < kMaxFactSlots) {x : Rat}
    (hx : Binary64.Exact x) (hvalue : Binary64.Exact c.value.toRat) :
    (check.toCheck hslot).satisfied (.ofRat x) = true ↔ c.operator.cmp.Rel x c.value.toRat := by
  obtain ⟨slot, code, value⟩ := check
  obtain rfl : code = operatorCode c.operator := h.code
  obtain rfl : value = .ofRat c.value.toRat := h.value
  obtain ⟨fact, operator, value, hne⟩ := c
  cases operator with
  | gte => exact Binary64.le_ofRat_iff hvalue hx
  | gt => exact Binary64.lt_ofRat_iff hvalue hx
  | lte => exact Binary64.le_ofRat_iff hx hvalue
  | lt => exact Binary64.lt_ofRat_iff hx hvalue
  | eq => exact Binary64.eq_ofRat_iff hx hvalue
  | range => exact absurd rfl hne

/-- The answer of the binding on a policy whose checks are those of a packing. -/
theorem evaluateFacts_packed {policy : PyCompiledPolicy} {packing : Packing} {cs : List Comparison}
    (h : Packs packing cs) (hchecks : policy.compiled.checks = packing.checks.pmap PackedCheck.toCheck h.slot_lt)
    (hslots : policy.fieldSlots = packing.resolver.slots)
    (hvalues : ∀ c ∈ cs, Binary64.Exact c.value.toRat) {e : String} {facts : List (String × Json)}
    (hfacts : ExactFacts facts) :
    policy.evaluateFacts ⟨some (.str e), some facts⟩ = .ok true ↔
      (policy.compiled.entityTypeHash = 0 ∨ policy.compiled.entityTypeHash = fnv1aHash (encode e)) ∧
        ∀ c ∈ cs, c.Holds facts := by
  have hdistinct : (policy.fieldSlots.map (·.2)).Nodup := by
    rw [hslots, packing.resolver.numbered]
    exact List.nodup_range
  obtain ⟨values, hfill, hin, -⟩ := fillValues_ok hfacts
    (List.replicate policy.fieldSlots.length (Binary64.ofRat 0)) true hdistinct
    (by simpa using policy.inRange)
  have heval : policy.evaluateFacts ⟨some (.str e), some facts⟩ =
      .ok (if policy.fieldSlots.all fun p => ((Json.obj facts).get? p.1).isSome then
        evaluateRaw policy.compiled values (fnv1aHash (encode e)) else false) := by
    unfold PyCompiledPolicy.evaluateFacts
    dsimp only
    rw [hfill]
    show (if (true && policy.fieldSlots.all _) then pure (evaluateRaw policy.compiled values _)
      else pure false) = _
    rw [Bool.true_and]
    split <;> rfl
  rw [heval, Except.ok.injEq]
  by_cases hall : (policy.fieldSlots.all fun p => ((Json.obj facts).get? p.1).isSome) = true
  · have hcheck : ∀ c ∈ cs, ∀ check ∈ packing.checks, CheckOf packing.resolver.slots c check →
        (c.Holds facts ↔ ∃ hslot value, values[check.slot]? = some value ∧
          (check.toCheck hslot).satisfied value = true) := by
      intro c hc check hmem hR
      have hslot := h.slot_lt check hmem
      have hpresent := List.all_eq_true.1 hall _ (hslots ▸ hR.slot)
      obtain ⟨j, hj⟩ := Option.isSome_iff_exists.1 hpresent
      obtain ⟨x, hx, hexact⟩ := hfacts _ j hj
      have hget := hin _ (hslots ▸ hR.slot) j x hj hx
      have hsat := satisfied_iff hR hslot hexact (hvalues c hc)
      constructor
      · rintro ⟨j', x', hj', hx', hrel⟩
        rw [hj] at hj'
        cases hj'
        rw [hx] at hx'
        cases hx'
        exact ⟨hslot, _, hget, hsat.2 hrel⟩
      · rintro ⟨_, value, hvalue, htrue⟩
        rw [hget] at hvalue
        cases hvalue
        exact ⟨j, x, hj, hx, hsat.1 htrue⟩
    rw [if_pos hall, evaluateRaw_eq_true_iff, hchecks, forall_mem_iff_of_forall₂ h.checks hcheck]
    apply and_congr_right'
    constructor
    · intro hraw check hmem
      exact ⟨h.slot_lt check hmem, hraw _ (List.mem_pmap.2 ⟨check, hmem, rfl⟩)⟩
    · intro hpacked check hmem
      obtain ⟨packed, hpackedMem, rfl⟩ := List.mem_pmap.1 hmem
      obtain ⟨hslot, hvalue⟩ := hpacked packed hpackedMem
      exact hvalue
  · rw [if_neg hall]
    refine iff_of_false (by decide) fun hholds => hall ?_
    rw [List.all_eq_true]
    intro p hp
    obtain ⟨c, hc, hfact⟩ := h.named p (hslots ▸ hp)
    obtain ⟨j, x, hj, -⟩ := hholds.2 c hc
    rw [← hfact, hj]
    rfl

/-! ## The kernel and the tree -/

/-- **The kernel finds the rule true** when the guard holds and every threshold passes under its whole
name. -/
theorem kernel_true_iff {rule : ExtractedComplianceRule} {jl : JsonLogicRule} {ruleId : String}
    {bytes : List UInt8} {slots : List (String × Nat)} (hjl : compileRuleToJsonlogic rule = .ok jl)
    (hpack : packPolicy ruleId jl.logic = .ok (bytes, slots)) (hrule : ExactThresholds rule)
    {e : String} (hhash : ∀ g ∈ guardEntities rule, fnv1a (encode e) = fnv1a (encode g) → e = g)
    {facts : List (String × Json)} (hfacts : ExactFacts facts) :
    ∃ policy, PyCompiledPolicy.new bytes slots (packPolicy_inRange hpack) = .ok policy ∧
      (loadPolicy bytes).1 = .ok ∧
      (policy.evaluateFacts ⟨some (.str e), some facts⟩ = .ok true ↔
        GuardHolds rule e ∧ ∀ t ∈ rule.deterministicLogic, WholePasses facts t) := by
  obtain ⟨hash, packing, hflatten, hid, hnum, hslots, hbytes⟩ := packPolicy_ok hpack
  obtain ⟨css, hcss, hpacks, hentity⟩ := flattenLogic_packs hjl hflatten
  have hlt : hash < 2 ^ 32 := by
    rcases hentity with ⟨-, rfl⟩ | ⟨g, -, rfl, -⟩
    · decide
    · exact fnv1a_lt _
  obtain ⟨hok, -, hentityHash, hchecks⟩ :=
    loadPolicy_packed hid hlt hnum hpacks.slot_lt hpacks.code_lt
  rw [← hbytes] at hok hentityHash hchecks
  have hnew : PyCompiledPolicy.new bytes slots (packPolicy_inRange hpack) =
      .ok ⟨(loadPolicy bytes).2, slots, packPolicy_inRange hpack⟩ := by
    unfold PyCompiledPolicy.new
    split
    · rename_i heq
      rw [heq]
    · rename_i hne heq
      rw [heq] at hok
      exact absurd hok hne
  refine ⟨_, hnew, hok, ?_⟩
  have hvalues : ∀ c ∈ css.flatten, Binary64.Exact c.value.toRat := by
    intro c hc
    obtain ⟨cs, hcs, hc⟩ := List.mem_flatten.1 hc
    obtain ⟨t, ht, hcomparisons⟩ := exists_left_of_forall₂ hcss cs hcs
    exact hcomparisons.exact (hrule t ht).1 (hrule t ht).2 c hc
  rw [evaluateFacts_packed hpacks hchecks hslots hvalues hfacts, hentityHash, List.forall_mem_flatten]
  apply and_congr
  · rcases hentity with ⟨hnil, rfl⟩ | ⟨g, hg, rfl, hne⟩
    · exact iff_of_true (.inl rfl) (.inl hnil)
    · have hzero : fnv1aHash (encode g) ≠ 0 := by
        intro h
        apply hne
        rw [fnv1a_eq, h]
        rfl
      rw [GuardHolds, hg, fnv1a_eq, UInt32.ofNat_toNat, List.mem_singleton, or_iff_right hzero,
        or_iff_right (List.cons_ne_nil g [])]
      constructor
      · intro h
        apply hhash g (hg ▸ List.mem_cons_self)
        rw [fnv1a_eq, fnv1a_eq, h]
      · intro h
        rw [h]
  · refine (forall_mem_iff_of_forall₂ hcss fun t ht cs _ hcs => ?_).symm
    exact (hcs.holds_iff (hrule t ht).1 (hrule t ht).2).symm

/-! ## The two evaluators -/

/-- The packed policy is accepted, and the binding says true exactly where `evaluate_jsonlogic` does. -/
def KernelAgrees (bytes : List UInt8) (slots : List (String × Nat))
    (inRange : ∀ p ∈ slots, p.2 < slots.length) (logic : Json) (e : String)
    (facts : List (String × Json)) : Prop :=
  ∃ policy, PyCompiledPolicy.new bytes slots inRange = .ok policy ∧ (loadPolicy bytes).1 = .ok ∧
    (policy.evaluateFacts ⟨some (.str e), some facts⟩ = .ok true ↔
      evaluateJsonlogic (candidateInput e facts) logic = .ok (.bool true))

/-- **The kernel computes the compiled rule** unless a canonical fact is a path and the document passes
the rule under the whole names. -/
theorem kernel_agrees_iff {rule : ExtractedComplianceRule} {jl : JsonLogicRule} {ruleId : String}
    {bytes : List UInt8} {slots : List (String × Nat)} (hjl : compileRuleToJsonlogic rule = .ok jl)
    (hpack : packPolicy ruleId jl.logic = .ok (bytes, slots)) (hrule : ExactThresholds rule)
    {e : String} (hhash : ∀ g ∈ guardEntities rule, fnv1a (encode e) = fnv1a (encode g) → e = g)
    {facts : List (String × Json)} (hfacts : ExactFacts facts) :
    KernelAgrees bytes slots (packPolicy_inRange hpack) jl.logic e facts ↔
      (∀ t ∈ rule.deterministicLogic, DotFree t) ∨
        ¬ (GuardHolds rule e ∧ ∀ t ∈ rule.deterministicLogic, WholePasses facts t) := by
  obtain ⟨policy, hnew, hok, htrue⟩ := kernel_true_iff hjl hpack hrule hhash hfacts
  have hlogic := evaluate_true_iff (e := e) hjl hrule hfacts
  constructor
  · rintro ⟨policy', hnew', -, hagrees⟩
    obtain rfl : policy = policy' := Except.ok.inj (hnew.symm.trans hnew')
    rw [htrue, hlogic] at hagrees
    by_cases hpass : GuardHolds rule e ∧ ∀ t ∈ rule.deterministicLogic, WholePasses facts t
    · exact .inl fun t ht => ((hagrees.1 hpass).2 t ht).1
    · exact .inr hpass
  · intro h
    refine ⟨policy, hnew, hok, ?_⟩
    rw [htrue, hlogic]
    constructor
    · intro hpass
      have hdots := h.resolve_right (not_not.2 hpass)
      exact ⟨hpass.1, fun t ht => ⟨hdots t ht, hpass.2 t ht⟩⟩
    · exact fun hall => ⟨hall.1, fun t ht => (hall.2 t ht).2⟩

/-! ## A rule on a fact whose name is a path -/

def fifty : Decimal := ⟨5, 1, Decimal.shortest_fifty⟩

theorem exact_fifty : Binary64.Exact fifty.toRat := by
  have hbits : (50 : Int).natAbs < 2 ^ 53 := by decide
  have hfifty : fifty.toRat = ((50 : Int) : Rat) := by rfl
  rw [hfifty]
  exact Binary64.exact_intCast hbits

/-- A floor of 50 % under the fact `client.margin`. -/
def floorRule : ExtractedComplianceRule where
  ruleId := "c:1"
  sourceSha256 := "c"
  deterministicLogic :=
    [{ metric := "client margin", canonicalFact := some "client.margin", operator := .gte,
       value := fifty, unit := "%", upperRequiresRange := no_valueUpper }]
  obligationType := .mandatory

def floorLogic : JsonLogicRule where
  ruleId := "c:1"
  logic := Compiler.node ">=" (.arr [varNode "facts.client.margin", .float fifty])
  dataSchema := [("entity_type", "string"), ("facts.client.margin", "number")]
  violationMessageTemplate :=
    "client margin is \x7bfacts.client.margin\x7d %, required to be >= 50.0 % (clause unscoped)"
  thresholdsCompiled := 1

def floorBytes : List UInt8 := packHeader 3 0 1 ++ encode "c:1" ++ packCheck ⟨0, 0, .ofRat fifty.toRat⟩

theorem compile_floorRule : compileRuleToJsonlogic floorRule = .ok floorLogic := by rfl

theorem flattenLogic_floor : flattenLogic floorLogic.logic =
    .ok (0, ⟨⟨[("client.margin", 0)], rfl, by simp, by decide⟩, [⟨0, 0, .ofRat fifty.toRat⟩]⟩) := by
  rfl

theorem packPolicy_floor :
    packPolicy "c:1" floorLogic.logic = .ok (floorBytes, [("client.margin", 0)]) := by
  have hid : (encode "c:1").length = 3 := by decide
  unfold packPolicy
  dsimp only
  rw [flattenLogic_floor, hid, if_neg (by decide)]
  rfl

theorem exactThresholds_floor : ExactThresholds floorRule := by
  intro t ht
  obtain rfl := List.mem_singleton.1 ht
  exact ⟨exact_fifty, fun u hu => by cases hu⟩

def floorFacts : List (String × Json) := [("client.margin", .int 60)]

theorem exactFacts_floor : ExactFacts floorFacts := by
  have hbits : (60 : Int).natAbs < 2 ^ 53 := by decide
  intro f j hj
  by_cases hf : "client.margin" = f
  · obtain rfl : Json.int 60 = j := by simpa [floorFacts, Json.get?, hf] using hj
    exact ⟨60, rfl, Binary64.exact_intCast hbits⟩
  · simp [floorFacts, Json.get?, hf] at hj

theorem guardEntities_floor : guardEntities floorRule = [] := by decide

theorem passes_floor : ∀ t ∈ floorRule.deterministicLogic, WholePasses floorFacts t := by
  intro t ht
  obtain rfl := List.mem_singleton.1 ht
  refine ⟨"client.margin", .int 60, 60, rfl, rfl, rfl, ?_⟩
  show bound fifty ≤ 60
  rw [bound_of_exact exact_fifty]
  decide +kernel

/-- A margin of 60 % passes the kernel, and JSON-Logic looks for a fact `client`. -/
theorem kernel_agrees_floor :
    KernelAgrees floorBytes [("client.margin", 0)] (packPolicy_inRange packPolicy_floor)
        floorLogic.logic "Stockbroker" floorFacts ↔
      (∀ t ∈ floorRule.deterministicLogic, DotFree t) ∨
        ¬ (GuardHolds floorRule "Stockbroker" ∧
          ∀ t ∈ floorRule.deterministicLogic, WholePasses floorFacts t) :=
  kernel_agrees_iff compile_floorRule packPolicy_floor exactThresholds_floor
    (by simp [guardEntities_floor]) exactFacts_floor

theorem not_forall_kernel_agrees :
    ¬ ∀ (rule : ExtractedComplianceRule) (jl : JsonLogicRule) (ruleId : String)
      (bytes : List UInt8) (slots : List (String × Nat)) (_ : compileRuleToJsonlogic rule = .ok jl)
      (hpack : packPolicy ruleId jl.logic = .ok (bytes, slots)) (e : String)
      (facts : List (String × Json)), ExactThresholds rule →
      (∀ g ∈ guardEntities rule, fnv1a (encode e) = fnv1a (encode g) → e = g) → ExactFacts facts →
      KernelAgrees bytes slots (packPolicy_inRange hpack) jl.logic e facts := by
  intro h
  have hhash : ∀ g ∈ guardEntities floorRule,
      fnv1a (encode "Stockbroker") = fnv1a (encode g) → "Stockbroker" = g := by
    simp [guardEntities_floor]
  obtain ⟨policy, hnew, -, hagrees⟩ := h floorRule floorLogic "c:1" _ _ compile_floorRule
    packPolicy_floor "Stockbroker" floorFacts exactThresholds_floor hhash exactFacts_floor
  obtain ⟨policy', hnew', -, htrue⟩ := kernel_true_iff compile_floorRule packPolicy_floor
    exactThresholds_floor hhash exactFacts_floor
  obtain rfl : policy = policy' := Except.ok.inj (hnew.symm.trans hnew')
  have hlogic := hagrees.1 (htrue.2 ⟨.inl guardEntities_floor, passes_floor⟩)
  have hraises : evaluateJsonlogic (candidateInput "Stockbroker" floorFacts) floorLogic.logic =
      .error (.missingFact "facts.client.margin") := by rfl
  rw [hraises] at hlogic
  cases hlogic

end RegEngine.Native
