import Mathlib.Data.List.Induction
import RegEngine.Execution.Proof.Reduce
import RegEngine.Flink.StreamProcessor

/-!
# The decision of the stream beside that of the API

On an answer with a result both count its violations (`resultViolations_of_engineReply`). Without a result
the stream allows. Once OPA has failed the stream goes by a rule on two facts, each with a default that
passes it.
-/

namespace RegEngine.Flink

open Lib Execution

variable {marginPct : Json → Json → Option Json} {validInt : Json → Option Int} {history : List Call}
  {call : Call} {offline : Bool}

/-- An evaluator with one policy, for which OPA gives this reply. -/
structure SolePolicy (E : Evaluator) (tx : TransactionPayload) (entry : PolicyEntry) (reply : OPAReply) :
    Prop where
  running : E.halted tx = false
  applicable : E.policiesFor tx.entityType = [entry]
  answers : E.opa entry.package (inputDoc tx) = reply

/-- OPA has failed on one of these calls. -/
def Failed (marginPct : Json → Json → Option Json) (calls : List Call) : Prop :=
  ∃ c ∈ calls, c.answer marginPct = some .httpError

/-- OPA, which has not failed before, answers the call with status 200 and this body. -/
def Answered (marginPct : Json → Json → Option Json) (history : List Call) (call : Call)
    (body : Option Json) : Prop :=
  ¬ Failed marginPct history ∧ call.answer marginPct = some (.response 200 body)

/-- OPA does not answer a call that can be put together, now or after an earlier failure. -/
def Unanswered (marginPct : Json → Json → Option Json) (history : List Call) (call : Call) : Prop :=
  (enrichedFacts marginPct call.event).isSome = true ∧ Failed marginPct (history ++ [call])

/-- The event lacks a fact that the fallback rule tests. -/
def Lacks (event : Event) : Prop :=
  (Json.obj event.facts).get? "upfront_margin_pct" = none ∨
    (Json.obj event.facts).get? "client_funds_segregated" = none

/-- The facts that are there pass the fallback rule. -/
def Passes (event : Event) : Prop :=
  (∀ v, (Json.obj event.facts).get? "upfront_margin_pct" = some v →
      ∃ order, v.pyCmp (.float ⟨2, 1, Decimal.shortest_twenty⟩) = some order ∧ order ≠ .lt) ∧
    ∀ v, (Json.obj event.facts).get? "client_funds_segregated" = some v → v.truthy = true

/-- The decision that is emitted for a call, if one is, is as cautious as that of the API. -/
structure Cautious (marginPct : Json → Json → Option Json) (validInt : Json → Option Int)
    (history : List Call) (call : Call) (offline : Bool) : Prop where
  agrees : ∀ emitted after body reply E tx entry,
    mapEvent marginPct call.opa offline call.event = some (emitted, after) →
    Answered marginPct history call body → engineReply validInt (.response 200 body) = some reply →
    SolePolicy E tx entry reply → emitted.decision = (E.evaluateTransaction tx).decision
  holdsBack : ∀ emitted after, mapEvent marginPct call.opa offline call.event = some (emitted, after) →
    Unanswered marginPct history call → Lacks call.event → emitted.decision ≠ .allow

/-! ## Facts -/

theorem getOr_assign_of_ne {fields : List (String × Json)} {key key' : String} (hne : key' ≠ key)
    (value default : Json) : getOr (assign fields key value) key' default = getOr fields key' default := by
  have hget : (Json.obj (assign fields key value)).get? key' = (Json.obj fields).get? key' := by
    unfold assign
    split
    · simp only [Json.get?]
      congr 1
      clear * - hne
      induction fields with
      | nil => rfl
      | cons f fields ih =>
        rw [List.map_cons, List.find?_cons, List.find?_cons, ih]
        by_cases hkey : f.1 = key
        · have hother : (key == key') = false := by simpa using hne.symm
          have hf : (f.1 == key') = false := by rw [hkey]; exact hother
          rw [if_pos hkey, hf]
          simp [hother]
        · rw [if_neg hkey]
    · simp [Json.get?, List.find?_append, hne.symm]
  rw [getOr, getOr, hget]

/-- The facts that the window adds are none that the rule tests. -/
theorem getOr_enrichedFacts {event : Event} {facts : List (String × Json)}
    (h : enrichedFacts marginPct event = some facts) {key : String}
    (hkey : key = "upfront_margin_pct" ∨ key = "client_funds_segregated") (default : Json) :
    getOr facts key default = getOr event.facts key default := by
  unfold enrichedFacts at h
  obtain ⟨pct, -, rfl⟩ := Option.map_eq_some_iff.1 h
  rw [getOr_assign_of_ne, getOr_assign_of_ne, getOr_assign_of_ne, getOr_assign_of_ne]
  all_goals cases hkey with
    | inl h => rw [h]; decide
    | inr h => rw [h]; decide

/-- The fallback rule allows just what passes it. -/
theorem fallback_allow_iff {event : Event} {facts : List (String × Json)}
    (h : enrichedFacts marginPct event = some facts) :
    (∃ d, fallback facts = some d ∧ d.decision = .allow) ↔ Passes event := by
  have htwenty : (Json.float ⟨2, 1, Decimal.shortest_twenty⟩).pyCmp (.float ⟨2, 1, Decimal.shortest_twenty⟩) = some .eq := by
    decide +kernel
  unfold fallback Passes
  rw [getOr_enrichedFacts h (.inl rfl), getOr_enrichedFacts h (.inr rfl)]
  constructor
  · intro h
    obtain ⟨d, hd, hallow⟩ := h
    obtain ⟨order, horder, rfl⟩ := Option.map_eq_some_iff.1 hd
    split at hallow
    · cases hallow
    · rename_i hpass
      refine ⟨fun v hv => ⟨order, ?_, fun hlt => hpass (.inl hlt)⟩, fun v hv => ?_⟩
      · rwa [getOr, hv, Option.getD_some] at horder
      · rw [getOr, hv, Option.getD_some] at hpass
        by_contra htruthy
        exact hpass (.inr (by simpa using htruthy))
  · intro h
    obtain ⟨hupfront, hsegregated⟩ := h
    have horder : ∃ order, (getOr event.facts "upfront_margin_pct" (.float ⟨2, 1, Decimal.shortest_twenty⟩)).pyCmp
        (.float ⟨2, 1, Decimal.shortest_twenty⟩) = some order ∧ order ≠ .lt := by
      unfold getOr
      cases hv : (Json.obj event.facts).get? "upfront_margin_pct" with
      | none => exact ⟨.eq, htwenty, by decide⟩
      | some v => exact hupfront v hv
    have htruthy : (getOr event.facts "client_funds_segregated" (.bool true)).truthy = true := by
      unfold getOr
      cases hv : (Json.obj event.facts).get? "client_funds_segregated" with
      | none => rfl
      | some v => exact hsegregated v hv
    obtain ⟨order, horder, hlt⟩ := horder
    refine ⟨⟨.allow, []⟩, ?_, rfl⟩
    simp only [horder, Option.map_some]
    rw [if_neg]
    simp [hlt, htruthy]

/-- A policy, and an evaluator that has it alone. -/
def soleEntry : PolicyEntry where
  ruleId := "RULE-1"
  package := "regengine.stockbroker"

def emptyTransaction : TransactionPayload := ⟨"tx", "Stockbroker", [], none⟩

def soleEvaluator (reply : OPAReply) : Evaluator where
  opa _ _ := reply
  policiesFor _ := [soleEntry]
  enqueue _ _ _ := ⟨"case-sole", by decide⟩
  killSwitch := none
  utcnow := ⟨0, none, by decide⟩

theorem solePolicy_soleEvaluator (reply : OPAReply) :
    SolePolicy (soleEvaluator reply) emptyTransaction soleEntry reply :=
  ⟨rfl, rfl, rfl⟩

/-! ## One answer -/

/-- A call is one query. -/
theorem mapEvent_eq_some_iff {opa : String → Json → SidecarAnswer} {event : Event} {emitted : Emitted}
    {after : Bool} (h : mapEvent marginPct opa offline event = some (emitted, after)) :
    ∃ facts d, enrichedFacts marginPct event = some facts ∧
      queryOpa opa offline (event.entityType.getD "Stockbroker") facts = some (d, after) ∧
      emitted.decision = d.decision := by
  unfold mapEvent at h
  obtain ⟨facts, hfacts, h⟩ := Option.bind_eq_some_iff.1 h
  obtain ⟨⟨d, off⟩, hquery, h⟩ := Option.bind_eq_some_iff.1 h
  cases h
  exact ⟨facts, d, hfacts, hquery, rfl⟩

theorem exists_mapEvent {opa : String → Json → SidecarAnswer} {event : Event}
    {facts : List (String × Json)} {d : StreamDecision} {after : Bool}
    (hfacts : enrichedFacts marginPct event = some facts)
    (hquery : queryOpa opa offline (event.entityType.getD "Stockbroker") facts = some (d, after)) :
    ∃ emitted, mapEvent marginPct opa offline event = some (emitted, after) ∧
      emitted.decision = d.decision := by
  unfold mapEvent
  rw [hfacts, Option.bind_eq_bind, Option.bind_some, hquery]
  exact ⟨_, rfl, rfl⟩

/-- The violations of a decision object are the list that the stream reads, each a text. -/
theorem readDecision_violations {fields : List (String × Json)} {d : OPADecision}
    (h : readDecision validInt fields = some d) :
    ∃ violations texts, violationList fields = some violations ∧ violations.mapM Json.str? = some texts ∧
      d.violations = some texts := by
  unfold readDecision at h
  obtain ⟨violations, hviolations, h⟩ := Option.bind_eq_some_iff.1 h
  obtain ⟨texts, htexts, h⟩ := Option.bind_eq_some_iff.1 h
  refine ⟨violations, texts, hviolations, htexts, ?_⟩
  obtain ⟨_, -, h⟩ := Option.bind_eq_some_iff.1 h
  obtain ⟨_, -, h⟩ := Option.bind_eq_some_iff.1 h
  split at h
  all_goals
    simp only [Option.bind_eq_bind, Option.bind_eq_some_iff] at h
    obtain ⟨_, -, _, -, _, -, _, -, _, -, _, -, h⟩ := h
    cases h
    rfl

theorem mapM_nil_iff {α β : Type} {f : α → Option β} {l : List α} {l' : List β} (h : l.mapM f = some l') :
    l' = [] ↔ l = [] := by
  cases l with
  | nil =>
    cases h
    exact iff_of_true rfl rfl
  | cons a l =>
    rw [List.mapM_cons] at h
    obtain ⟨b, -, h⟩ := Option.bind_eq_some_iff.1 h
    obtain ⟨bs, -, h⟩ := Option.bind_eq_some_iff.1 h
    cases h
    exact iff_of_false (List.cons_ne_nil _ _) (List.cons_ne_nil _ _)

/-- Both read the same violations off a result. -/
theorem resultViolations_of_engineReply {body : Option Json} {reply : OPAReply}
    (h : engineReply validInt (.response 200 body) = some reply) :
    ∃ violations, resultViolations body = some violations ∧
      (violations ≠ [] ↔ reply.violates = true) ∧ (reply.missing = true ↔ reply = .undefined) := by
  simp only [engineReply, if_true] at h
  cases body with
  | none => cases h
  | some j =>
    cases j with
    | obj fields =>
      unfold resultViolations
      cases hresult : getOr fields "result" .null with
      | null =>
        simp only [hresult] at h ⊢
        cases h
        exact ⟨[], rfl, by simp [OPAReply.violates], by simp [OPAReply.missing]⟩
      | obj result =>
        simp only [hresult] at h ⊢
        obtain ⟨d, hd, rfl⟩ := Option.map_eq_some_iff.1 h
        obtain ⟨violations, texts, hviolations, htexts, hd'⟩ := readDecision_violations hd
        refine ⟨violations, ?_, ?_, by simp [OPAReply.missing]⟩
        · cases result with
          | nil => cases hviolations; rfl
          | cons f result => exact hviolations
        · rw [OPAReply.violates, hd', Option.getD_some, decide_eq_true_iff, Ne, Ne, mapM_nil_iff htexts]
      | bool b => simp [hresult] at h
      | int n => simp [hresult] at h
      | float x => simp [hresult] at h
      | str s => simp [hresult] at h
      | arr l => simp [hresult] at h
    | null => cases h
    | bool b => cases h
    | int n => cases h
    | float x => cases h
    | str s => cases h
    | arr l => cases h

/-- An evaluator with one policy decides by its reply. -/
theorem decision_of_solePolicy {E : Evaluator} {tx : TransactionPayload} {entry : PolicyEntry}
    {reply : OPAReply} (h : SolePolicy E tx entry reply) :
    (E.evaluateTransaction tx).decision =
      if reply.violates = true then .deny else if reply.missing = true then .flagged else .allow := by
  rw [(evaluateTransaction_running h.running).1, reduce_eq, Evaluator.outcomes, h.applicable,
    List.map_singleton, h.answers]
  simp only [List.mem_singleton, exists_eq_left, policyOutcome_missing, policyOutcome_violates]

/-- The decision for a call on which OPA is not asked, or fails. -/
theorem queryOpa_of_failed {facts : List (String × Json)}
    (hfacts : enrichedFacts marginPct call.event = some facts)
    (h : offline = true ∨ call.answer marginPct = some .httpError) :
    queryOpa call.opa offline (call.event.entityType.getD "Stockbroker") facts =
      (fallback facts).map (·, true) := by
  unfold queryOpa
  cases offline with
  | true => rfl
  | false =>
    have herror := h.resolve_left (by decide)
    simp only [Call.answer, hfacts, Option.map_some, Option.some.injEq] at herror
    simp only [herror, Bool.false_eq_true, if_false]

/-- The decision for a call on which OPA answers. -/
theorem queryOpa_of_answered {facts : List (String × Json)}
    (hfacts : enrichedFacts marginPct call.event = some facts) {statusCode : Nat} {body : Option Json}
    (h : call.answer marginPct = some (.response statusCode body)) :
    queryOpa call.opa false (call.event.entityType.getD "Stockbroker") facts =
      if statusCode = 200 then
        (resultViolations body).map fun violations =>
          (⟨if violations ≠ [] then .deny else .allow, violations⟩, false)
      else some (⟨.flagged, [.str ("OPA server status " ++ toString statusCode)]⟩, false) := by
  simp only [Call.answer, hfacts, Option.map_some, Option.some.injEq] at h
  unfold queryOpa
  simp only [h, Bool.false_eq_true, if_false]

/-! ## A history -/

/-- A failure is remembered, and nothing else is. -/
theorem after_iff {emitted : Emitted} {after : Bool}
    (h : mapEvent marginPct call.opa offline call.event = some (emitted, after)) :
    after = true ↔ offline = true ∨ call.answer marginPct = some .httpError := by
  obtain ⟨facts, d, hfacts, hquery, -⟩ := mapEvent_eq_some_iff h
  by_cases hfailed : offline = true ∨ call.answer marginPct = some .httpError
  · rw [queryOpa_of_failed hfacts hfailed] at hquery
    obtain ⟨_, -, heq⟩ := Option.map_eq_some_iff.1 hquery
    cases heq
    exact iff_of_true rfl hfailed
  · obtain ⟨hoffline, hanswer⟩ := not_or.1 hfailed
    rw [Bool.not_eq_true] at hoffline
    subst hoffline
    cases hcall : call.answer marginPct with
    | none =>
      rw [Call.answer, hfacts] at hcall
      cases hcall
    | some answer =>
      cases answer with
      | httpError => exact absurd hcall hanswer
      | response statusCode body =>
        rw [queryOpa_of_answered hfacts hcall] at hquery
        have hafter : after = false := by
          split at hquery
          · obtain ⟨_, -, heq⟩ := Option.map_eq_some_iff.1 hquery
            cases heq
            rfl
          · cases hquery
            rfl
        rw [hafter]
        simp

/-- The function is offline just when OPA has failed. -/
theorem offlineAfter_iff (h : offlineAfter marginPct history = some offline) :
    offline = true ↔ Failed marginPct history := by
  induction history using List.reverseRecOn generalizing offline with
  | nil =>
    cases h
    simp [Failed]
  | append_singleton history call ih =>
    rw [offlineAfter, List.foldlM_append] at h
    obtain ⟨before, hbefore, h⟩ := Option.bind_eq_some_iff.1 h
    simp only [List.foldlM_cons, List.foldlM_nil, bind_pure] at h
    obtain ⟨⟨emitted, after⟩, hmap, rfl⟩ := Option.map_eq_some_iff.1 h
    rw [after_iff hmap, ih hbefore]
    simp [Failed, or_and_right, exists_or]

/-- **The stream is as cautious as the API** on a call just when an answer of OPA has a result, and without
an answer the facts that are there do not pass the fallback rule. -/
theorem cautious_iff (marginPct : Json → Json → Option Json) (validInt : Json → Option Int)
    (history : List Call) (call : Call) (offline : Bool)
    (hrun : offlineAfter marginPct history = some offline) :
    Cautious marginPct validInt history call offline ↔
      (∀ body, Answered marginPct history call body →
        engineReply validInt (.response 200 body) ≠ some .undefined) ∧
      (Unanswered marginPct history call → Lacks call.event → ¬ Passes call.event) := by
  have hoffline := offlineAfter_iff hrun
  have hfailed : Failed marginPct (history ++ [call]) ↔
      offline = true ∨ call.answer marginPct = some .httpError := by
    rw [hoffline]
    simp [Failed, or_and_right, exists_or]
  constructor
  · intro h
    refine ⟨fun body hanswered hundefined => ?_, fun hunanswered hlacks hpasses => ?_⟩
    · obtain ⟨hno, hanswer⟩ := hanswered
      have honline : offline = false := Bool.eq_false_iff.2 fun h => hno (hoffline.1 h)
      subst honline
      obtain ⟨violations, hviolations, hviolates, -⟩ := resultViolations_of_engineReply hundefined
      obtain ⟨facts, hfacts, -⟩ := Option.map_eq_some_iff.1 hanswer
      have hnil : violations = [] := by simpa [OPAReply.violates] using hviolates
      have hquery := queryOpa_of_answered hfacts hanswer
      rw [if_pos rfl, hviolations, hnil] at hquery
      obtain ⟨emitted, hmap, hallow⟩ := exists_mapEvent hfacts hquery
      have hagrees := h.agrees emitted _ body .undefined (soleEvaluator .undefined) emptyTransaction soleEntry
        hmap ⟨hno, hanswer⟩ hundefined (solePolicy_soleEvaluator _)
      rw [decision_of_solePolicy (solePolicy_soleEvaluator _), hallow] at hagrees
      cases hagrees
    · obtain ⟨hfacts, hcalls⟩ := hunanswered
      obtain ⟨facts, hfacts⟩ := Option.isSome_iff_exists.1 hfacts
      obtain ⟨d, hd, hallow⟩ := (fallback_allow_iff hfacts).2 hpasses
      have hquery := queryOpa_of_failed hfacts (hfailed.1 hcalls)
      rw [hd] at hquery
      obtain ⟨emitted, hmap, hdecision⟩ := exists_mapEvent hfacts hquery
      exact h.holdsBack emitted _ hmap ⟨by rw [hfacts]; rfl, hcalls⟩ hlacks (hdecision.trans hallow)
  · intro h
    obtain ⟨hresult, hfallback⟩ := h
    refine ⟨fun emitted after body reply E tx entry hmap hanswered hreply hsole => ?_,
      fun emitted after hmap hunanswered hlacks hallow => ?_⟩
    · obtain ⟨facts, d, hfacts, hquery, hdecision⟩ := mapEvent_eq_some_iff hmap
      have honline : offline = false := Bool.eq_false_iff.2 fun h => hanswered.1 (hoffline.1 h)
      subst honline
      obtain ⟨violations, hviolations, hviolates, hmissing⟩ := resultViolations_of_engineReply hreply
      rw [queryOpa_of_answered hfacts hanswered.2, if_pos rfl, hviolations] at hquery
      have hfound : ¬ reply.missing = true := by
        intro h
        rw [hmissing.1 h] at hreply
        exact hresult body hanswered hreply
      cases hquery
      rw [hdecision, decision_of_solePolicy hsole, if_neg hfound]
      simp only [hviolates]
    · obtain ⟨facts, d, hfacts, hquery, hdecision⟩ := mapEvent_eq_some_iff hmap
      rw [queryOpa_of_failed hfacts (hfailed.1 hunanswered.2)] at hquery
      obtain ⟨d', hd, heq⟩ := Option.map_eq_some_iff.1 hquery
      cases heq
      exact hfallback hunanswered hlacks
        ((fallback_allow_iff hfacts).1 ⟨d, hd, hdecision.symm.trans hallow⟩)

/-! ## No result, and no sidecar -/

/-- The percentage of nothing. -/
def zeroPct : Json → Json → Option Json := fun _ _ => some (.float ⟨0, 0, Decimal.shortest_zero⟩)

/-- An event without facts, for which OPA has no result. -/
def undefinedCall : Call := ⟨{}, fun _ _ => .response 200 (some (.obj []))⟩

theorem cautious_undefined :
    Cautious zeroPct Json.int? [] undefinedCall false ↔
      (∀ body, Answered zeroPct [] undefinedCall body →
        engineReply Json.int? (.response 200 body) ≠ some .undefined) ∧
      (Unanswered zeroPct [] undefinedCall → Lacks undefinedCall.event → ¬ Passes undefinedCall.event) :=
  cautious_iff zeroPct Json.int? [] undefinedCall false rfl

/-- The stream allows where the API would flag. -/
theorem not_forall_cautious :
    ¬ ∀ (history : List Call) (call : Call) (offline : Bool),
      offlineAfter zeroPct history = some offline → Cautious zeroPct Json.int? history call offline := by
  intro h
  have hcautious := h [] undefinedCall false rfl
  have hagrees := hcautious.agrees _ _ _ _ (soleEvaluator .undefined) emptyTransaction soleEntry rfl
    ⟨fun ⟨_, hc, _⟩ => absurd hc List.not_mem_nil, rfl⟩ rfl (solePolicy_soleEvaluator _)
  rw [decision_of_solePolicy (solePolicy_soleEvaluator _)] at hagrees
  cases hagrees

end RegEngine.Flink
