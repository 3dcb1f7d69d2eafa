import RegEngine.Negotiation.ArbitrationEngine
import RegEngine.Negotiation.Proof.Transcript

/-!
# What a consensus of the arbitration says about the facts

* `arbitrateClause_consensus_iff`: a call ends in a consensus exactly when nothing stops it and the
  first round finds no discrepancy, since a rebuttal repeats its argument.
* `exists_overlooked_iff`: how two agreed lists of claims can differ: in a metric only one side claims,
  in a claim that a later one of its side replaces, or in unit or spelling.
* `consensusMeansSame_iff`: when a consensus means the same valid facts.
-/

namespace RegEngine.Negotiation

open Lib Lib.Calendar Lib.Python Compiler ArbitrationEngine

variable {E : ArbitrationEngine}

/-! ## When a call ends in a consensus -/

/-- The last claims of a metric on both sides agree on value and operator. -/
def FactsAgree (E : ArbitrationEngine) (ext aud : List CanonicalFactClaim) : Prop :=
  ∀ k ef af, E.factsByMetric ext k = some ef → E.factsByMetric aud k = some af →
    ef.value = af.value ∧ ef.operator = af.operator

/-- Nothing that a round checks differs. -/
structure ArgumentsAgree (E : ArbitrationEngine) (sourceText : String) (ext aud : AgentArgument) :
    Prop where
  extQuotes : ∀ q ∈ ext.relevantSourceText, E.quoteVerified sourceText q = true
  audQuotes : ∀ q ∈ aud.relevantSourceText, E.quoteVerified sourceText q = true
  obligation : ∀ e ∈ ext.obligationType, ∀ a ∈ aud.obligationType, e ≠ "" → a ≠ "" →
    E.lower e = E.lower a
  entities : E.entities ext ≠ [] → E.entities aud ≠ [] →
    ∀ x, x ∈ E.entities ext ↔ x ∈ E.entities aud
  facts : FactsAgree E ext.canonicalFacts aud.canonicalFacts
  extConfidence : E.settings.arbitrationConfidenceThreshold.toRat ≤ ext.confidence.val.toRat
  audConfidence : E.settings.arbitrationConfidenceThreshold.toRat ≤ aud.confidence.val.toRat

theorem quoteDiscrepancy_eq_nil {who : String} {argument : AgentArgument} {sourceText : String} :
    E.quoteDiscrepancy who argument sourceText = [] ↔
      ∀ q ∈ argument.relevantSourceText, E.quoteVerified sourceText q = true := by
  unfold ArbitrationEngine.quoteDiscrepancy ArbitrationEngine.verifyQuotes
  simp [List.partition_eq_filter_filter, List.filter_eq_nil_iff]

theorem obligationDiscrepancy_eq_nil {ext aud : AgentArgument} :
    E.obligationDiscrepancy ext aud = [] ↔ ∀ e ∈ ext.obligationType, ∀ a ∈ aud.obligationType,
      e ≠ "" → a ≠ "" → E.lower e = E.lower a := by
  unfold ArbitrationEngine.obligationDiscrepancy
  cases ext.obligationType with
  | none => simp
  | some e =>
    cases aud.obligationType with
    | none => simp
    | some a => simp

theorem entityDiscrepancy_eq_nil {ext aud : AgentArgument} :
    E.entityDiscrepancy ext aud = [] ↔ (E.entities ext ≠ [] → E.entities aud ≠ [] →
      ∀ x, x ∈ E.entities ext ↔ x ∈ E.entities aud) := by
  unfold ArbitrationEngine.entityDiscrepancy
  dsimp only
  constructor
  · intro h hext haud x
    by_contra hne
    rw [if_pos ⟨hext, haud, fun hall => hne ⟨hall.1 x, hall.2 x⟩⟩] at h
    cases h
  · intro h
    rw [if_neg]
    rintro ⟨hext, haud, hne⟩
    exact hne ⟨fun x => (h hext haud x).1, fun x => (h hext haud x).2⟩

theorem claimDiscrepancy_eq_nil {metric : String} {ef af : CanonicalFactClaim} :
    claimDiscrepancy metric ef af = [] ↔ ef.value = af.value ∧ ef.operator = af.operator := by
  simp [claimDiscrepancy]

/-- The compared claim of a metric is one of the claims. -/
theorem mem_of_factsByMetric {facts : List CanonicalFactClaim} {k : String} {f : CanonicalFactClaim}
    (h : E.factsByMetric facts k = some f) : f ∈ facts ∧ E.lower f.metric = k := by
  obtain ⟨g, hg, heq⟩ := List.mem_map.1 (Query.mem_of_dict_eq_some h)
  obtain ⟨rfl, rfl⟩ := Prod.mk.inj heq
  exact ⟨hg, rfl⟩

/-- Each metric has a compared claim. -/
theorem exists_factsByMetric {facts : List CanonicalFactClaim} {f : CanonicalFactClaim}
    (h : f ∈ facts) : ∃ g, E.factsByMetric facts (E.lower f.metric) = some g :=
  Query.exists_dict_eq_some (List.mem_map.2 ⟨f, h, rfl⟩)

theorem mem_metricKeys {facts : List CanonicalFactClaim} {k : String} {f : CanonicalFactClaim}
    (h : E.factsByMetric facts k = some f) : k ∈ E.metricKeys facts :=
  List.mem_eraseDups.2 (List.mem_map.2 ⟨f, mem_of_factsByMetric h⟩)

theorem factDiscrepancy_eq_nil {ext aud : AgentArgument} :
    E.factDiscrepancy ext aud = [] ↔ FactsAgree E ext.canonicalFacts aud.canonicalFacts := by
  unfold ArbitrationEngine.factDiscrepancy
  rw [List.flatMap_eq_nil_iff]
  constructor
  · intro h k ef af hef haf
    have hk := h k (mem_metricKeys hef)
    rw [hef, haf] at hk
    exact claimDiscrepancy_eq_nil.1 hk
  · intro h k _
    cases hef : E.factsByMetric ext.canonicalFacts k with
    | none => rfl
    | some ef =>
      cases haf : E.factsByMetric aud.canonicalFacts k with
      | none => rfl
      | some af => exact claimDiscrepancy_eq_nil.2 (h k ef af hef haf)

theorem confidenceDiscrepancy_eq_nil {who : String} {argument : AgentArgument} :
    E.confidenceDiscrepancy who argument = [] ↔
      E.settings.arbitrationConfidenceThreshold.toRat ≤ argument.confidence.val.toRat := by
  simp [ArbitrationEngine.confidenceDiscrepancy]

theorem crossExamineRound_eq_nil {ext aud : AgentArgument} {sourceText : String} :
    E.crossExamineRound ext aud sourceText = [] ↔ ArgumentsAgree E sourceText ext aud := by
  unfold ArbitrationEngine.crossExamineRound
  simp only [List.append_eq_nil_iff, quoteDiscrepancy_eq_nil, obligationDiscrepancy_eq_nil,
    entityDiscrepancy_eq_nil, factDiscrepancy_eq_nil, confidenceDiscrepancy_eq_nil]
  constructor
  · rintro ⟨⟨⟨⟨⟨⟨h1, h2⟩, h3⟩, h4⟩, h5⟩, h6⟩, h7⟩
    exact ⟨h1, h2, h3, h4, h5, h6, h7⟩
  · rintro ⟨h1, h2, h3, h4, h5, h6, h7⟩
    exact ⟨⟨⟨⟨⟨⟨h1, h2⟩, h3⟩, h4⟩, h5⟩, h6⟩, h7⟩

/-- A rebuttal repeats what its argument says. -/
theorem crossExamineRound_rebuttal (n : Nat) (ext aud : AgentArgument) (sourceText : String) :
    E.crossExamineRound (rebuttal n ext) (rebuttal n aud) sourceText =
      E.crossExamineRound ext aud sourceText := rfl

/-- The last round disagrees exactly when the arguments do. -/
theorem deliberate_last (sourceText : String) (left n : Nat) (ext aud : AgentArgument) :
    ∃ last, (E.deliberate sourceText (left + 1) n ext aud).getLast? = some last ∧
      (last.hasMaterialDisagreement = true ↔ E.crossExamineRound ext aud sourceText ≠ []) := by
  induction left generalizing n ext aud with
  | zero =>
    refine ⟨E.round sourceText n ext aud, ?_, by simp [ArbitrationEngine.round]⟩
    simp only [ArbitrationEngine.deliberate]
    split <;> rfl
  | succ left ih =>
    by_cases hround : (E.round sourceText n ext aud).hasMaterialDisagreement = true
    · obtain ⟨last, hlast, hiff⟩ := ih (n + 1) (rebuttal (n + 1) ext) (rebuttal (n + 1) aud)
      refine ⟨last, ?_, hiff⟩
      have hne : E.deliberate sourceText (left + 1) (n + 1) (rebuttal (n + 1) ext)
          (rebuttal (n + 1) aud) ≠ [] := fun h => by
        rw [h] at hlast
        cases hlast
      rw [ArbitrationEngine.deliberate, if_pos hround, List.getLast?_cons_of_ne_nil hne]
      exact hlast
    · refine ⟨E.round sourceText n ext aud, ?_, by simp [ArbitrationEngine.round]⟩
      rw [ArbitrationEngine.deliberate, if_neg hround]
      rfl

/-- Nothing stops a call, and its arguments agree. -/
structure Agreed (E : ArbitrationEngine) (call : ArbitrationCall) : Prop where
  provider : ∃ p, E.settings.arbitrationArbiterProvider = some p ∧ p ≠ ""
  noInjection : E.inspectForPromptInjection call.clauseText = []
  inTime : call.timing = .inTime
  rounds : 1 ≤ E.roundsLimit call
  tenant : strip call.tenantId ≠ ""
  arguments : ArgumentsAgree E call.clauseText (E.extractorArgument call) (E.auditorArgument call)

theorem resolveArbiterAttribution_ok_iff : (∃ a, E.resolveArbiterAttribution = .ok a) ↔
    ∃ p, E.settings.arbitrationArbiterProvider = some p ∧ p ≠ "" := by
  unfold ArbitrationEngine.resolveArbiterAttribution
  cases E.settings.arbitrationArbiterProvider with
  | none => simp
  | some p =>
    by_cases hp : p = ""
    · simp [hp]
    · simp [hp]

theorem runDeliberation_consensus_iff {call : ArbitrationCall} {a : ModelAttribution}
    {start : ArbitrationTranscript} :
    (∃ t, E.runDeliberation call a start = .ok t ∧ t.finalOutcome = .consensus) ↔
      1 ≤ E.roundsLimit call ∧
        ArgumentsAgree E call.clauseText (E.extractorArgument call) (E.auditorArgument call) := by
  unfold ArbitrationEngine.runDeliberation
  by_cases hrounds : 1 ≤ E.roundsLimit call
  · obtain ⟨left, hleft⟩ : ∃ left, (E.roundsLimit call).toNat = left + 1 :=
      ⟨(E.roundsLimit call).toNat - 1, by omega⟩
    obtain ⟨last, hlast, hiff⟩ := deliberate_last (E := E) call.clauseText left 0
      (E.extractorArgument call) (E.auditorArgument call)
    rw [Ne, crossExamineRound_eq_nil] at hiff
    simp only [hleft, hlast, Except.ok.injEq, exists_eq_left', hrounds, true_and]
    cases hm : last.hasMaterialDisagreement with
    | true =>
      have hdiffer := hiff.1 hm
      simp [concluded, deadlockVerdict, verdict, hdiffer]
    | false =>
      have hagree := not_not.1 (mt hiff.2 (by simp [hm]))
      simp [concluded, consensusVerdict, verdict, hagree]
  · have hzero : (E.roundsLimit call).toNat = 0 := by omega
    simp [hzero, ArbitrationEngine.deliberate, hrounds]

theorem runDeliberation_tenantId {call : ArbitrationCall} {a : ModelAttribution}
    {start t : ArbitrationTranscript} (h : E.runDeliberation call a start = .ok t) :
    t.tenantId = start.tenantId := by
  unfold ArbitrationEngine.runDeliberation at h
  dsimp only at h
  split at h
  · cases h
  · cases h
    rfl

theorem save_eq_ok_iff {J : TranscriptJson} {call : ArbitrationCall}
    {store : ArbitrationTranscriptStore} {t : ArbitrationTranscript}
    {result : ArbitrationTranscript × ArbitrationTranscriptStore} :
    save J call store t = .ok result ↔
      store.saveTranscript J call.redisAnswer t = .ok result := by
  unfold save
  cases store.saveTranscript J call.redisAnswer t with
  | ok _ => simp [Except.mapError]
  | error _ => simp [Except.mapError]

/-- A save keeps the outcome, and is refused without a tenant. -/
theorem save_consensus_iff {J : TranscriptJson} {call : ArbitrationCall}
    {store : ArbitrationTranscriptStore} {t : ArbitrationTranscript} :
    (∃ result, save J call store t = .ok result ∧ result.1.finalOutcome = .consensus) ↔
      strip t.tenantId ≠ "" ∧ t.finalOutcome = .consensus := by
  constructor
  · rintro ⟨result, hsave, houtcome⟩
    obtain ⟨htenant, rfl⟩ := saveTranscript_eq_ok_iff.1 (save_eq_ok_iff.1 hsave)
    exact ⟨htenant, houtcome⟩
  · rintro ⟨htenant, houtcome⟩
    exact ⟨_, save_eq_ok_iff.2 (saveTranscript_eq_ok_iff.2 ⟨htenant, rfl⟩), houtcome⟩

/-- **A call ends in a consensus exactly when nothing stops it and its arguments agree.** -/
theorem arbitrateClause_consensus_iff {J : TranscriptJson} {store : ArbitrationTranscriptStore}
    {call : ArbitrationCall} :
    (∃ result, E.arbitrateClause J store call = .ok result ∧
      result.1.finalOutcome = .consensus) ↔ Agreed E call := by
  unfold ArbitrationEngine.arbitrateClause
  by_cases hprovider : ∃ p, E.settings.arbitrationArbiterProvider = some p ∧ p ≠ ""
  swap
  · cases ha : E.resolveArbiterAttribution with
    | ok a => exact absurd (resolveArbiterAttribution_ok_iff.1 ⟨a, ha⟩) hprovider
    | error e =>
      constructor
      · rintro ⟨_, ⟨⟩, _⟩
      · exact fun h => absurd h.provider hprovider
  obtain ⟨a, ha⟩ := resolveArbiterAttribution_ok_iff.2 hprovider
  rw [ha]
  change (∃ result, (if E.inspectForPromptInjection call.clauseText ≠ [] then _ else _) = _ ∧ _) ↔ _
  by_cases hinjection : E.inspectForPromptInjection call.clauseText = []
  swap
  · rw [if_pos hinjection]
    constructor
    · intro h
      obtain ⟨-, houtcome⟩ := save_consensus_iff.1 h
      cases houtcome
    · exact fun h => absurd h.noInjection hinjection
  rw [if_neg (not_not.2 hinjection)]
  cases htiming : call.timing with
  | beforeStart =>
    constructor
    · intro h
      obtain ⟨-, houtcome⟩ := save_consensus_iff.1 h
      cases houtcome
    · intro h
      rw [h.inTime] at htiming
      cases htiming
  | inTime =>
    have hagreed : Agreed E call ↔ strip call.tenantId ≠ "" ∧
        ∃ t, E.runDeliberation call a (openTranscript call) = .ok t ∧ t.finalOutcome = .consensus := by
      rw [runDeliberation_consensus_iff]
      constructor
      · exact fun h => ⟨h.tenant, h.rounds, h.arguments⟩
      · exact fun ⟨h1, h2, h3⟩ => ⟨hprovider, hinjection, htiming, h2, h1, h3⟩
    rw [hagreed]
    cases hrun : E.runDeliberation call a (openTranscript call) with
    | error e =>
      constructor
      · rintro ⟨_, ⟨⟩, _⟩
      · rintro ⟨-, _, ⟨⟩, _⟩
    | ok t =>
      change (∃ result, save J call store t = .ok result ∧ _) ↔ _
      rw [save_consensus_iff, runDeliberation_tenantId hrun]
      simp [openTranscript]
  | whileSaving applied =>
    constructor
    · rintro ⟨result, hresult, houtcome⟩
      cases hrun : E.runDeliberation call a (openTranscript call) with
      | error e =>
        rw [hrun] at hresult
        cases hresult
      | ok t =>
        rw [hrun] at hresult
        change (save J call store t >>= _) = _ at hresult
        cases hsave : save J call store t with
        | error e =>
          rw [hsave] at hresult
          cases hresult
        | ok saved =>
          rw [hsave] at hresult
          obtain ⟨-, hlate⟩ := save_consensus_iff.1 ⟨result, hresult, houtcome⟩
          cases hlate
    · intro h
      rw [h.inTime] at htiming
      cases htiming

/-! ## How agreed claims can differ -/

/-- What a claim states. -/
def CanonicalFactClaim.fact (f : CanonicalFactClaim) : String × String × Decimal × String :=
  (f.metric, f.operator, f.value, f.unit)

def facts (claims : List CanonicalFactClaim) : List (String × String × Decimal × String) :=
  claims.map (·.fact)

/-- A claim of one side that the other does not make, and that is compared with nothing, or with a
claim that differs in unit or spelling only. -/
inductive Overlooked (E : ArbitrationEngine) (own other : List CanonicalFactClaim)
    (f : CanonicalFactClaim) : Prop where
  /-- The other side has no claim of the metric. -/
  | oneSided (hf : f ∈ own) (hnone : ∀ g ∈ other, E.lower g.metric ≠ E.lower f.metric)
  /-- A later claim of its own side has the metric. -/
  | replaced (hf : f ∈ own) (hmissing : f.fact ∉ facts other) (later : CanonicalFactClaim)
      (hlater : E.factsByMetric own (E.lower f.metric) = some later) (hne : later.fact ≠ f.fact)
  /-- The claims compared agree on value and operator. -/
  | respelled (hf : f ∈ own) (hmissing : f.fact ∉ facts other) (compared : CanonicalFactClaim)
      (hcompared : E.factsByMetric other (E.lower f.metric) = some compared)
      (hvalue : compared.value = f.value) (hoperator : compared.operator = f.operator)
      (hne : compared.unit ≠ f.unit ∨ compared.metric ≠ f.metric)

theorem Overlooked.not_mem {own other : List CanonicalFactClaim} {f : CanonicalFactClaim}
    (h : Overlooked E own other f) : f ∈ own ∧ f.fact ∉ facts other := by
  cases h with
  | oneSided hf hnone =>
    refine ⟨hf, fun hmem => ?_⟩
    obtain ⟨g, hg, heq⟩ := List.mem_map.1 hmem
    have hmetric : g.metric = f.metric := (Prod.mk.inj heq).1
    exact hnone g hg (by rw [hmetric])
  | replaced hf hmissing => exact ⟨hf, hmissing⟩
  | respelled hf hmissing => exact ⟨hf, hmissing⟩

/-- When the compared claims agree, a claim the other side does not make is overlooked. -/
theorem overlooked_of_not_mem {own other : List CanonicalFactClaim} {f : CanonicalFactClaim}
    (hagree : FactsAgree E own other) (hf : f ∈ own) (hmissing : f.fact ∉ facts other) :
    Overlooked E own other f := by
  obtain ⟨last, hlast⟩ := exists_factsByMetric (E := E) hf
  by_cases hlater : last.fact = f.fact
  · cases hcompared : E.factsByMetric other (E.lower f.metric) with
    | none =>
      refine .oneSided hf fun g hg hmetric => ?_
      obtain ⟨c, hc⟩ := exists_factsByMetric (E := E) hg
      rw [hmetric, hcompared] at hc
      cases hc
    | some compared =>
      obtain ⟨hvalue, hoperator⟩ := hagree _ _ _ hlast hcompared
      simp only [CanonicalFactClaim.fact, Prod.mk.injEq] at hlater
      refine .respelled hf hmissing compared hcompared (hvalue.symm.trans hlater.2.2.1)
        (hoperator.symm.trans hlater.2.1) ?_
      by_contra hsame
      rw [not_or, not_not, not_not] at hsame
      refine hmissing (List.mem_map.2 ⟨compared, (mem_of_factsByMetric hcompared).1, ?_⟩)
      simp only [CanonicalFactClaim.fact, Prod.mk.injEq]
      exact ⟨hsame.2, hoperator.symm.trans hlater.2.1, hvalue.symm.trans hlater.2.2.1, hsame.1⟩
  · exact .replaced hf hmissing last hlast hlater

/-- **Agreed claims are the same** exactly when none is overlooked on either side. -/
theorem facts_eq_iff {ext aud : List CanonicalFactClaim} (hagree : FactsAgree E ext aud) :
    (∀ x, x ∈ facts ext ↔ x ∈ facts aud) ↔
      ∀ f, ¬ Overlooked E ext aud f ∧ ¬ Overlooked E aud ext f := by
  have hagree' : FactsAgree E aud ext := fun k af ef haf hef =>
    ⟨(hagree k ef af hef haf).1.symm, (hagree k ef af hef haf).2.symm⟩
  constructor
  · intro hsame f
    refine ⟨fun h => ?_, fun h => ?_⟩
    · exact h.not_mem.2 ((hsame _).1 (List.mem_map.2 ⟨f, h.not_mem.1, rfl⟩))
    · exact h.not_mem.2 ((hsame _).2 (List.mem_map.2 ⟨f, h.not_mem.1, rfl⟩))
  · intro hnone x
    constructor
    · intro hx
      obtain ⟨f, hf, rfl⟩ := List.mem_map.1 hx
      by_contra hmissing
      exact (hnone f).1 (overlooked_of_not_mem hagree hf hmissing)
    · intro hx
      obtain ⟨f, hf, rfl⟩ := List.mem_map.1 hx
      by_contra hmissing
      exact (hnone f).2 (overlooked_of_not_mem hagree' hf hmissing)

/-! ## Consensus and the same facts -/

/-- The claim is valid in the fact taxonomy. -/
def CanonicalFactClaim.valid (f : CanonicalFactClaim) : Bool :=
  (resolveCanonicalFact f.metric (some f.unit) (some f.value) none).isValid

/-- If the engine reports a consensus, both sides claim the same facts, and each is valid. -/
def ConsensusMeansSame (E : ArbitrationEngine) (J : TranscriptJson)
    (store : ArbitrationTranscriptStore) (call : ArbitrationCall) : Prop :=
  ∀ result, E.arbitrateClause J store call = .ok result → result.1.finalOutcome = .consensus →
    (∀ x, x ∈ facts (E.extractorArgument call).canonicalFacts ↔
      x ∈ facts (E.auditorArgument call).canonicalFacts) ∧
    ∀ f ∈ (E.extractorArgument call).canonicalFacts ++ (E.auditorArgument call).canonicalFacts,
      f.valid = true

/-- **A consensus means the same valid facts** exactly when something stops the call or a check fails,
or no claim of either side is overlooked and all are valid. -/
theorem consensusMeansSame_iff (E : ArbitrationEngine) (J : TranscriptJson)
    (store : ArbitrationTranscriptStore) (call : ArbitrationCall) :
    ConsensusMeansSame E J store call ↔ ¬ Agreed E call ∨
      ((∀ f, ¬ Overlooked E (E.extractorArgument call).canonicalFacts
          (E.auditorArgument call).canonicalFacts f ∧
        ¬ Overlooked E (E.auditorArgument call).canonicalFacts
          (E.extractorArgument call).canonicalFacts f) ∧
        ∀ f ∈ (E.extractorArgument call).canonicalFacts ++ (E.auditorArgument call).canonicalFacts,
          f.valid = true) := by
  by_cases hagreed : Agreed E call
  · have hconsensus : ∃ result, E.arbitrateClause J store call = .ok result ∧
        result.1.finalOutcome = .consensus := arbitrateClause_consensus_iff.2 hagreed
    obtain ⟨result, hok, houtcome⟩ := hconsensus
    rw [or_iff_right (not_not.2 hagreed), ← facts_eq_iff hagreed.arguments.facts]
    constructor
    · exact fun h => h result hok houtcome
    · exact fun h _ _ _ => h
  · constructor
    · exact fun _ => .inl hagreed
    · intro _ result hok houtcome
      exact absurd (arbitrateClause_consensus_iff.1 ⟨result, hok, houtcome⟩) hagreed

/-! ## A claim of one side -/

/-- An engine with an arbiter of its own, on texts without injections. -/
def offlineEngine : ArbitrationEngine where
  settings := { arbitrationArbiterProvider := some "offline" }
  lower := lower
  inspectForPromptInjection _ := []

def upfrontMargin : CanonicalFactClaim where
  metric := "upfront_margin_pct"
  operator := ">="
  value := ⟨2, 1, Decimal.shortest_twenty⟩
  unit := "%"
  verbatimEvidence := "upfront margin of 20%"

/-- An argument that quotes the clause. -/
def marginArgument (role : AgentRole) (claims : List CanonicalFactClaim) : AgentArgument where
  argumentId := role.value
  agentRole := role
  interpretation := "Collect 20% upfront."
  canonicalFacts := claims
  relevantSourceText := ["upfront margin of 20%"]
  sourceLocation := "Clause 4.1"
  confidence := ⟨⟨92, -2, by decide⟩, by decide +kernel⟩
  reasoningSummary := "Stated in the clause."
  attribution :=
    { agentRole := role
      providerType := "offline"
      modelName := role.value
      temperature := ⟨⟨0, 0, Decimal.shortest_zero⟩, zero_upTo⟩ }
  createdAt := firstOf2026
  roundNumber_pos := Nat.one_pos

/-- The extractor claims a margin, and the auditor nothing. -/
def oneSidedCall : ArbitrationCall where
  clauseText := "Collect upfront margin of 20%."
  clauseId := "clause-101"
  circularId := "SEBI/2026/01"
  sourceDocumentSha256 := "aaaa"
  clauseSha256 := "bbbb"
  tenantId := "tenant-alpha"
  extractorOverride := some (marginArgument .extractor [upfrontMargin])
  auditorOverride := some (marginArgument .auditor [])
  sessionId := "s-1"
  startedAt := firstOf2026
  argumentId := AgentRole.value
  createdAt _ := firstOf2026
  verdictId := ArbitrationOutcome.value
  decidedAt _ := firstOf2026
  completedAt _ := firstOf2026
  durationSeconds _ := ⟨0, 0, Decimal.shortest_zero⟩

theorem agreed_oneSided : Agreed offlineEngine oneSidedCall where
  provider := ⟨"offline", rfl, by decide⟩
  noInjection := rfl
  inTime := rfl
  rounds := by decide
  tenant := by decide
  arguments :=
    { extQuotes := by decide +kernel
      audQuotes := by decide +kernel
      obligation := by
        rintro e ⟨⟩
      entities := fun h => absurd rfl h
      facts := by
        rintro k ef af - ⟨⟩
      extConfidence := by decide +kernel
      audConfidence := by decide +kernel }

/-- Not every consensus means the same facts. -/
theorem not_forall_consensusMeansSame :
    ¬ ∀ (E : ArbitrationEngine) (J : TranscriptJson) (store : ArbitrationTranscriptStore)
      (call : ArbitrationCall), ConsensusMeansSame E J store call := by
  intro hall
  have hconsensus : ∃ result, offlineEngine.arbitrateClause halvedJson emptyStore oneSidedCall =
      .ok result ∧ result.1.finalOutcome = .consensus :=
    arbitrateClause_consensus_iff.2 agreed_oneSided
  obtain ⟨result, hok, houtcome⟩ := hconsensus
  have hsame := (hall offlineEngine halvedJson emptyStore oneSidedCall result hok houtcome).1
  have hclaimed : upfrontMargin.fact ∈ facts [] := (hsame _).1 (List.mem_singleton_self _)
  cases hclaimed

end RegEngine.Negotiation
