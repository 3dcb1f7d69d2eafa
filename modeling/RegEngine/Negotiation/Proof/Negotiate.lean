import Mathlib.Algebra.Order.BigOperators.Group.List
import Mathlib.Data.List.Perm.Subperm
import RegEngine.Governance.Proof.KillSwitch
import RegEngine.Negotiation.Proof.Tally

/-!
# What a negotiation can allow

The agents of the package, each at most once, on doubles. A violation is claimed when an outcome with
it is in the scope of an agent; that agent denies in every round.

* `collect_denied`: the verdicts of every round of a claimed violation.
* `negotiate_claimed`: with at least one round and bars of `0.7` or more, a claimed violation is never
  allowed.
* `negotiate_allows_denied`: a violation that nobody claims, a denial outvoted under lower bars, and
  a negotiation without rounds.
-/

namespace RegEngine.Negotiation

open Lib Binary64 Execution

/-- An outcome with a violation is in the scope of one of the agents. -/
def Claimed {α : Type} (agents : List (DomainAgent α)) (policyOutcomes : List PolicyOutcome) : Prop :=
  ∃ agent ∈ agents, ∃ o ∈ agent.scopedOutcomes policyOutcomes, o.violations ≠ []

theorem reduce_of_claimed {α : Type} {agents : List (DomainAgent α)}
    {policyOutcomes : List PolicyOutcome} (h : Claimed agents policyOutcomes) :
    (reduce policyOutcomes).1 = .deny := by
  obtain ⟨agent, -, o, ho, hviolations⟩ := h
  have hmem : o ∈ policyOutcomes := List.mem_of_mem_filter ho
  have hne : policyOutcomes.flatMap (·.violations) ≠ [] := by
    intro hnil
    exact hviolations (List.flatMap_eq_nil_iff.1 hnil o hmem)
  simp [reduce, hne]

/-! ## Verdicts -/

section
variable {agent : DomainAgent Binary64} {transaction : TransactionPayload}
  {policyOutcomes : List PolicyOutcome} {priorRound : Option (NegotiationRound Binary64)}
  {v : AgentVerdict Binary64}

/-- The votes of `_reduce_scoped_outcomes`. -/
theorem reduceScopedOutcomes_vote (first : PolicyOutcome) (rest : List PolicyOutcome) :
    let v := agent.reduceScopedOutcomes transaction first rest
    v.agentKey = agent.agentKey ∧ v.weight = agent.weight ∧
      (v.decision, v.confidence) ∈ firstVotes := by
  intro v
  simp only [v, DomainAgent.reduceScopedOutcomes]
  split
  · exact ⟨rfl, rfl, List.mem_cons_self⟩
  · split
    · exact ⟨rfl, rfl, List.mem_cons_of_mem _ (List.mem_cons_of_mem _ List.mem_cons_self)⟩
    · exact ⟨rfl, rfl, List.mem_cons_of_mem _ List.mem_cons_self⟩

/-- Pressure is put on a vote that is not to deny. -/
theorem strongerDissent_not_deny {round : NegotiationRound Binary64}
    (h : agent.strongerDissent v round = true) : v.decision ≠ .deny := by
  obtain ⟨other, -, hother⟩ := List.any_eq_true.1 h
  simp only [Bool.decide_and, Bool.and_eq_true, decide_eq_true_eq] at hother
  obtain ⟨-, hdeny, hne, -⟩ := hother
  rw [hdeny] at hne
  exact Ne.symm hne

/-- Pressure changes nothing, or softens a vote that is not to deny. -/
theorem applyNegotiationPressure_cases :
    agent.applyNegotiationPressure v priorRound = v ∨
      v.decision ≠ .deny ∧ ∃ rationale, agent.applyNegotiationPressure v priorRound =
        { v with confidence := softenedConfidence v.confidence, rationale := rationale } := by
  cases priorRound with
  | none => exact .inl rfl
  | some round =>
    by_cases hdissent : agent.strongerDissent v round = true
    · exact .inr ⟨strongerDissent_not_deny hdissent, _, if_pos hdissent⟩
    · exact .inl (if_neg hdissent)

/-- A vote under pressure is one of the votes. -/
theorem applyNegotiationPressure_vote (hvote : (v.decision, v.confidence) ∈ firstVotes) :
    ((agent.applyNegotiationPressure v priorRound).decision,
      (agent.applyNegotiationPressure v priorRound).confidence) ∈ packageVotes := by
  rcases applyNegotiationPressure_cases with heq | ⟨hnot, rationale, heq⟩
  · rw [heq]
    exact List.mem_append_left _ hvote
  · rw [heq]
    rcases List.mem_cons.1 hvote with hvote | hvote
    · exact absurd (Prod.mk.inj hvote).1 hnot
    · have hsoft : (v.decision, softenedConfidence v.confidence) ∈
          firstVotes.tail.map fun vote => (vote.1, softenedConfidence vote.2) :=
        List.mem_map.2 ⟨_, hvote, rfl⟩
      have hmem : (v.decision, softenedConfidence v.confidence) ∈ packageVotes :=
        List.mem_append.2 (.inr hsoft)
      dsimp only
      exact hmem

theorem applyNegotiationPressure_agent :
    (agent.applyNegotiationPressure v priorRound).agentKey = v.agentKey ∧
      (agent.applyNegotiationPressure v priorRound).weight = v.weight ∧
      (agent.applyNegotiationPressure v priorRound).decision = v.decision := by
  rcases applyNegotiationPressure_cases with heq | ⟨-, rationale, heq⟩
  · rw [heq]
    exact ⟨rfl, rfl, rfl⟩
  · rw [heq]
    exact ⟨rfl, rfl, rfl⟩

/-- A verdict is its agent's, with one of the votes. -/
theorem evaluate_vote (h : agent.evaluate transaction policyOutcomes priorRound = some v) :
    v.agentKey = agent.agentKey ∧ v.weight = agent.weight ∧
      (v.decision, v.confidence) ∈ packageVotes := by
  unfold DomainAgent.evaluate at h
  cases hscope : agent.scopedOutcomes policyOutcomes with
  | nil => simp [hscope] at h
  | cons first rest =>
    rw [hscope] at h
    obtain rfl := Option.some.inj h
    obtain ⟨hkey, hweight, hvote⟩ := reduceScopedOutcomes_vote first rest
    obtain ⟨hkey', hweight', -⟩ := applyNegotiationPressure_agent
    exact ⟨hkey'.trans hkey, hweight'.trans hweight, applyNegotiationPressure_vote hvote⟩

/-- An agent with a violation in scope denies, whatever the round before was. -/
theorem evaluate_denial {o : PolicyOutcome} (ho : o ∈ agent.scopedOutcomes policyOutcomes)
    (hviolations : o.violations ≠ []) :
    ∃ v, agent.evaluate transaction policyOutcomes priorRound = some v ∧ v.decision = .deny := by
  unfold DomainAgent.evaluate
  cases hscope : agent.scopedOutcomes policyOutcomes with
  | nil =>
    rw [hscope] at ho
    cases ho
  | cons first rest =>
    refine ⟨_, rfl, ?_⟩
    rw [hscope] at ho
    have hne : (first :: rest).flatMap (·.violations) ≠ [] := by
      intro hnil
      exact hviolations (List.flatMap_eq_nil_iff.1 hnil o ho)
    have hdeny : (agent.reduceScopedOutcomes transaction first rest).decision = .deny := by
      simp only [DomainAgent.reduceScopedOutcomes, if_pos hne]
      rfl
    exact applyNegotiationPressure_agent.2.2.trans hdeny

/-- The vote of an agent of the package. -/
theorem vote_of_evaluate (hagent : agent ∈ packageAgents)
    (h : agent.evaluate transaction policyOutcomes priorRound = some v) : Vote v := by
  obtain ⟨hkey, hweight, hvote⟩ := evaluate_vote h
  obtain ⟨hnonneg, hatMost, hdeny, hallow⟩ := power_bounds agent hagent _ hvote
  have hpower : v.power = agent.weight * v.confidence := by rw [AgentVerdict.power, hweight]
  rw [← hpower] at hnonneg hatMost hdeny hallow
  refine ⟨hnonneg, hatMost, hdeny, fun hd => ?_⟩
  rw [hkey]
  exact hallow hd

end

/-! ## Rounds -/

section
variable {E : ConsensusEngine Binary64} {transaction : TransactionPayload}
  {policyOutcomes : List PolicyOutcome}

/-- Verdicts take no more of the caps than their agents. -/
theorem caps_collect (agents : List (DomainAgent Binary64))
    (priorRound : Option (NegotiationRound Binary64)) :
    ((agents.filterMap fun agent => agent.evaluate transaction policyOutcomes priorRound).map
      fun v => allowCap v.agentKey).sum ≤ (agents.map fun agent => allowCap agent.agentKey).sum := by
  induction agents with
  | nil => exact Nat.le_refl 0
  | cons agent agents ih =>
    rw [List.map_cons, List.sum_cons]
    cases hv : agent.evaluate transaction policyOutcomes priorRound with
    | none =>
      simp only [List.filterMap_cons, hv]
      omega
    | some v =>
      simp only [List.filterMap_cons, hv, List.map_cons, List.sum_cons, (evaluate_vote hv).1]
      omega

/-- **Every round of a claimed violation** is a denied vote. -/
theorem collect_denied (hagents : E.agents.Subperm packageAgents)
    (h : Claimed E.agents policyOutcomes) (priorRound : Option (NegotiationRound Binary64)) :
    Denied (E.collectVerdicts transaction policyOutcomes priorRound) where
  votes v hv := by
    obtain ⟨agent, hagent, hev⟩ := List.mem_filterMap.1 hv
    exact vote_of_evaluate (hagents.subset hagent) hev
  length := Nat.le_trans (List.length_filterMap_le ..) hagents.length_le
  caps := by
    refine Nat.le_trans (caps_collect E.agents priorRound) ?_
    obtain ⟨agents, hperm, hsub⟩ := hagents
    rw [← (hperm.map fun agent => allowCap agent.agentKey).sum_eq]
    exact (hsub.map fun agent => allowCap agent.agentKey).sum_le_sum fun _ _ => Nat.zero_le _
  deny := by
    obtain ⟨agent, hagent, o, ho, hviolations⟩ := h
    obtain ⟨v, hev, hdeny⟩ : ∃ v, agent.evaluate transaction policyOutcomes priorRound = some v ∧
        v.decision = .deny := evaluate_denial ho hviolations
    exact ⟨v, List.mem_filterMap.2 ⟨agent, hagent, hev⟩, hdeny⟩

/-- The last round of a negotiation in which a violation is claimed. -/
structure FinalRound (E : ConsensusEngine Binary64) (r : NegotiationRound Binary64) : Prop where
  denied : Denied r.verdicts
  tally : r.tally = tallyVotes r.verdicts
  consensus : r.consensusReached = checkConsensus r.tally E.threshold

/-- One round of the loop of `run`. -/
theorem rounds_succ (left roundNumber : Nat) (priorRound : Option (NegotiationRound Binary64))
    (hdenied : Denied (E.collectVerdicts transaction policyOutcomes priorRound)) :
    ∃ r, FinalRound E r ∧
      E.rounds transaction policyOutcomes (left + 1) roundNumber priorRound =
        if r.consensusReached then ([r], .consensusReached)
        else
          let (rest, state) := E.rounds transaction policyOutcomes left (roundNumber + 1) (some r)
          (r :: rest, state) := by
  refine ⟨E.round roundNumber (E.collectVerdicts transaction policyOutcomes priorRound),
    ⟨hdenied, rfl, rfl⟩, ?_⟩
  have hsome : (E.collectVerdicts transaction policyOutcomes priorRound).isEmpty = false := by
    obtain ⟨v, hv, -⟩ := hdenied.deny
    exact List.isEmpty_eq_false_iff_exists_mem.2 ⟨v, hv⟩
  rw [ConsensusEngine.rounds]
  dsimp only
  rw [hsome, if_neg Bool.false_ne_true]

/-- The loop of `run`, by induction on the rounds left. -/
theorem rounds_final (hdenied : ∀ priorRound,
      Denied (E.collectVerdicts transaction policyOutcomes priorRound))
    (left roundNumber : Nat) (priorRound : Option (NegotiationRound Binary64)) :
    let result := E.rounds transaction policyOutcomes (left + 1) roundNumber priorRound
    ∃ r, result.1.getLast? = some r ∧ FinalRound E r ∧
      (result.2 = .consensusReached → r.consensusReached = true) := by
  induction left generalizing roundNumber priorRound with
  | zero =>
    obtain ⟨r, hr, hrounds⟩ := rounds_succ 0 roundNumber priorRound (hdenied priorRound)
    rw [hrounds]
    refine ⟨r, ?_, hr, ?_⟩
    · split <;> rfl
    · split
      · rename_i hreached
        exact fun _ => hreached
      · intro hstate
        cases hstate
  | succ left ih =>
    obtain ⟨r, hr, hrounds⟩ := rounds_succ (left + 1) roundNumber priorRound (hdenied priorRound)
    rw [hrounds]
    split
    · rename_i hreached
      exact ⟨r, rfl, hr, fun _ => hreached⟩
    · obtain ⟨last, hlast, hfinal, hreached⟩ := ih (roundNumber + 1) (some r)
      refine ⟨last, ?_, hfinal, hreached⟩
      show (r :: (E.rounds transaction policyOutcomes (left + 1) (roundNumber + 1)
        (some r)).1).getLast? = some last
      rw [List.getLast?_cons, hlast]
      rfl

end

/-! ## The decision -/

/-- The least bar: `0.7`. -/
theorem lt_of_bar {bar share : Binary64} (hbar : (0.7 : Binary64) ≤ bar)
    (hshare : share.toRat ≤ 706 / 2 ^ 10) : share.toRat < bar.toRat := by
  have hle := (toRat_of_le hbar).2.2
  have hconst : (706 / 2 ^ 10 : Rat) < (0.7 : Binary64).toRat := by decide +kernel
  linarith

/-- A last round in which to allow leads has no consensus. -/
theorem FinalRound.leading {E : ConsensusEngine Binary64} {r : NegotiationRound Binary64}
    (h : FinalRound E r) (hthreshold : (0.7 : Binary64) ≤ E.threshold)
    (hreached : r.consensusReached = true) : r.tally.leadingDecision ≠ .allow := by
  intro hallow
  rw [h.tally] at hallow
  obtain ⟨hunanimous, hshare⟩ := tally_of_denial h.denied hallow
  have hlt := lt_of_bar hthreshold hshare
  rw [h.consensus, h.tally, checkConsensus, hunanimous, Bool.false_or, decide_eq_true_eq] at hreached
  exact absurd (toRat_of_le hreached).2.2 (not_le.2 hlt)

/-- The leading share of a denied vote is a number, and zero if nobody votes for its decision. -/
theorem leadingShare_spec {verdicts : List (AgentVerdict Binary64)} (h : Denied verdicts) :
    (tallyVotes verdicts).leadingShare.isNaN = false ∧
      ((∀ v ∈ verdicts, v.decision ≠ (tallyVotes verdicts).leadingDecision) →
        (tallyVotes verdicts).leadingShare.toRat = 0) := by
  rw [h.tallyVotes_eq]
  exact ⟨isNaN_shareOf .., fun hnone => shareOf_eq_zero hnone⟩

/-- The arbiter does not allow a denied vote, and always answers. -/
theorem highestWeightConfidence_denied {r : NegotiationRound Binary64} {minConfidence : Binary64}
    (h : Denied r.verdicts) (hbar : (0.7 : Binary64) ≤ minConfidence) :
    ∃ resolution, highestWeightConfidence minConfidence r = .ok resolution ∧
      ∀ a, resolution = some a → a.resolvedDecision ≠ .allow := by
  obtain ⟨hnan, hzero⟩ := leadingShare_spec h
  unfold highestWeightConfidence
  dsimp only
  split
  · exact ⟨none, rfl, fun a ha => by cases ha⟩
  · rename_i hnot
    have hge : ¬ (tallyVotes r.verdicts).leadingShare.toRat < minConfidence.toRat := fun hlt =>
      hnot ((lt_iff_toRat hnan (toRat_of_le hbar).2.1).2 hlt)
    cases hwinning : r.verdicts.filter
        fun v => v.decision = (tallyVotes r.verdicts).leadingDecision with
    | nil =>
      have hnone := hzero fun v hv => by
        simpa using List.filter_eq_nil_iff.1 hwinning v hv
      exact absurd (lt_of_bar hbar (by rw [hnone]; norm_num)) hge
    | cons first rest =>
      refine ⟨_, rfl, fun a ha hallow => ?_⟩
      obtain rfl := Option.some.inj ha
      exact hge (lt_of_bar hbar (tally_of_denial h hallow).2)

theorem arbitrate_denied {rounds : List (NegotiationRound Binary64)} {r : NegotiationRound Binary64}
    {minConfidence : Binary64} (hlast : rounds.getLast? = some r) (h : Denied r.verdicts)
    (hbar : (0.7 : Binary64) ≤ minConfidence) :
    ∃ resolution, arbitrate minConfidence rounds = .ok resolution ∧
      ∀ a, resolution = some a → a.resolvedDecision ≠ .allow := by
  rw [arbitrate, hlast]
  dsimp only
  cases hexplicit : explicitDenyPrecedence r with
  | none => exact highestWeightConfidence_denied h hbar
  | some resolution =>
    refine ⟨some resolution, rfl, fun a ha => ?_⟩
    obtain rfl := Option.some.inj ha
    unfold explicitDenyPrecedence at hexplicit
    split at hexplicit
    · cases hexplicit
    · obtain rfl := Option.some.inj hexplicit
      exact Decision.noConfusion

theorem resolveDeadlock_denied {O : NegotiationOrchestrator Binary64} (call : NegotiationCall)
    (transaction : TransactionPayload) (policyOutcomes : List PolicyOutcome)
    {rounds : List (NegotiationRound Binary64)} {r : NegotiationRound Binary64}
    (hlast : rounds.getLast? = some r) (h : Denied r.verdicts)
    (hbar : (0.7 : Binary64) ≤ O.minConfidence) :
    ∃ result, O.resolveDeadlock call transaction policyOutcomes rounds = .ok result ∧
      result.finalDecision ≠ .allow := by
  have hsome : rounds.isEmpty = false := by
    cases rounds with
    | nil => cases hlast
    | cons r rounds => rfl
  obtain ⟨resolution, harbitrate, hresolved⟩ := arbitrate_denied hlast h hbar
  unfold NegotiationOrchestrator.resolveDeadlock
  rw [hsome, harbitrate]
  cases resolution with
  | none => exact ⟨_, rfl, Decision.noConfusion⟩
  | some a => exact ⟨_, rfl, hresolved a rfl⟩

/-- **A claimed violation is never allowed** by the package's agents, each at most once, in at least
one round, when both bars are `0.7` or more. -/
theorem negotiate_claimed (O : NegotiationOrchestrator Binary64)
    (hagents : O.consensusEngine.agents.Subperm packageAgents)
    (hrounds : 1 ≤ O.consensusEngine.maxRounds)
    (hthreshold : (0.7 : Binary64) ≤ O.consensusEngine.threshold)
    (hbar : (0.7 : Binary64) ≤ O.minConfidence) (call : NegotiationCall)
    (transaction : TransactionPayload) (policyOutcomes : List PolicyOutcome)
    (hclaimed : Claimed O.consensusEngine.agents policyOutcomes) :
    ∃ result, O.negotiate call transaction policyOutcomes = .ok result ∧
      result.finalDecision ≠ .allow := by
  obtain ⟨left, hleft⟩ : ∃ left, O.consensusEngine.maxRounds.toNat = left + 1 :=
    ⟨O.consensusEngine.maxRounds.toNat - 1, by omega⟩
  obtain ⟨r, hlast, hfinal, hreached⟩ :=
    rounds_final (fun prior => collect_denied hagents hclaimed prior) left 1 none
  unfold NegotiationOrchestrator.negotiate ConsensusEngine.run
  rw [hleft]
  generalize O.consensusEngine.rounds transaction policyOutcomes (left + 1) 1 none = result at *
  obtain ⟨rounds, state⟩ := result
  cases state with
  | consensusReached =>
    dsimp only at hlast ⊢
    rw [hlast]
    exact ⟨_, rfl, hfinal.leading hthreshold (hreached rfl)⟩
  | collecting | negotiating | deadlocked =>
    exact resolveDeadlock_denied call transaction policyOutcomes hlast hfinal.denied hbar

/-! ## Denials that are allowed -/

def marginPassed : PolicyOutcome where
  ruleId := "RULE-1"
  package := "sebi.margin"
  allow := some true

def disclosurePassed : PolicyOutcome where
  ruleId := "RULE-2"
  package := "sebi.risk_disclosure"
  allow := some true

def segregationPassed : PolicyOutcome where
  ruleId := "RULE-3"
  package := "sebi.segregation"
  allow := some true

/-- A violation that has no keyword of an agent in it. -/
def netWorthBreach : PolicyOutcome where
  ruleId := "RULE-4"
  package := "sebi.capital"
  allow := some false
  violations := ["Net worth low"]

/-- A violation in the scope of the disclosure agent, without a circular to cite. -/
def disclosureBreach : PolicyOutcome where
  ruleId := "RULE-2"
  package := "sebi.risk_disclosure"
  allow := some false
  violations := ["Not provided"]

def tradePayload : TransactionPayload := ⟨"t-1", "Stockbroker", [], none⟩

theorem caseId_ne : "case-1" ≠ "" := by decide

/-- The package's agents under these settings. -/
def packageOrchestrator (threshold minConfidence : Binary64) (maxRounds : Int) :
    NegotiationOrchestrator Binary64 where
  consensusEngine := { agents := packageAgents, threshold := threshold, maxRounds := maxRounds }
  minConfidence := minConfidence
  enqueue := fun _ _ _ => ⟨"case-1", caseId_ne⟩

/-- The final decision on these outcomes. -/
def finalDecision (O : NegotiationOrchestrator Binary64) (policyOutcomes : List PolicyOutcome) :
    Option Decision :=
  (O.negotiate ⟨"n-1", Governance.newYear, Governance.newYear⟩ tradePayload
    policyOutcomes).toOption.map (·.finalDecision)

/-- **Denied outcomes that a negotiation allows**: with the configured settings, a violation that no
agent claims; with bars of `0.6`, a claimed one that the other agents outvote; and without rounds. -/
theorem negotiate_allows_denied :
    let unclaimed := [marginPassed, disclosurePassed, netWorthBreach]
    let outvoted := [marginPassed, disclosureBreach, segregationPassed]
    (shouldNegotiate unclaimed (packageAgents : List (DomainAgent Binary64)) = true ∧
      (reduce unclaimed).1 = .deny ∧
      finalDecision (packageOrchestrator 0.7 0.75 3) unclaimed = some .allow) ∧
    (shouldNegotiate outvoted (packageAgents : List (DomainAgent Binary64)) = true ∧
      (reduce outvoted).1 = .deny ∧
      finalDecision (packageOrchestrator 0.6 0.75 3) outvoted = some .allow ∧
      finalDecision (packageOrchestrator 0.7 0.6 1) outvoted = some .allow ∧
      finalDecision (packageOrchestrator 0.7 0.75 0) outvoted = some .allow) := by
  decide +kernel

/-- The same claimed violation with the configured settings. -/
theorem negotiate_claimed_outvoted :
    ∃ result, (packageOrchestrator 0.7 0.75 3).negotiate ⟨"n-1", Governance.newYear,
        Governance.newYear⟩ tradePayload [marginPassed, disclosureBreach, segregationPassed] =
      .ok result ∧ result.finalDecision ≠ .allow := by
  refine negotiate_claimed _ (List.Subperm.refl _) ?_ ?_ ?_ _ _ _ ?_
  · decide
  · decide +kernel
  · decide +kernel
  · exact ⟨riskDisclosureAgent, by simp [packageOrchestrator, packageAgents], disclosureBreach,
      by decide +kernel, by decide⟩

end RegEngine.Negotiation
