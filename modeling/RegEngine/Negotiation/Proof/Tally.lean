import Mathlib.Data.List.Dedup
import Mathlib.Algebra.BigOperators.Group.List.Basic
import Mathlib.Data.Rat.Defs
import Mathlib.Tactic.Linarith
import RegEngine.Negotiation.Orchestrator

/-!
# Denials in the tally

The vote of the package's agents on doubles, once one of them denies. A vote is counted in units of
`2 ^ -10` of voting power, rounded down (`units`); the agents' weights and confidences bound it
(`Vote`), and so the rounded shares.

* `votesOf_eq`: the voting powers are the sums over the verdicts of each decision.
* `tally_of_denial`: if to allow leads, then with a share below `0.7` and not unanimously.
-/

namespace RegEngine.Negotiation

open Lib Binary64 Execution

/-! ## Sums of votes -/

section
variable {α : Type} [Number α]

/-- The sum of the voting powers of some verdicts. -/
def powerSum (verdicts : List (AgentVerdict α)) : α :=
  verdicts.foldl (fun acc v => acc + v.power) 0

theorem foldl_add_eq (verdicts : List (AgentVerdict α)) (votes : Votes α) :
    verdicts.foldl Votes.add votes =
      { votingPower := fun d =>
          (verdicts.filter fun v => v.decision = d).foldl (fun acc v => acc + v.power)
            (votes.votingPower d)
        totalPower := verdicts.foldl (fun acc v => acc + v.power) votes.totalPower } := by
  induction verdicts generalizing votes with
  | nil => rfl
  | cons v verdicts ih =>
    rw [List.foldl_cons, ih]
    unfold Votes.add
    congr 1
    funext d
    by_cases hd : v.decision = d
    · simp [hd]
    · simp [hd, Ne.symm hd]

/-- **The voting powers**: of a decision, the sum over its verdicts. -/
theorem votesOf_eq (verdicts : List (AgentVerdict α)) :
    votesOf verdicts =
      { votingPower := fun d => powerSum (verdicts.filter fun v => v.decision = d)
        totalPower := powerSum verdicts } :=
  foldl_add_eq verdicts _

end

/-! ## The votes of the package's agents -/

/-- The decisions and confidences of a first round: a denial and two that pressure softens. -/
def firstVotes : List (Decision × Binary64) := [(.deny, 0.9), (.allow, 0.85), (.flagged, 0.4)]

def packageVotes : List (Decision × Binary64) :=
  firstVotes ++ firstVotes.tail.map fun vote => (vote.1, softenedConfidence vote.2)

/-- Voting power in units of `2 ^ -10`, rounded down. -/
def units (v : AgentVerdict Binary64) : Nat := (v.power.toRat * 2 ^ 10).floor.toNat

/-- The most units an agent has to allow. -/
def allowCap (agentKey : String) : Nat :=
  if agentKey = "margin_agent" then 1044
  else if agentKey = "fund_segregation_agent" then 957
  else 870

/-- The verdict votes as an agent of the package does. -/
structure Vote (v : AgentVerdict Binary64) : Prop where
  nonneg : 0 ≤ v.power.toRat
  atMost : units v ≤ 1200
  deny : v.decision = .deny → 911 ≤ units v
  allow : v.decision = .allow → units v ≤ allowCap v.agentKey

theorem power_bounds :
    ∀ agent ∈ (packageAgents : List (DomainAgent Binary64)), ∀ vote ∈ packageVotes,
      let p := (agent.weight * vote.2).toRat
      0 ≤ p ∧ (p * 2 ^ 10).floor.toNat ≤ 1200 ∧
        (vote.1 = .deny → 911 ≤ (p * 2 ^ 10).floor.toNat) ∧
        (vote.1 = .allow → (p * 2 ^ 10).floor.toNat ≤ allowCap agent.agentKey) := by
  decide +kernel

theorem Vote.within {v : AgentVerdict Binary64} (h : Vote v) :
    Within 10 v.power (units v) (units v + 1) := by
  have hscale : (0 : Rat) < 2 ^ 10 := by norm_num
  have hnonneg : 0 ≤ v.power.toRat * 2 ^ 10 := mul_nonneg h.nonneg hscale.le
  have hfloor : ((units v : Int) : Rat) = ((v.power.toRat * 2 ^ 10).floor : Int) := by
    rw [units, Int.toNat_of_nonneg (Rat.le_floor_iff.2 (by simpa using hnonneg))]
  rw [Int.cast_natCast] at hfloor
  constructor
  · rw [div_le_iff₀ hscale, hfloor]
    exact Rat.floor_le _
  · rw [le_div_iff₀ hscale, Nat.cast_add, Nat.cast_one, hfloor]
    exact_mod_cast (Rat.lt_floor_add_one _).le

theorem sum_units_le {verdicts : List (AgentVerdict Binary64)} (h : ∀ v ∈ verdicts, Vote v) :
    (verdicts.map units).sum ≤ 1200 * verdicts.length := by
  induction verdicts with
  | nil => exact Nat.le_refl 0
  | cons v verdicts ih =>
    have hv := (h v List.mem_cons_self).atMost
    have hrest := ih fun w hw => h w (List.mem_cons_of_mem v hw)
    rw [List.map_cons, List.sum_cons, List.length_cons]
    omega

/-- The rounded sum of some votes lies between their units and one more unit each. -/
theorem within_powerSum {verdicts : List (AgentVerdict Binary64)} (h : ∀ v ∈ verdicts, Vote v)
    (hlength : verdicts.length ≤ 3) :
    Within 10 (powerSum verdicts) (verdicts.map units).sum
      ((verdicts.map units).sum + verdicts.length) := by
  have hcount : (verdicts.map fun v => units v + 1).sum =
      (verdicts.map units).sum + verdicts.length := by
    rw [List.sum_map_add]
    simp
  have hsmall := sum_units_le h
  have hzero : Within 10 (0 : Binary64) 0 0 := by
    refine within_ofRat (by decide) ?_ ?_ (by decide) <;> simp
  have hsum := within_foldl_add (f := AgentVerdict.power) (l := units) (h := fun v => units v + 1)
    (by decide) verdicts 0 0 0 (fun v hv => (h v hv).within) hzero (by omega)
  rw [Nat.zero_add, Nat.zero_add, hcount] at hsum
  exact hsum

/-! ## A denial -/

/-- Some votes of the package's agents, each agent at most once, one of them to deny. -/
structure Denied (verdicts : List (AgentVerdict Binary64)) : Prop where
  votes : ∀ v ∈ verdicts, Vote v
  length : verdicts.length ≤ 3
  caps : (verdicts.map fun v => allowCap v.agentKey).sum ≤ 2871
  deny : ∃ v ∈ verdicts, v.decision = .deny

/-- The units of some verdicts, by decision. -/
def unitsOf (verdicts : List (AgentVerdict Binary64)) (d : Decision) : Nat :=
  ((verdicts.filter fun v => v.decision = d).map units).sum

/-- Each denial leaves its agent's cap unused and has at least 911 units. -/
theorem unitsOf_bounds {verdicts : List (AgentVerdict Binary64)} (h : ∀ v ∈ verdicts, Vote v) :
    let denials := (verdicts.filter fun v => v.decision = .deny).length
    unitsOf verdicts .allow + 870 * denials ≤ (verdicts.map fun v => allowCap v.agentKey).sum ∧
      unitsOf verdicts .allow + unitsOf verdicts .deny ≤ (verdicts.map units).sum ∧
      911 * denials ≤ unitsOf verdicts .deny := by
  induction verdicts with
  | nil => exact ⟨Nat.le_refl 0, Nat.le_refl 0, Nat.le_refl 0⟩
  | cons v verdicts ih =>
    obtain ⟨hcaps, hunits, hdeny⟩ := ih fun w hw => h w (List.mem_cons_of_mem v hw)
    have hv := h v List.mem_cons_self
    have hcap : 870 ≤ allowCap v.agentKey := by
      unfold allowCap
      split
      · omega
      · split <;> omega
    cases hd : v.decision with
    | allow =>
      have hallow := hv.allow hd
      simp only [unitsOf, List.filter_cons, hd, List.map_cons, List.sum_cons, decide_true, if_true,
        decide_false, Bool.false_eq_true, if_false, reduceCtorEq] at *
      omega
    | deny =>
      have hdeny' := hv.deny hd
      simp only [unitsOf, List.filter_cons, hd, List.map_cons, List.sum_cons, decide_true, if_true,
        decide_false, Bool.false_eq_true, if_false, reduceCtorEq, List.length_cons] at *
      omega
    | flagged =>
      simp only [unitsOf, List.filter_cons, hd, List.map_cons, List.sum_cons, decide_false,
        Bool.false_eq_true, if_false, reduceCtorEq] at *
      omega

variable {verdicts : List (AgentVerdict Binary64)}

theorem Denied.unitsOf (h : Denied verdicts) :
    unitsOf verdicts .allow ≤ 2001 ∧ 911 ≤ unitsOf verdicts .deny ∧
      unitsOf verdicts .allow + unitsOf verdicts .deny ≤ (verdicts.map units).sum := by
  obtain ⟨hcaps, hunits, hdeny⟩ := unitsOf_bounds h.votes
  obtain ⟨v, hv, hd⟩ := h.deny
  have hcount : 0 < (verdicts.filter fun v => v.decision = .deny).length :=
    List.length_pos_of_mem (List.mem_filter.2 ⟨hv, by simp [hd]⟩)
  have := h.caps
  omega

/-- The share of a decision. -/
def shareOf (verdicts : List (AgentVerdict Binary64)) (d : Decision) : Binary64 :=
  (votesOf verdicts).votingPower d / (votesOf verdicts).totalPower

theorem Denied.within_total (h : Denied verdicts) :
    Within 10 (votesOf verdicts).totalPower (verdicts.map units).sum
      ((verdicts.map units).sum + verdicts.length) := by
  rw [votesOf_eq]
  exact within_powerSum h.votes h.length

theorem Denied.within_votes (h : Denied verdicts) (d : Decision) :
    Within 10 ((votesOf verdicts).votingPower d) (Negotiation.unitsOf verdicts d)
      (Negotiation.unitsOf verdicts d + 3) := by
  rw [votesOf_eq]
  have hlength : (verdicts.filter fun v => v.decision = d).length ≤ 3 :=
    Nat.le_trans (List.length_filter_le ..) h.length
  have hsum := within_powerSum (fun v hv => h.votes v (List.mem_of_mem_filter hv)) hlength
  refine ⟨hsum.lower, hsum.upper.trans ?_⟩
  refine div_le_div_of_nonneg_right (Nat.cast_le.2 ?_) (by norm_num)
  exact Nat.add_le_add_left hlength _

/-- **The shares of a denied vote**: to allow has less than `0.69`, to deny a quarter. -/
theorem Denied.shares (h : Denied verdicts) :
    (shareOf verdicts .allow).toRat ≤ 706 / 2 ^ 10 ∧ 256 / 2 ^ 10 ≤ (shareOf verdicts .deny).toRat := by
  obtain ⟨hallow, hdeny, hsum⟩ := h.unitsOf
  have htotal := sum_units_le h.votes
  have hlength := h.length
  constructor
  · have hshare := (h.within_votes .allow).div h.within_total (m := 0) (n := 706) (u := 10) (by omega)
      (by decide) (by omega) (by omega) (by decide)
    exact_mod_cast hshare.upper
  · have hshare := (h.within_votes .deny).div h.within_total (m := 256) (n := 2048 ) (u := 10)
      (by omega) (by decide) (by omega) (by omega) (by decide)
    exact_mod_cast hshare.lower

theorem isNaN_shareOf (verdicts : List (AgentVerdict Binary64)) (d : Decision) :
    (shareOf verdicts d).isNaN = false := isNaN_ofRat _

/-- A decision that nobody votes for has no share. -/
theorem shareOf_eq_zero {d : Decision} (h : ∀ v ∈ verdicts, v.decision ≠ d) :
    (shareOf verdicts d).toRat = 0 := by
  have hnone : verdicts.filter (fun v => v.decision = d) = [] :=
    List.filter_eq_nil_iff.2 fun v hv => by simpa using h v hv
  have hpower : (votesOf verdicts).votingPower d = ofRat 0 := by
    rw [votesOf_eq]
    show powerSum (verdicts.filter fun v => v.decision = d) = ofRat 0
    rw [hnone]
    rfl
  show (ofRat (((votesOf verdicts).votingPower d).toRat / _)).toRat = 0
  rw [hpower, toRat_zero, zero_div, toRat_zero]

/-- The tally of a denied vote is the one of its shares. -/
theorem Denied.tallyVotes_eq (h : Denied verdicts) :
    tallyVotes verdicts =
      { weightedShare := shareOf verdicts
        leadingDecision := leadingDecision (shareOf verdicts)
        leadingShare := shareOf verdicts (leadingDecision (shareOf verdicts))
        unanimous := (verdicts.map (·.decision)).dedup.length = 1 } := by
  obtain ⟨-, hdeny, hsum⟩ := h.unitsOf
  have htotal : ¬ ((votesOf verdicts).totalPower == 0) = true := by
    intro hzero
    have hlower := h.within_total.lower
    rw [toRat_of_eq hzero, show ((0 : Binary64)).toRat = 0 from toRat_zero] at hlower
    have hpos : (0 : Rat) < ((verdicts.map units).sum : Nat) := by exact_mod_cast (by omega)
    have := div_pos hpos (by norm_num : (0 : Rat) < 2 ^ 10)
    linarith
  unfold tallyVotes
  dsimp only
  rw [if_neg htotal]
  rfl

/-- The leading decision is to allow only where the share to deny is no larger. -/
theorem not_lt_of_leading_allow {share : Decision → Binary64}
    (h : leadingDecision share = .allow) : ¬ share .allow < share .deny := by
  intro hlt
  have hmax : Number.maxBy share .allow [.deny, .flagged] =
      if share .deny < share .flagged then .flagged else .deny := by
    simp [Number.maxBy, Number.firstMax, hlt]
  unfold leadingDecision at h
  rw [hmax] at h
  by_cases hflagged : share .deny < share .flagged
  · simp only [hflagged, if_true] at h
    split at h <;> cases h
  · simp [hflagged] at h

/-- **A denied vote.** If to allow leads, others have voted otherwise and its share is below `0.69`. -/
theorem tally_of_denial (h : Denied verdicts)
    (hlead : (tallyVotes verdicts).leadingDecision = .allow) :
    (tallyVotes verdicts).unanimous = false ∧
      (tallyVotes verdicts).leadingShare.toRat ≤ 706 / 2 ^ 10 := by
  obtain ⟨hallow, hdeny⟩ := h.shares
  rw [h.tallyVotes_eq] at hlead ⊢
  replace hlead : leadingDecision (shareOf verdicts) = .allow := hlead
  have hnot : (shareOf verdicts .deny).toRat ≤ (shareOf verdicts .allow).toRat := by
    have hlt := not_lt_of_leading_allow hlead
    have hiff := lt_iff_toRat (isNaN_shareOf verdicts .allow) (isNaN_shareOf verdicts .deny)
    exact not_lt.1 fun hcontra => hlt (hiff.2 hcontra)
  refine ⟨?_, ?_⟩
  · -- somebody allows, since the share is positive, and somebody denies
    have hsome : ∃ v ∈ verdicts, v.decision = .allow := by
      by_contra hnone
      have hzero := shareOf_eq_zero fun v hv hva => hnone ⟨v, hv, hva⟩
      rw [hzero] at hnot
      linarith
    obtain ⟨v, hv, hva⟩ := hsome
    obtain ⟨w, hw, hwd⟩ := h.deny
    show decide ((verdicts.map (·.decision)).dedup.length = 1) = false
    rw [decide_eq_false_iff_not]
    intro hone
    obtain ⟨d, hd⟩ := List.length_eq_one_iff.1 hone
    have hmem : ∀ u ∈ verdicts, u.decision = d := fun u hu => by
      have := List.mem_dedup.2 (List.mem_map_of_mem (f := (·.decision)) hu)
      rw [hd] at this
      exact List.mem_singleton.1 this
    have := (hmem v hv).trans (hmem w hw).symm
    rw [hva, hwd] at this
    cases this
  · rw [hlead]
    exact hallow

end RegEngine.Negotiation

/-!
## The vote on exact numbers

On rational weights and confidences the voting powers are sums, so the order of the verdicts does not
matter. The shares add up to one as soon as some vote has a positive confidence; where none has, nothing is
divided, every share is zero and the round is flagged.
-/

namespace RegEngine.Negotiation

open Lib Execution

/-! ### Sums -/

theorem powerSum_eq (verdicts : List (AgentVerdict Rat)) :
    powerSum verdicts = (verdicts.map AgentVerdict.power).sum := by
  have hfoldl : ∀ (l : List (AgentVerdict Rat)) (init : Rat),
      l.foldl (fun acc v => acc + v.power) init = init + (l.map AgentVerdict.power).sum := by
    intro l
    induction l with
    | nil => exact fun init => (add_zero init).symm
    | cons v l ih =>
      intro init
      rw [List.foldl_cons, ih, List.map_cons, List.sum_cons, add_assoc]
  exact (hfoldl verdicts 0).trans (zero_add _)

theorem powerSum_perm {verdicts verdicts' : List (AgentVerdict Rat)} (h : verdicts.Perm verdicts') :
    powerSum verdicts = powerSum verdicts' := by
  rw [powerSum_eq, powerSum_eq]
  exact (h.map _).sum_eq

theorem votesOf_perm {verdicts verdicts' : List (AgentVerdict Rat)} (h : verdicts.Perm verdicts') :
    votesOf verdicts = votesOf verdicts' := by
  rw [votesOf_eq, votesOf_eq, powerSum_perm h]
  congr 1
  funext d
  exact powerSum_perm (h.filter _)

/-- The powers of the decisions make up the total. -/
theorem sum_votingPower (verdicts : List (AgentVerdict Rat)) :
    (votesOf verdicts).votingPower .allow + (votesOf verdicts).votingPower .deny +
      (votesOf verdicts).votingPower .flagged = (votesOf verdicts).totalPower := by
  rw [votesOf_eq]
  simp only [powerSum_eq]
  induction verdicts with
  | nil => simp
  | cons v verdicts ih =>
    rw [List.map_cons, List.sum_cons, ← ih]
    cases hd : v.decision with
    | allow =>
      simp only [List.filter_cons, hd, decide_true, if_true, reduceCtorEq, decide_false, Bool.false_eq_true,
        if_false, List.map_cons, List.sum_cons]
      ring
    | deny =>
      simp only [List.filter_cons, hd, decide_true, if_true, reduceCtorEq, decide_false, Bool.false_eq_true,
        if_false, List.map_cons, List.sum_cons]
      ring
    | flagged =>
      simp only [List.filter_cons, hd, decide_true, if_true, reduceCtorEq, decide_false, Bool.false_eq_true,
        if_false, List.map_cons, List.sum_cons]
      ring

/-! ### Valid votes -/

/-- What the model's fields require of a verdict. -/
structure AgentVerdict.Valid (v : AgentVerdict Rat) : Prop where
  weight : 0 < v.weight
  confidence_nonneg : 0 ≤ v.confidence
  confidence_le : v.confidence ≤ 1

theorem power_nonneg {v : AgentVerdict Rat} (h : v.Valid) : 0 ≤ v.power :=
  mul_nonneg h.weight.le h.confidence_nonneg

theorem totalPower_nonneg : ∀ {verdicts : List (AgentVerdict Rat)}, (∀ v ∈ verdicts, v.Valid) →
    0 ≤ (verdicts.map AgentVerdict.power).sum
  | [], _ => le_refl 0
  | v :: verdicts, h => by
    have hv := power_nonneg (h v List.mem_cons_self)
    have hrest := totalPower_nonneg fun w hw => h w (List.mem_cons_of_mem v hw)
    rw [List.map_cons, List.sum_cons]
    linarith

/-- The total is zero exactly where every confidence is. -/
theorem totalPower_eq_zero_iff : ∀ {verdicts : List (AgentVerdict Rat)}, (∀ v ∈ verdicts, v.Valid) →
    ((verdicts.map AgentVerdict.power).sum = 0 ↔ ∀ v ∈ verdicts, v.confidence = 0)
  | [], _ => by simp
  | v :: verdicts, h => by
    obtain ⟨hv, hvs⟩ := List.forall_mem_cons.1 h
    have hpower := power_nonneg hv
    have hrest := totalPower_nonneg hvs
    have hzero : v.power = 0 ↔ v.confidence = 0 :=
      mul_eq_zero.trans (or_iff_right hv.weight.ne')
    rw [List.map_cons, List.sum_cons, List.forall_mem_cons, ← totalPower_eq_zero_iff hvs, ← hzero]
    constructor
    · intro hsum
      exact ⟨by linarith, by linarith⟩
    · rintro ⟨hpower, hsum⟩
      rw [hpower, hsum, add_zero]

/-! ### Tallies -/

theorem tallyVotes_perm {verdicts verdicts' : List (AgentVerdict Rat)} (h : verdicts.Perm verdicts') :
    tallyVotes verdicts = tallyVotes verdicts' := by
  have hlength : (verdicts.map (·.decision)).dedup.length = (verdicts'.map (·.decision)).dedup.length :=
    (h.map _).dedup.length_eq
  unfold tallyVotes
  rw [votesOf_perm h, hlength]

theorem tallyVotes_of_zero {verdicts : List (AgentVerdict Rat)}
    (h : (votesOf verdicts).totalPower = 0) :
    tallyVotes verdicts =
      { weightedShare := fun _ => 0, leadingDecision := .flagged, leadingShare := 0
        unanimous := false } := by
  unfold tallyVotes
  exact if_pos (beq_iff_eq.2 h)

theorem tallyVotes_of_ne_zero {verdicts : List (AgentVerdict Rat)}
    (h : (votesOf verdicts).totalPower ≠ 0) :
    (tallyVotes verdicts).weightedShare =
        (fun d => (votesOf verdicts).votingPower d / (votesOf verdicts).totalPower) ∧
      (tallyVotes verdicts).leadingDecision = leadingDecision (tallyVotes verdicts).weightedShare := by
  unfold tallyVotes
  dsimp only
  rw [if_neg fun heq => h (beq_iff_eq.1 heq)]
  exact ⟨rfl, rfl⟩

theorem sum_weightedShare {verdicts : List (AgentVerdict Rat)}
    (h : (votesOf verdicts).totalPower ≠ 0) :
    (tallyVotes verdicts).weightedShare .allow + (tallyVotes verdicts).weightedShare .deny +
      (tallyVotes verdicts).weightedShare .flagged = 1 := by
  rw [(tallyVotes_of_ne_zero h).1]
  dsimp only
  rw [← add_div, ← add_div, sum_votingPower, div_self h]

/-- To allow does not lead a vote in which denials have a share near every other one. -/
theorem leadingDecision_ne_allow {share : Decision → Rat} (hpos : 0 < share .deny)
    (hnear : ∀ d, share d - share .deny < denyTieBreakMargin) : leadingDecision share ≠ .allow := by
  intro hlead
  unfold leadingDecision at hlead
  dsimp only at hlead
  split at hlead
  · cases hlead
  · rename_i hnot
    rw [hlead] at hnot
    exact hnot ⟨by decide, hnear .allow, hpos⟩

/-- **A vote is fair and cautious.** Its tally does not depend on the order of the verdicts; the shares add
up to one, or are all zero where nobody has any confidence and the round is flagged; and to allow never
leads while the share to deny is less than the margin below every share. -/
theorem tally_fair (verdicts verdicts' : List (AgentVerdict Rat)) (hvalid : ∀ v ∈ verdicts, v.Valid)
    (hperm : verdicts.Perm verdicts') :
    tallyVotes verdicts = tallyVotes verdicts' ∧
    ((∃ v ∈ verdicts, 0 < v.confidence) → (tallyVotes verdicts).weightedShare .allow +
      (tallyVotes verdicts).weightedShare .deny + (tallyVotes verdicts).weightedShare .flagged = 1) ∧
    ((∀ v ∈ verdicts, v.confidence = 0) → (∀ d, (tallyVotes verdicts).weightedShare d = 0) ∧
      (tallyVotes verdicts).leadingDecision = .flagged) ∧
    ((∀ d, (tallyVotes verdicts).weightedShare d - (tallyVotes verdicts).weightedShare .deny <
      denyTieBreakMargin) → (tallyVotes verdicts).leadingDecision ≠ .allow) := by
  have htotal : (votesOf verdicts).totalPower = 0 ↔ ∀ v ∈ verdicts, v.confidence = 0 := by
    rw [votesOf_eq, powerSum_eq]
    exact totalPower_eq_zero_iff hvalid
  refine ⟨tallyVotes_perm hperm, fun ⟨v, hv, hpos⟩ => ?_, fun hzero => ?_, fun hnear => ?_⟩
  · exact sum_weightedShare fun heq => hpos.ne' (htotal.1 heq v hv)
  · rw [tallyVotes_of_zero (htotal.2 hzero)]
    exact ⟨fun _ => rfl, rfl⟩
  · by_cases hzero : (votesOf verdicts).totalPower = 0
    · rw [tallyVotes_of_zero hzero]
      decide
    · rw [(tallyVotes_of_ne_zero hzero).2]
      refine leadingDecision_ne_allow ?_ hnear
      -- the three shares add up to one, so a share near the others is positive
      have hsum := sum_weightedShare hzero
      have hallow := hnear .allow
      have hflagged := hnear .flagged
      have hmargin : (denyTieBreakMargin : Rat) = 5 / 100 := by
        unfold denyTieBreakMargin
        norm_num
      rw [hmargin] at hallow hflagged
      linarith

def verdictOf (decision : Decision) (confidence : Rat) : AgentVerdict Rat where
  agentKey := "margin_agent"
  domain := "margin"
  decision := decision
  confidence := confidence
  weight := 1
  rationale := ""

/-- An agent that allows and one that denies, heard in two orders. -/
theorem tally_fair_two :
    tallyVotes [verdictOf .allow (1 / 2), verdictOf .deny (1 / 2)] =
      tallyVotes [verdictOf .deny (1 / 2), verdictOf .allow (1 / 2)] ∧
    (tallyVotes [verdictOf .allow (1 / 2), verdictOf .deny (1 / 2)]).leadingDecision ≠ .allow := by
  obtain ⟨hperm, -, -, hcautious⟩ := tally_fair [verdictOf .allow (1 / 2), verdictOf .deny (1 / 2)]
    [verdictOf .deny (1 / 2), verdictOf .allow (1 / 2)]
    (by
      intro v hv
      simp only [List.mem_cons, List.not_mem_nil, or_false] at hv
      rcases hv with rfl | rfl
      · exact ⟨by decide +kernel, by decide +kernel, by decide +kernel⟩
      · exact ⟨by decide +kernel, by decide +kernel, by decide +kernel⟩)
    (List.Perm.swap _ _ _)
  refine ⟨hperm, hcautious fun d => ?_⟩
  cases d with
  | allow => decide +kernel
  | deny => decide +kernel
  | flagged => decide +kernel

/-- **A vote without confidence** has no shares that add up to one. -/
theorem not_forall_shares_sum : ¬ ∀ verdicts : List (AgentVerdict Rat), verdicts ≠ [] →
    (∀ v ∈ verdicts, v.Valid) → (tallyVotes verdicts).weightedShare .allow +
      (tallyVotes verdicts).weightedShare .deny + (tallyVotes verdicts).weightedShare .flagged = 1 := by
  intro h
  have hsum := h [verdictOf .allow 0] (List.cons_ne_nil _ _) fun v hv => by
    rw [List.mem_singleton.1 hv]
    exact ⟨by decide +kernel, by decide +kernel, by decide +kernel⟩
  exact absurd hsum (by decide +kernel)

end RegEngine.Negotiation
