import Mathlib.Data.List.Induction
import RegEngine.FixGateway.HotReload

/-!
# The loaded versions

An event whose row is missing, or whose load raises, leaves the loaded version in place; so a policy is that
of the latest event for its rule, these apart.

* `mem_put`, `mem_remove`: what is in the store after each operation.
* `Follows.step`: what one event keeps, and `follows_run`: what a run of events keeps.
-/

namespace RegEngine.FixGateway

open Lib Execution

/-! ## The store -/

namespace FixPolicyStore

theorem mem_remove {store : FixPolicyStore} {ruleId : String} {p : LoadedFixPolicy} :
    p ∈ (store.remove ruleId).policies ↔ p ∈ store.policies ∧ p.ruleId ≠ ruleId := by
  rw [remove, List.mem_filter, decide_eq_true_eq]

theorem mem_put {store : FixPolicyStore} {policy p : LoadedFixPolicy}
    (h : p ∈ (store.put policy).policies) :
    p = policy ∨ p ∈ store.policies ∧ p.ruleId ≠ policy.ruleId := by
  unfold put at h
  split at h
  · obtain ⟨q, hq, hp⟩ := List.mem_map.1 h
    by_cases hid : q.ruleId = policy.ruleId
    · rw [if_pos hid] at hp
      exact .inl hp.symm
    · rw [if_neg hid] at hp
      rw [← hp]
      exact .inr ⟨hq, hid⟩
  · rename_i hnew
    cases List.mem_append.1 h with
    | inl hold =>
      refine .inr ⟨hold, fun hid => hnew ?_⟩
      rw [← hid]
      exact List.mem_map_of_mem hold
    | inr hlast => exact .inl (List.mem_singleton.1 hlast)

theorem ne_of_get?_none {store : FixPolicyStore} {ruleId : String} (h : store.get? ruleId = none)
    {p : LoadedFixPolicy} (hp : p ∈ store.policies) : p.ruleId ≠ ruleId := by
  have hall := List.find?_eq_none.1 h p hp
  simpa using hall

end FixPolicyStore

/-! ## Events -/

/-- The event names the rule. -/
def Delivery.isFor (d : Delivery) (ruleId : String) : Bool := d.event.map PolicyEvent.ruleId == some ruleId

/-- The row is missing, or the load raises something else than that the rule is not supported. -/
def Delivery.leaves (d : Delivery) : Bool :=
  match d.outcome with
  | .rowMissing | .failed => true
  | _ => false

/-- The most recent event for a rule. -/
def latestFor (ruleId : String) (history : List Delivery) : Option Delivery :=
  (history.filter fun d => d.isFor ruleId).getLast?

/-- The most recent event for a rule, those apart that leave the loaded version in place. -/
def latestTaken (ruleId : String) (history : List Delivery) : Option Delivery :=
  (history.filter fun d => d.isFor ruleId && !d.leaves).getLast?

/-- Every loaded policy is that of the most recent event for its rule, which is no revocation. -/
def Current (history : List Delivery) : Prop :=
  ∀ p ∈ (handleEvents history).policies,
    ∃ d, latestFor p.ruleId history = some d ∧ d.outcome = .loaded p

/-- So it is, but for the events that leave the loaded version in place. -/
def Follows (history : List Delivery) : Prop :=
  ∀ p ∈ (handleEvents history).policies,
    ∃ d, latestTaken p.ruleId history = some d ∧ d.outcome = .loaded p

/-- A row that is found is one of the event's rule, as the publisher writes the event. -/
def Delivery.Published (d : Delivery) : Prop :=
  ∀ event db row, d.event = some event → d.db = some db →
    db.rules.get? event.compiledRuleId = some row → row.ruleId = event.ruleId

/-- Each event is published from its row, and none for a loaded rule brings a version that is not
supported. -/
def Orderly (history : List Delivery) : Prop :=
  ∀ before d after, history = before ++ d :: after → d.Published ∧
    ∀ event message, d.event = some event → d.outcome = .unsupported message →
      (handleEvents before).get? event.ruleId = none

theorem buildLoadedPolicy_ruleId {native : Bool} {db : Hitl.Store} {id : Nat} {row : Hitl.CompiledRule}
    {policy : LoadedFixPolicy} (h : buildLoadedPolicy native db id row = .ok policy) :
    policy.ruleId = row.ruleId := by
  unfold buildLoadedPolicy at h
  split at h
  · cases h
  · split at h
    · cases h
    · split at h
      · cases h
      · cases h
      · dsimp only at h
        split at h
        · cases h
        · split at h
          · cases h
          · cases h
            rfl

/-- What each way says of the event. -/
theorem outcome_spec (d : Delivery) :
    match d.outcome with
    | .unparseable => d.event = none
    | .revoked ruleId => ∃ event, d.event = some event ∧ event.ruleId = ruleId
    | .loaded policy => ∃ event db row, d.event = some event ∧ d.db = some db ∧
        db.rules.get? event.compiledRuleId = some row ∧ policy.ruleId = row.ruleId
    | .rowMissing | .failed | .unsupported _ => ∃ event, d.event = some event := by
  have hload : ∀ event, d.event = some event →
      match d.load event with
      | .unparseable | .revoked _ => False
      | .loaded policy => ∃ event db row, d.event = some event ∧ d.db = some db ∧
          db.rules.get? event.compiledRuleId = some row ∧ policy.ruleId = row.ruleId
      | .rowMissing | .failed | .unsupported _ => True := by
    intro event hevent
    unfold Delivery.load
    cases hdb : d.db with
    | none => trivial
    | some db =>
      dsimp only
      cases hrow : db.rules.get? event.compiledRuleId with
      | none => trivial
      | some row =>
        dsimp only
        cases hbuild : buildLoadedPolicy d.native db event.compiledRuleId row with
        | error e => cases e <;> trivial
        | ok policy => exact ⟨event, db, row, hevent, rfl, hrow, buildLoadedPolicy_ruleId hbuild⟩
  cases hevent : d.event with
  | none =>
    have hout : d.outcome = .unparseable := by rw [Delivery.outcome, hevent]
    rw [hout]
  | some event =>
    have h := hload event hevent
    cases htype : event.eventType with
    | revoked =>
      have hout : d.outcome = .revoked event.ruleId := by simp only [Delivery.outcome, hevent, htype]
      rw [hout]
      exact ⟨event, rfl, rfl⟩
    | _ =>
      have hout : d.outcome = d.load event := by simp only [Delivery.outcome, hevent, htype]
      rw [hout]
      cases hway : d.load event with
      | unparseable =>
        rw [hway] at h
        exact h.elim
      | revoked ruleId =>
        rw [hway] at h
        exact h.elim
      | loaded policy =>
        rw [hway] at h
        obtain ⟨found, db, row, hfound, hrest⟩ := h
        exact ⟨found, db, row, hevent ▸ hfound, hrest⟩
      | _ => exact ⟨event, rfl⟩

/-- A policy is loaded under the rule of its event. -/
theorem isFor_of_loaded {d : Delivery} (hpublished : d.Published) {policy : LoadedFixPolicy}
    (h : d.outcome = .loaded policy) (ruleId : String) :
    d.isFor ruleId = true ↔ ruleId = policy.ruleId := by
  have hspec := outcome_spec d
  rw [h] at hspec
  obtain ⟨event, db, row, hevent, hdb, hrow, hid⟩ := hspec
  have hrule := hpublished event db row hevent hdb hrow
  rw [Delivery.isFor, hevent, hid, hrule, beq_iff_eq, Option.map_some, Option.some.injEq, eq_comm]

/-! ## Runs -/

theorem handleEvents_concat (history : List Delivery) (d : Delivery) :
    handleEvents (history ++ [d]) = handleRawEvent (handleEvents history) d := by
  rw [handleEvents, List.foldl_append]
  rfl

theorem latestTaken_concat (ruleId : String) (history : List Delivery) (d : Delivery) :
    latestTaken ruleId (history ++ [d]) =
      if (d.isFor ruleId && !d.leaves) = true then some d else latestTaken ruleId history := by
  unfold latestTaken
  rw [List.filter_append, List.filter_singleton]
  cases d.isFor ruleId && !d.leaves with
  | true =>
    rw [List.getLast?_append]
    rfl
  | false =>
    rw [cond_false, List.append_nil]
    rfl

theorem latestTaken_of_not {ruleId : String} {history : List Delivery} {d : Delivery}
    (h : d.isFor ruleId = false ∨ d.leaves = true) :
    latestTaken ruleId (history ++ [d]) = latestTaken ruleId history := by
  rw [latestTaken_concat, if_neg]
  cases h with
  | inl hfor => simp [hfor]
  | inr hleaves => simp [hleaves]

/-- One event, in each of its ways through the handler. -/
theorem Follows.step {history : List Delivery} {d : Delivery} (h : Follows history)
    (hpublished : d.Published)
    (hsupported : ∀ event message, d.event = some event → d.outcome = .unsupported message →
      (handleEvents history).get? event.ruleId = none) : Follows (history ++ [d]) := by
  intro p hp
  rw [handleEvents_concat, handleRawEvent] at hp
  have hspec := outcome_spec d
  cases hout : d.outcome with
  | unparseable =>
    rw [hout] at hp hspec
    have hnone : d.isFor p.ruleId = false := by
      rw [Delivery.isFor, hspec]
      rfl
    rw [latestTaken_of_not (.inl hnone)]
    exact h p hp
  | rowMissing =>
    have hleaves : d.leaves = true := by rw [Delivery.leaves, hout]
    rw [hout] at hp
    rw [latestTaken_of_not (.inr hleaves)]
    exact h p hp
  | failed =>
    have hleaves : d.leaves = true := by rw [Delivery.leaves, hout]
    rw [hout] at hp
    rw [latestTaken_of_not (.inr hleaves)]
    exact h p hp
  | unsupported message =>
    rw [hout] at hp hspec
    obtain ⟨event, hevent⟩ := hspec
    have hother := FixPolicyStore.ne_of_get?_none (hsupported event message hevent hout) hp
    have hnone : d.isFor p.ruleId = false := by
      rw [← Bool.not_eq_true, Delivery.isFor, hevent, beq_iff_eq, Option.map_some, Option.some.injEq]
      exact hother.symm
    rw [latestTaken_of_not (.inl hnone)]
    exact h p hp
  | revoked ruleId =>
    rw [hout] at hp hspec
    obtain ⟨event, hevent, hid⟩ := hspec
    obtain ⟨hold, hother⟩ := FixPolicyStore.mem_remove.1 hp
    have hnone : d.isFor p.ruleId = false := by
      rw [← Bool.not_eq_true, Delivery.isFor, hevent, beq_iff_eq, Option.map_some, Option.some.injEq, hid]
      exact hother.symm
    rw [latestTaken_of_not (.inl hnone)]
    exact h p hold
  | loaded policy =>
    rw [hout] at hp
    have hfor := isFor_of_loaded hpublished hout p.ruleId
    cases FixPolicyStore.mem_put hp with
    | inl hnew =>
      have hleaves : d.leaves = false := by rw [Delivery.leaves, hout]
      have hthis : d.isFor p.ruleId = true := hfor.2 (by rw [hnew])
      refine ⟨d, ?_, by rw [hout, hnew]⟩
      rw [latestTaken_concat, hthis, hleaves]
      rfl
    | inr hold =>
      have hnone : d.isFor p.ruleId = false := by
        rw [← Bool.not_eq_true, hfor]
        exact hold.2
      rw [latestTaken_of_not (.inl hnone)]
      exact h p hold.1

/-- **Every loaded policy is that of the most recent event for its rule**, those apart that leave the
loaded version in place; a revoked rule has none. -/
theorem follows_run {history : List Delivery} (h : Orderly history) : Follows history := by
  induction history using List.reverseRecOn with
  | nil => exact fun p hp => absurd hp List.not_mem_nil
  | append_singleton history d ih =>
    obtain ⟨hpublished, hsupported⟩ := h history d [] rfl
    refine Follows.step (ih ?_) hpublished hsupported
    intro before e after hsplit
    apply h before e (after ++ [d])
    rw [hsplit, List.append_assoc, List.cons_append]

/-! ## A failed load -/

/-- An order of at most 10,000 units. -/
def qtyRule : Hitl.CompiledRule where
  clauseId := 1
  tenantId := "t1"
  ruleId := "qty-rule"
  regoPolicy := none
  opaPackageName := none
  jsonlogicAst := some (.obj [("<=", .arr [.obj [("var", .str "facts.order_qty")], .int 10000])])
  isCompiled := true
  isActive := true
  hitlStatus := .resolved

def qtyDb : Hitl.Store where
  circulars := .empty
  clauses := .empty
  rules := Table.empty.insert qtyRule
  reviews := .empty
  transitions := []

def qtyEvent (eventType : PolicyEventType) (ruleVersion : Int) : PolicyEvent where
  eventType := eventType
  ruleId := "qty-rule"
  ruleVersion := ruleVersion
  package := "sebi.broking.x"
  compiledRuleId := 1

/-- The first version is loaded; the session of the second raises. -/
def failedAmendment : List Delivery :=
  [⟨some (qtyEvent .approved 1), some qtyDb, true⟩, ⟨some (qtyEvent .amended 2), none, true⟩]

theorem ruleIds_failedAmendment :
    (handleEvents failedAmendment).policies.map LoadedFixPolicy.ruleId = ["qty-rule"] := by
  decide +kernel

theorem published_failedAmendment : ∀ d ∈ failedAmendment, d.Published := by
  intro d hd event db row hevent hdb hrow
  cases hd with
  | head =>
    cases hevent
    cases hdb
    cases hrow
    rfl
  | tail _ hd =>
    cases hd with
    | head => cases hdb
    | tail _ hd => cases hd

theorem supported_failedAmendment {d : Delivery} (hd : d ∈ failedAmendment) (message : String) :
    d.outcome ≠ .unsupported message := by
  intro hout
  cases hd with
  | head =>
    have hway : (match Delivery.outcome ⟨some (qtyEvent .approved 1), some qtyDb, true⟩ with
      | .unsupported _ => true
      | _ => false) = false := by decide +kernel
    rw [hout] at hway
    cases hway
  | tail _ hd =>
    cases hd with
    | head => cases hout
    | tail _ hd => cases hd

/-- The second event leaves the first version in place. -/
theorem follows_failedAmendment : Follows failedAmendment := by
  have horderly : Orderly failedAmendment := by
    intro before d after hsplit
    have hmem : d ∈ failedAmendment := by
      rw [hsplit]
      exact List.mem_append_right _ List.mem_cons_self
    exact ⟨published_failedAmendment d hmem,
      fun _ message _ hout => absurd hout (supported_failedAmendment hmem message)⟩
  exact follows_run horderly

/-- The first version stays loaded after the second event. -/
theorem not_forall_current : ¬ ∀ history, Current history := by
  intro h
  have hids := ruleIds_failedAmendment
  have hcurrent := h failedAmendment
  unfold Current at hcurrent
  cases hstore : (handleEvents failedAmendment).policies with
  | nil =>
    rw [hstore] at hids
    cases hids
  | cons p rest =>
    rw [hstore] at hids hcurrent
    have hid : p.ruleId = "qty-rule" := (List.cons.inj hids).1
    obtain ⟨d, hlatest, hout⟩ := hcurrent p List.mem_cons_self
    rw [hid] at hlatest
    have hlast : d = ⟨some (qtyEvent .amended 2), none, true⟩ := (Option.some.inj hlatest).symm
    rw [hlast] at hout
    cases hout

end RegEngine.FixGateway
