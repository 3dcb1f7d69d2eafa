import RegEngine.Canary.Proof.Resolved

/-!
# Promotions

Whole operations, one after another: starting a canary, a shadowed transaction, a sweep, a promotion
from the task queue, and time that passes. What a sweep enqueues meets the promotion rule at that moment
and keeps meeting it, as long as every comparison that is recorded of a queued canary stays within the
rule or ends in its rollback (`Settled`); so every publication meets the rule (`promotion_justified`).
-/

namespace RegEngine.Canary

open Lib Lib.Programs

/-- The promotion rule: the window has elapsed, the divergence is within the promotion bar, and the
rollback rule does not hold. -/
structure CanarySettings.Promotable (S : CanarySettings) (now : Int) (run : CanaryRun) : Prop where
  elapsed : run.windowElapsed S.evaluationWindowSeconds now = true
  within : S.withinBar run.stats = true
  calm : S.rollbackRule run.stats = false

/-! ## Operations -/

/-- An operation; `removes` tells whether OPA removes what the operation asks it to remove. -/
inductive Operation where
  | startCanary (run : CanaryRun)
  | shadowEvaluate (canaryId : String) (comparison : ComparisonResult) (reason : String) (removes : Bool)
  | sweep (reason : CanaryRun → String)
  | promote (canaryId : String) (reason : CanaryRun → String)
  | wait (now : Int)

/-- OPA has removed what it was asked to remove. -/
def Removed : (c : Command) → Reply c → Prop
  | .removeCandidate _, (done : Bool) => done = true
  | _, _ => True

/-- A command of an operation with the given answers of OPA. -/
def Removing (removes : Bool) (c : Command) (s : Store) (r : Reply c) (s' : Store) : Prop :=
  Exec c s r s' ∧ (removes = true → Removed c r)

section
variable (S : CanarySettings)

/-- One operation after another, of those that meet a condition. A promotion is taken from the queue. -/
inductive OperationStep (Ok : Store → Operation → Prop) : Store → Store → Prop where
  | startCanary {s s' : Store} (run : CanaryRun) {a : Except CanaryError Unit} :
      Ok s (.startCanary run) → Runs Exec (startCanary run).run s a s' → OperationStep Ok s s'
  | shadowEvaluate {s s' : Store} (id : String) (c : ComparisonResult) (reason : String)
      (removes : Bool) {a : Except CanaryError Unit} :
      Ok s (.shadowEvaluate id c reason removes) →
      Runs (Removing removes) (shadowEvaluate S id c reason).run s a s' → OperationStep Ok s s'
  | sweep {s s' : Store} (reason : CanaryRun → String) {a : Except CanaryError Unit} :
      Ok s (.sweep reason) → Runs Exec (evaluateCanaryWindows S reason).run s a s' →
      OperationStep Ok s s'
  | promote {s s' : Store} (id : String) (reason : CanaryRun → String)
      {a : Except CanaryError CanaryRun} :
      Ok s (.promote id reason) → id ∈ s.queue → Runs Exec (promote reason id).run s a s' →
      OperationStep Ok s { s' with queue := s'.queue.erase id }
  | wait {s : Store} (now : Int) : Ok s (.wait now) → s.now ≤ now →
      OperationStep Ok s { s with now := now }

/-- Before anything has happened. -/
def Store.initial (now : Int) : Store := ⟨fun _ => none, [], [], now, []⟩

/-- Every run of operations that meet the condition. -/
def OperationRun (Ok : Store → Operation → Prop) : Store → Store → Prop :=
  Relation.ReflTransGen (OperationStep S Ok)

/-- A comparison that is recorded of a running canary whose promotion is queued stays within the
promotion bar and out of the rollback rule, or it meets the rollback rule and OPA removes the candidate. -/
def Settled (s : Store) : Operation → Prop
  | .shadowEvaluate id c _ removes =>
    id ∈ s.queue → ∀ run, s.runs id = some run → run.status = .running →
      S.withinBar (run.stats.record c) = true ∧ S.rollbackRule (run.stats.record c) = false ∨
        S.rollbackRule (run.stats.record c) = true ∧ removes = true
  | _ => True

/-! ## What is queued -/

/-- Every queued canary is stored, and promotable or `excused` while it runs; everything that was
published was promotable then. -/
structure Justified (excused : String → CanaryRun → Prop) (s : Store) : Prop where
  queued : ∀ id ∈ s.queue, ∃ run, s.runs id = some run ∧
    (run.status = .running → S.Promotable s.now run ∨ excused id run)
  published : ∀ p ∈ s.published, ∃ run, p.stored = some run ∧ S.Promotable p.moment run

/-- Nobody is excused. -/
def Nobody (_ : String) (_ : CanaryRun) : Prop := False

end

section
variable {S : CanarySettings} {excused : String → CanaryRun → Prop} {s : Store}

/-- The window stays elapsed. -/
theorem windowElapsed_mono {run : CanaryRun} {w : Nat} {now now' : Int} (h : now ≤ now')
    (helapsed : run.windowElapsed w now = true) : run.windowElapsed w now' = true := by
  have hseconds : ((now - run.startedAt : Int) / 1000000 : Rat) ≤ (now' - run.startedAt : Int) / 1000000 := by
    have hsub : ((now - run.startedAt : Int) : Rat) ≤ (now' - run.startedAt : Int) := by
      exact_mod_cast (by omega : now - run.startedAt ≤ now' - run.startedAt)
    exact div_le_div_of_nonneg_right hsub (by norm_num)
  unfold CanaryRun.windowElapsed at helapsed ⊢
  rw [Binary64.le_iff_toRat (Binary64.isNaN_ofRat _) (Binary64.isNaN_ofRat _)] at helapsed ⊢
  exact le_trans helapsed (Binary64.toRat_mono hseconds)

theorem CanarySettings.Promotable.later {now now' : Int} {run : CanaryRun}
    (h : S.Promotable now run) (hnow : now ≤ now') : S.Promotable now' run :=
  ⟨windowElapsed_mono hnow h.elapsed, h.within, h.calm⟩

/-- What a sweep decides to promote. -/
theorem promotable_of_decide {now : Int} {run : CanaryRun} (h : S.decide now run = .promote) :
    S.Promotable now run := by
  unfold CanarySettings.decide at h
  split_ifs at h with hrun hcalm hwindow
  rw [Bool.and_eq_true] at hwindow
  exact ⟨hwindow.1, hwindow.2, by simpa using hcalm⟩

/-- A store in which a run has been written. -/
theorem Justified.update (h : Justified S excused s) {id : String} {written : CanaryRun}
    (hwritten : id ∈ s.queue → written.status = .running →
      S.Promotable s.now written ∨ excused id written) :
    Justified S excused { s with runs := Function.update s.runs id (some written) } := by
  refine ⟨fun id' hid' => ?_, h.published⟩
  by_cases hid : id' = id
  · subst hid
    exact ⟨written, by simp, hwritten hid'⟩
  · obtain ⟨run, hrun, hjust⟩ := h.queued id' hid'
    exact ⟨run, by simpa [hid] using hrun, hjust⟩

/-- Time passes. -/
theorem Justified.wait (h : Justified S excused s) {now : Int} (hnow : s.now ≤ now) :
    Justified S excused { s with now := now } := by
  refine ⟨fun id hid => ?_, h.published⟩
  obtain ⟨run, hrun, hjust⟩ := h.queued id hid
  exact ⟨run, hrun, fun hrunning => (hjust hrunning).imp_left fun h => h.later hnow⟩

/-- What a rollback sends. -/
theorem justified_exec {c : Command} {s' : Store} {r : Reply c} (hq : Closing c)
    (h : Justified S excused s) (hexec : Exec c s r s') : Justified S excused s' := by
  cases hexec with
  | set id read written => exact h.update fun _ hrun => absurd hrun hq.2
  | create run _ => exact hq.elim
  | publishApproved id read => exact hq.elim
  | enqueuePromotion id => exact hq.elim
  | clock now hnow => exact h.wait hnow
  | _ => exact ⟨h.queued, h.published⟩

theorem triple_of_closing {α : Type} {p : CanaryM α} (hp : Proc.All Closing p) :
    Proc.Triple Exec (Justified S excused) p fun _ => Justified S excused :=
  Proc.triple_of_all (fun _ _ _ _ hq hs hexec => justified_exec hq hs hexec) hp

theorem triple_send_closing {c : Command} {β : Type} {f : Reply c → CanaryM β}
    {M : Except CanaryError β → Store → Prop} (hc : Closing c)
    (hf : ∀ r, Proc.Triple Exec (Justified S excused) (f r) M) :
    Proc.Triple Exec (Justified S excused) (send c >>= f) M :=
  Proc.triple_send_bind (fun _ _ _ hs hexec => justified_exec hc hs hexec) hf

theorem Removing.exec {removes : Bool} (c : Command) (s : Store) (r : Reply c) (s' : Store)
    (h : Removing removes c s r s') : Exec c s r s' := h.1

/-- The read of a run. -/
theorem triple_get {E : (c : Command) → Store → Reply c → Store → Prop}
    (hE : ∀ c s r s', E c s r s' → Exec c s r s') {β : Type} {P : Store → Prop} {id : String}
    {f : Option CanaryRun → CanaryM β} {M : Except CanaryError β → Store → Prop}
    (hf : ∀ r, Proc.Triple E (fun s => P s ∧ s.runs id = r) (f r) M) :
    Proc.Triple E P (get id >>= f) M := by
  refine Proc.triple_send_bind (K := fun (r : Reply (.get id)) s => P s ∧ s.runs id = r) ?_
    fun r => hf r
  intro s r s' hs hexec
  cases hE _ _ _ _ hexec with
  | get => exact ⟨hs, rfl⟩

/-! ## The operations -/

theorem justified_startCanary (run : CanaryRun) :
    Proc.Triple Exec (Justified S excused) (startCanary run) fun _ => Justified S excused := by
  refine triple_send_closing trivial fun done => ?_
  cases done with
  | false => exact Proc.triple_throw fun _ hs => hs
  | true =>
    refine triple_send_closing trivial fun now => ?_
    refine Proc.triple_send_bind (K := fun _ => Justified S excused) ?_ fun _ => ?_
    · intro s r s' hs hexec
      cases hexec with
      | create run hnone =>
        -- a queued canary is stored, so the new one is not queued
        refine hs.update fun hid _ => ?_
        obtain ⟨stored, hstored, _⟩ := hs.queued _ hid
        rw [hnone] at hstored
        cases hstored
    exact triple_of_closing (Proc.all_send_bind trivial fun _ => Proc.all_pure _)

/-- A promotion that is queued. -/
theorem justified_promote (id : String) (reason : CanaryRun → String) :
    Proc.Triple Exec (fun s => Justified S Nobody s ∧ id ∈ s.queue) (promote reason id)
      fun _ => Justified S Nobody := by
  refine triple_get (fun _ _ _ _ h => h) fun r => ?_
  cases r with
  | none => exact Proc.triple_throw fun _ hs => hs.1.1
  | some run =>
    by_cases hrun : run.status = .running
    · simp only [hrun, ne_eq, not_true, if_false]
      refine Proc.triple_send_bind
        (K := fun _ s => (Justified S Nobody s ∧ id ∈ s.queue) ∧ s.runs id = some run) ?_
        fun found => ?_
      · intro s r s' hs hexec
        cases hexec with
        | sessionGet => exact hs
      cases found with
      | false => exact Proc.triple_throw fun _ hs => hs.1.1
      | true =>
        have hpublish : Proc.Triple Exec
            (fun s => (Justified S Nobody s ∧ id ∈ s.queue) ∧ s.runs id = some run)
            (publishApproved id run) fun _ => Justified S Nobody := by
          refine Proc.triple_send_bind (K := fun _ => Justified S Nobody) ?_ fun done => ?_
          · intro s r s' hs hexec
            obtain ⟨⟨hjust, hid⟩, hstored⟩ := hs
            cases hexec with
            | publishFailed => exact hjust
            | publishApproved =>
              refine ⟨hjust.queued, fun p hp => ?_⟩
              rcases List.mem_cons.1 hp with rfl | hp
              · obtain ⟨run', hrun', hpromotable⟩ := hjust.queued id hid
                obtain rfl : run' = run := Option.some.inj (hrun'.symm.trans hstored)
                exact ⟨run', hstored, (hpromotable hrun).resolve_right fun h => h⟩
              · exact hjust.published p hp
          cases done with
          | true => exact Proc.triple_pure fun _ hs => hs
          | false => exact Proc.triple_throw fun _ hs => hs
        refine Proc.triple_bind hpublish (fun _ _ hs => hs) fun _ => ?_
        refine triple_of_closing (Proc.all_bind (all_removeCandidate _) fun _ => ?_)
        exact all_resolve id (reason run) (by decide)
    · simp only [hrun, ne_eq, not_false_iff, if_true]
      exact Proc.triple_pure fun _ hs => hs.1.1

/-- A sweep enqueues what is promotable at that moment. -/
theorem justified_sweepRun (reason : CanaryRun → String) (run : CanaryRun) :
    Proc.Triple Exec (Justified S Nobody) (sweepRun S reason run) fun _ => Justified S Nobody := by
  have hdecide : Proc.Triple Exec (Justified S Nobody) (evaluateWindow S run.canaryId) fun a s =>
      Justified S Nobody s ∧ (a = .ok .promote →
        ∃ stored, s.runs run.canaryId = some stored ∧ S.Promotable s.now stored) := by
    refine triple_get (fun _ _ _ _ h => h) fun r => ?_
    cases r with
    | none => exact Proc.triple_pure fun _ hs => ⟨hs.1, fun h => by cases h⟩
    | some stored =>
      refine Proc.triple_send_bind (K := fun (now : Int) s =>
        Justified S Nobody s ∧ s.runs run.canaryId = some stored ∧ s.now = now) ?_ fun now => ?_
      · intro s r s' hs hexec
        cases hexec with
        | clock _ hnow => exact ⟨hs.1.wait hnow, hs.2, rfl⟩
      refine Proc.triple_pure fun s hs => ⟨hs.1, fun h => ⟨stored, hs.2.1, ?_⟩⟩
      rw [hs.2.2]
      exact promotable_of_decide (Except.ok.inj h)
  refine Proc.triple_bind hdecide (fun _ _ hs => hs.1) fun decision => ?_
  cases decision with
  | «continue» => exact Proc.triple_pure fun _ hs => hs.1
  | rollback =>
    refine (triple_of_closing ?_).weaken (fun _ hs => hs.1) fun _ _ hs => hs
    exact Proc.all_bind (all_rollback run.canaryId (reason run)) fun _ => Proc.all_pure _
  | promote =>
    refine Proc.triple_send_bind (K := fun _ => Justified S Nobody) ?_ fun _ =>
      Proc.triple_pure fun _ hs => hs
    intro s r s' hs hexec
    cases hexec with
    | enqueuePromotion =>
      refine ⟨fun id hid => ?_, hs.1.published⟩
      rcases List.mem_append.1 hid with hid | hid
      · exact hs.1.queued id hid
      · obtain ⟨stored, hstored, hpromotable⟩ := hs.2 rfl
        rw [List.mem_singleton.1 hid]
        exact ⟨stored, hstored, fun _ => .inl hpromotable⟩

theorem justified_sweep (reason : CanaryRun → String) :
    Proc.Triple Exec (Justified S Nobody) (evaluateCanaryWindows S reason) fun _ =>
      Justified S Nobody := by
  have hget : ∀ ids : List String, Proc.All Closing (ids.mapM get) := by
    intro ids
    induction ids with
    | nil => exact Proc.all_pure _
    | cons id ids ih =>
      rw [List.mapM_cons]
      exact all_get trivial fun _ => Proc.all_bind ih fun _ => Proc.all_pure _
  have hlist : Proc.All Closing listActive :=
    Proc.all_send_bind trivial fun ids => Proc.all_bind (hget ids) fun _ => Proc.all_pure _
  refine Proc.triple_bind (triple_of_closing hlist) (fun _ _ hs => hs) fun runs => ?_
  induction runs with
  | nil => exact Proc.triple_pure fun _ hs => hs
  | cons run runs ih =>
    show Proc.Triple Exec _ (sweepRun S reason run >>= fun _ => runs.forM (sweepRun S reason)) _
    exact Proc.triple_bind (justified_sweepRun reason run) (fun _ _ hs => hs) fun _ => ih

/-! ## A shadowed transaction -/

/-- After its comparison, the canary may be under the rollback rule when OPA removes it. -/
def Spiking (S : CanarySettings) (id : String) (removes : Bool) (id' : String) (run : CanaryRun) : Prop :=
  id' = id ∧ S.rollbackRule run.stats = true ∧ removes = true

/-- Nobody is excused when the canary itself is not spiking. -/
theorem Justified.settle {id : String} {removes : Bool} (h : Justified S (Spiking S id removes) s)
    (hid : ∀ run, s.runs id = some run → run.status = .running → ¬ Spiking S id removes id run) :
    Justified S Nobody s := by
  refine ⟨fun id' hid' => ?_, h.published⟩
  obtain ⟨run, hrun, hjust⟩ := h.queued id' hid'
  refine ⟨run, hrun, fun hrunning => .inl ?_⟩
  rcases hjust hrunning with hpromotable | hspiking
  · exact hpromotable
  · obtain ⟨rfl, hrule, hremoves⟩ := hspiking
    exact absurd ⟨rfl, hrule, hremoves⟩ (hid run hrun hrunning)

theorem justified_recordComparison (id : String) (c : ComparisonResult) (reason : String)
    (removes : Bool) :
    Proc.Triple Exec
      (fun s => Justified S Nobody s ∧ Settled S s (.shadowEvaluate id c reason removes))
      (recordComparison id c) fun a s =>
        Justified S (if a.isOk then Spiking S id removes else Nobody) s := by
  have hweaken : ∀ s, Justified S Nobody s → Justified S (Spiking S id removes) s := by
    intro s hs
    refine ⟨fun id' hid' => ?_, hs.published⟩
    obtain ⟨run, hrun, hjust⟩ := hs.queued id' hid'
    exact ⟨run, hrun, fun hrunning => .inl ((hjust hrunning).resolve_right fun h => h)⟩
  refine triple_get (fun _ _ _ _ h => h) fun r => ?_
  cases r with
  | none => exact Proc.triple_throw fun _ hs => hs.1.1
  | some run =>
    refine Proc.triple_send_bind (K := fun _ => Justified S (Spiking S id removes)) ?_ fun _ =>
      Proc.triple_pure fun _ hs => hs
    intro s r s' hs hexec
    obtain ⟨⟨hjust, hsettled⟩, hstored⟩ := hs
    cases hexec with
    | set =>
      refine (hweaken s hjust).update fun hid hrunning => ?_
      obtain ⟨run', hrun', hpromotable⟩ := hjust.queued id hid
      obtain rfl : run' = run := Option.some.inj (hrun'.symm.trans hstored)
      rcases hsettled hid run' hstored hrunning with ⟨hwithin, hcalm⟩ | ⟨hrule, hremoves⟩
      · have hbefore := (hpromotable hrunning).resolve_right fun h => h
        exact .inl ⟨hbefore.elapsed, hwithin, hcalm⟩
      · exact .inr ⟨rfl, hrule, hremoves⟩

/-- `_resolve` leaves the canary resolved. -/
theorem justified_resolve (id : String) {status : CanaryStatus} (reason : String) (removes : Bool)
    (h : status ≠ .running) :
    Proc.Triple Exec (Justified S (Spiking S id removes)) (resolve id status reason) fun _ =>
      Justified S Nobody := by
  refine triple_get (fun _ _ _ _ h => h) fun r => ?_
  cases r with
  | none =>
    refine Proc.triple_throw fun s hs => hs.1.settle fun run hrun => ?_
    rw [hs.2] at hrun
    cases hrun
  | some run =>
    by_cases hrun : run.status = .running
    · simp only [hrun, ne_eq, not_true, if_false]
      refine Proc.triple_send_bind (K := fun _ => Justified S (Spiking S id removes)) ?_ fun now => ?_
      · intro s r s' hs hexec
        exact justified_exec (c := .clock) trivial hs.1 hexec
      refine Proc.triple_send_bind (K := fun _ => Justified S Nobody) ?_ fun _ =>
        triple_of_closing (Proc.all_send_bind trivial fun _ => Proc.all_pure _)
      intro s r s' hs hexec
      cases hexec with
      | set =>
        refine (hs.update fun _ hrunning => absurd hrunning h).settle fun run' hrun' hrunning => ?_
        obtain rfl := Option.some.inj ((Function.update_self id _ s.runs).symm.trans hrun')
        exact absurd hrunning h
    · simp only [hrun, ne_eq, not_false_iff, if_true]
      refine Proc.triple_throw fun s hs => hs.1.settle fun run' hrun' hrunning => ?_
      obtain rfl := Option.some.inj (hs.2.symm.trans hrun')
      exact absurd hrunning hrun

theorem justified_rollback (id reason : String) (removes : Bool) :
    Proc.Triple (Removing removes) (Justified S (Spiking S id removes)) (rollback id reason) fun _ =>
      Justified S Nobody := by
  cases removes with
  | false =>
    -- OPA may refuse; but then nothing is excused
    refine ((triple_of_closing (all_rollback id reason)).restrict Removing.exec).weaken
      (fun s hs => hs.settle ?_) fun _ _ hs => hs
    intro run _ _ hspiking
    exact absurd hspiking.2.2 (by simp)
  | true =>
    refine triple_get Removing.exec fun r => ?_
    cases r with
    | none =>
      refine Proc.triple_throw fun s hs => hs.1.settle fun run hrun => ?_
      rw [hs.2] at hrun
      cases hrun
    | some run =>
      by_cases hrun : run.status = .running
      · simp only [hrun, ne_eq, not_true, if_false]
        have hremove : Proc.Triple (Removing true) (Justified S (Spiking S id true))
            (removeCandidate run.candidateOpaRuleId) fun a s =>
              Justified S (Spiking S id true) s ∧ a = .ok () := by
          refine Proc.triple_send_bind (K := fun (done : Bool) s =>
            Justified S (Spiking S id true) s ∧ done = true) ?_ fun done => ?_
          · intro s r s' hs hexec
            exact ⟨justified_exec (c := .removeCandidate _) trivial hs hexec.1, hexec.2 rfl⟩
          cases done with
          | true => exact Proc.triple_pure fun _ hs => ⟨hs.1, rfl⟩
          | false => exact Proc.triple_throw fun _ hs => absurd hs.2 (by simp)
        refine Proc.triple_bind (hremove.weaken (fun _ hs => hs.1) fun _ _ hs => hs)
          (fun _ _ hs => by cases hs.2) fun _ => ?_
        refine ((justified_resolve id reason true (by decide)).restrict Removing.exec).weaken
          (fun _ hs => hs.1) fun _ _ hs => hs
      · simp only [hrun, ne_eq, not_false_iff, if_true]
        refine Proc.triple_pure fun s hs => hs.1.settle fun run' hrun' hrunning => ?_
        obtain rfl := Option.some.inj (hs.2.symm.trans hrun')
        exact absurd hrunning hrun

/-- A shadowed transaction that the condition admits. -/
theorem justified_shadowEvaluate (id : String) (c : ComparisonResult) (reason : String)
    (removes : Bool) :
    Proc.Triple (Removing removes)
      (fun s => Justified S Nobody s ∧ Settled S s (.shadowEvaluate id c reason removes))
      (shadowEvaluate S id c reason) fun _ => Justified S Nobody := by
  refine Proc.triple_bind ((justified_recordComparison id c reason removes).restrict Removing.exec)
    (fun _ _ hs => hs) fun _ => ?_
  refine triple_get Removing.exec fun r => ?_
  cases r with
  | none =>
    refine Proc.triple_pure fun s hs => hs.1.settle fun run hrun => ?_
    rw [hs.2] at hrun
    cases hrun
  | some run =>
    by_cases hspike : S.spike run = .rollback
    · simp only [hspike, if_true]
      refine Proc.triple_bind ((justified_rollback id reason removes).weaken (fun _ hs => hs.1)
        fun _ _ hs => hs) (fun _ _ hs => hs) fun _ => Proc.triple_pure fun _ hs => hs
    · simp only [hspike, if_false]
      refine Proc.triple_pure fun s hs => hs.1.settle fun run' hrun' _ hspiking => ?_
      obtain rfl := Option.some.inj (hs.2.symm.trans hrun')
      exact hspike (if_pos hspiking.2.1)

/-! ## Runs of operations -/

/-- One operation. -/
theorem justified_step {s' : Store} (hs : Justified S Nobody s)
    (h : OperationStep S (Settled S) s s') : Justified S Nobody s' := by
  cases h with
  | startCanary run _ hrun => exact justified_startCanary run s _ s' hs hrun
  | shadowEvaluate id c reason removes hok hrun =>
    exact justified_shadowEvaluate id c reason removes s _ s' ⟨hs, hok⟩ hrun
  | sweep reason _ hrun => exact justified_sweep reason s _ s' hs hrun
  | promote id reason _ hid hrun =>
    have hpromoted := justified_promote id reason s _ _ ⟨hs, hid⟩ hrun
    exact ⟨fun id' hid' => hpromoted.queued id' (List.mem_of_mem_erase hid'), hpromoted.published⟩
  | wait now _ hnow => exact hs.wait hnow

theorem justified_run {s' : Store} (hs : Justified S Nobody s)
    (h : OperationRun S (Settled S) s s') : Justified S Nobody s' := by
  induction h with
  | refl => exact hs
  | tail _ hstep ih => exact justified_step ih hstep

end

/-- **A promotion is justified when it happens**: in every run of operations whose comparisons leave the
queued canaries settled, whatever was published met the promotion rule at that moment. -/
theorem promotion_justified (S : CanarySettings) (now : Int) (s : Store)
    (h : OperationRun S (Settled S) (.initial now) s) :
    ∀ p ∈ s.published, ∃ run, p.stored = some run ∧ S.Promotable p.moment run := by
  have hinitial : Justified S Nobody (.initial now) :=
    ⟨(fun _ hid => by cases hid), (fun _ hp => by cases hp)⟩
  exact (justified_run hinitial h).published

/-! ## A promotion that is no longer justified -/

def sampleSettings : CanarySettings where
  promotionMaxDivergencePct := .ofRat (1 / 64)
  rollbackDivergencePct := .ofRat (1 / 2)
  rollbackMinSampleSize := 20
  evaluationWindowSeconds := 0

/-- The started canary with these statistics, its promotion queued or not. -/
def startedStore (stats : CanaryWindowStats) (queue : List String) : Store :=
  { sampleStore with
    runs := Function.update sampleStore.runs "c1" (some { sampleRun with stats := stats })
    queue := queue }

theorem started_update (stats stats' : CanaryWindowStats) (queue : List String) :
    { startedStore stats queue with
      runs := Function.update (startedStore stats queue).runs "c1"
        (some { sampleRun with stats := stats' }) } = startedStore stats' queue := by
  unfold startedStore
  rw [Function.update_idem]

theorem started_initial :
    startedStore .initial [] = { Store.initial 0 with
      runs := Function.update (Store.initial 0).runs "c1" (some sampleRun)
      active := ["c1"] } := by
  unfold startedStore sampleStore
  rw [Function.update_idem]
  rfl

theorem sample_promotable : sampleSettings.decide 0 sampleRun = .promote := by
  decide +kernel

theorem runs_startCanary :
    Runs Exec (startCanary sampleRun).run (.initial 0) (.ok ()) (startedStore .initial []) := by
  rw [started_initial]
  refine .cmd (.publishCandidate _ true) ?_
  refine .cmd (.clock 0 (le_refl _)) ?_
  refine .cmd (.create sampleRun rfl) ?_
  refine .cmd (.sadd _) ?_
  exact .ret

theorem runs_sweep (reason : CanaryRun → String) :
    Runs Exec (evaluateCanaryWindows sampleSettings reason).run (startedStore .initial []) (.ok ())
      (startedStore .initial ["c1"]) := by
  have hlist : Runs Exec listActive.run (startedStore .initial []) (.ok [sampleRun])
      (startedStore .initial []) := by
    refine .cmd .smembers ?_
    refine .cmd (.get "c1") ?_
    exact .ret
  have hwindow : Runs Exec (evaluateWindow sampleSettings "c1").run (startedStore .initial [])
      (.ok (sampleSettings.decide 0 sampleRun)) (startedStore .initial []) := by
    refine .cmd (.get "c1") ?_
    refine .cmd (.clock 0 (le_refl _)) ?_
    exact .ret
  rw [sample_promotable] at hwindow
  refine Proc.runs_bind hlist (Proc.runs_bind (a := ()) (Proc.runs_bind hwindow ?_) .ret)
  refine .cmd (.enqueuePromotion "c1") ?_
  exact .ret

/-- The candidate is live. -/
def publishedStore (stats : CanaryWindowStats) : Store :=
  { startedStore stats ["c1"] with
    published := [⟨"c1", some { sampleRun with stats := stats }, 0⟩] }

/-- The promotion looks at the status only. -/
theorem runs_promote (stats : CanaryWindowStats) (reason : CanaryRun → String) :
    Runs Exec (promote reason "c1").run (startedStore stats ["c1"]) (.error .external)
      (publishedStore stats) := by
  refine .cmd (.get "c1") ?_
  refine .cmd (.sessionGet _ true) ?_
  refine .cmd (.publishApproved _ _) ?_
  refine .cmd (.removeCandidate _ false) ?_
  exact .ret

/-- A promotion right after the sweep. -/
theorem promotion_justified_started :
    ∃ s, OperationRun sampleSettings (Settled sampleSettings) (.initial 0) s ∧ s.published ≠ [] ∧
      ∀ p ∈ s.published, ∃ run, p.stored = some run ∧ sampleSettings.Promotable p.moment run := by
  have hrun : OperationRun sampleSettings (Settled sampleSettings) (.initial 0)
      { publishedStore .initial with queue := ["c1"].erase "c1" } := by
    refine .head (.startCanary sampleRun trivial runs_startCanary) ?_
    refine .head (.sweep (fun _ => "spike") trivial (runs_sweep _)) ?_
    exact .single (.promote "c1" (fun _ => "window") trivial (.head _) (runs_promote _ _))
  exact ⟨_, hrun, List.cons_ne_nil _ _, promotion_justified sampleSettings 0 _ hrun⟩

/-- One transaction on which the packages disagree. -/
def divergingComparison : ComparisonResult := { sampleComparison with candidateDecision := .deny }

/-- It is recorded between the sweep and the promotion, too few comparisons for the rollback rule. -/
theorem not_forall_promotion_justified :
    ¬ ∀ s, OperationRun sampleSettings (fun _ _ => True) (.initial 0) s →
      ∀ p ∈ s.published, ∃ run, p.stored = some run ∧ sampleSettings.Promotable p.moment run := by
  intro h
  have hcompare : Runs (Removing true)
      (shadowEvaluate sampleSettings "c1" divergingComparison "spike").run
      (startedStore .initial ["c1"]) (.ok ())
      (startedStore (.record .initial divergingComparison) ["c1"]) := by
    rw [← started_update .initial (.record .initial divergingComparison)]
    refine .cmd ⟨.get "c1", fun _ => trivial⟩ ?_
    refine .cmd ⟨.set "c1" _ _, fun _ => trivial⟩ ?_
    refine .cmd ⟨.get "c1", fun _ => trivial⟩ ?_
    exact .ret
  have hrun : OperationRun sampleSettings (fun _ _ => True) (.initial 0)
      { publishedStore (.record .initial divergingComparison) with queue := ["c1"].erase "c1" } := by
    refine .head (.startCanary sampleRun trivial runs_startCanary) ?_
    refine .head (.sweep (fun _ => "spike") trivial (runs_sweep _)) ?_
    refine .head (.shadowEvaluate "c1" divergingComparison "spike" true trivial hcompare) ?_
    exact .single (.promote "c1" (fun _ => "window") trivial (.head _) (runs_promote _ _))
  obtain ⟨run, hstored, hpromotable⟩ := h _ hrun _ (.head _)
  cases hstored
  exact absurd hpromotable.within (by decide +kernel)

end RegEngine.Canary
