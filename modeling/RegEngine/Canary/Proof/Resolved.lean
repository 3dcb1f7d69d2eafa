import RegEngine.Canary.Orchestrator

/-!
# Resolved canaries

Every SET of the comparison, rollback and promotion programs keeps the status their sender has read or
resolves a run that it has read as running, and only such runs are published (`Resolving`). So a status
that is resolved stays, along every interleaving in which the stored status is still the one that was
read, at each SET and at each publish (`Fresh`).
-/

namespace RegEngine.Canary

open Lib.Programs

/-- What a rollback does with a run it has read. -/
def Closing : Command → Prop
  | .set _ read written => read.status = .running ∧ written.status ≠ .running
  | .create _ | .publishApproved _ _ | .enqueuePromotion _ => False
  | _ => True

/-- What the programs do with a run they have read. -/
def Resolving : Command → Prop
  | .set _ read written => written.status = read.status ∨ read.status = .running
  | .publishApproved _ read => read.status = .running
  | .create _ => False
  | _ => True

/-! ## The programs -/

theorem all_get {β : Type} {Q : Command → Prop} {id : String} {f : Option CanaryRun → CanaryM β}
    (h : Q (.get id)) (hf : ∀ r, Proc.All Q (f r)) : Proc.All Q (get id >>= f) :=
  Proc.all_send_bind h hf

theorem all_recordComparison (id : String) (c : ComparisonResult) :
    Proc.All Resolving (recordComparison id c) := by
  refine all_get trivial fun r => ?_
  cases r with
  | none => exact Proc.all_throw _
  | some run => exact Proc.all_send_bind (.inl rfl) fun _ => Proc.all_pure _

theorem Closing.resolving {c : Command} (h : Closing c) : Resolving c := by
  cases c with
  | set id read written => exact .inr h.1
  | create run => exact h
  | publishApproved id read => exact h.elim
  | _ => trivial

theorem all_resolve (id : String) {status : CanaryStatus} (reason : String)
    (h : status ≠ .running) : Proc.All Closing (resolve id status reason) := by
  refine all_get trivial fun r => ?_
  cases r with
  | none => exact Proc.all_throw _
  | some run =>
    by_cases hrun : run.status = .running
    · simp only [hrun, ne_eq, not_true, if_false]
      refine Proc.all_send_bind trivial fun now => ?_
      refine Proc.all_send_bind ⟨hrun, h⟩ fun _ => ?_
      exact Proc.all_send_bind trivial fun _ => Proc.all_pure _
    · simp only [hrun, ne_eq, not_false_iff, if_true]
      exact Proc.all_throw _

/-- A program that goes on only when its command has succeeded. -/
theorem all_check {β : Type} {Q : Command → Prop} {done : Bool} {p : CanaryM β} {e : CanaryError}
    (h : Proc.All Q p) : Proc.All Q (if done then p else throw e) := by
  cases done with
  | true => exact h
  | false => exact Proc.all_throw e

theorem all_removeCandidate (id : String) : Proc.All Closing (removeCandidate id) :=
  Proc.all_send_bind trivial fun _ => all_check (Proc.all_pure ())

theorem all_publishApproved (id : String) {run : CanaryRun} (h : run.status = .running) :
    Proc.All Resolving (publishApproved id run) :=
  Proc.all_send_bind h fun _ => all_check (Proc.all_pure ())

theorem all_rollback (id reason : String) : Proc.All Closing (rollback id reason) := by
  refine all_get trivial fun r => ?_
  cases r with
  | none => exact Proc.all_throw _
  | some run =>
    by_cases hrun : run.status = .running
    · simp only [hrun, ne_eq, not_true, if_false]
      exact Proc.all_bind (all_removeCandidate _) fun _ => all_resolve id reason (by decide)
    · simp only [hrun, ne_eq, not_false_iff, if_true]
      exact Proc.all_pure _

theorem all_promote (reason : CanaryRun → String) (id : String) :
    Proc.All Resolving (promote reason id) := by
  refine all_get trivial fun r => ?_
  cases r with
  | none => exact Proc.all_throw _
  | some run =>
    by_cases hrun : run.status = .running
    · simp only [hrun, ne_eq, not_true, if_false]
      refine Proc.all_send_bind trivial fun found => all_check ?_
      refine Proc.all_bind (all_publishApproved id hrun) fun _ => ?_
      have hclose : Proc.All Closing (removeCandidate run.candidateOpaRuleId >>= fun _ =>
          markPromoted id (reason run)) :=
        Proc.all_bind (all_removeCandidate _) fun _ => all_resolve id (reason run) (by decide)
      exact hclose.imp fun _ => Closing.resolving
    · simp only [hrun, ne_eq, not_false_iff, if_true]
      exact Proc.all_pure _

/-! ## Interleavings -/

/-- A call on a canary. -/
inductive Call where
  | recordComparison (comparison : ComparisonResult)
  | rollback (reason : String)
  | promote (reason : CanaryRun → String)

/-- What a call does on a canary. -/
def Call.program (id : String) : Call → Prog Command Reply (Except CanaryError CanaryRun)
  | .recordComparison c => (Canary.recordComparison id c).run
  | .rollback reason => (Canary.rollback id reason).run
  | .promote reason => (Canary.promote reason id).run

theorem all_program (id : String) (call : Call) : (call.program id).All Resolving := by
  cases call with
  | recordComparison c => exact all_recordComparison id c
  | rollback reason => exact (all_rollback id reason).imp fun _ => Closing.resolving
  | promote reason => exact all_promote reason id

/-- The calls before they begin. -/
def start {ι : Type} (s : Store) (calls : ι → String × Call) :
    State Command Reply (Except CanaryError CanaryRun) Store ι :=
  ⟨s, fun i => (calls i).2.program (calls i).1⟩

/-- At a SET or a publish, the stored status is the one that was read. -/
def Fresh (s : Store) : Command → Prop
  | .set id read _ | .publishApproved id read => s.status id = some read.status
  | _ => True

/-- Resolved canaries keep their status. -/
def Keeps (s t : Store) : Prop :=
  ∀ id status, s.status id = some status → status ≠ .running → t.status id = some status

theorem status_update (s : Store) (id id' : String) (run : CanaryRun) :
    Store.status { s with runs := Function.update s.runs id (some run) } id' =
      if id' = id then some run.status else s.status id' := by
  unfold Store.status
  by_cases h : id' = id
  · subst h
    simp
  · simp [h]

/-- One command. -/
theorem keeps_exec {c : Command} {s s' : Store} {r : Reply c} (hq : Resolving c) (hok : Fresh s c)
    (h : Exec c s r s') : Keeps s s' := by
  intro id status hstatus hresolved
  cases h with
  | set id' read written =>
    rw [status_update]
    by_cases hid : id = id'
    · -- the stored status is the one that was read, so the sender cannot have resolved the run
      have hread : s.status id' = some read.status := hok
      rw [if_pos hid]
      rw [hid, hread] at hstatus
      obtain rfl : read.status = status := Option.some.inj hstatus
      rcases hq with hkeep | hrunning
      · rw [hkeep]
      · exact absurd hrunning hresolved
    · rw [if_neg hid]
      exact hstatus
  | create run _ => exact hq.elim
  | _ => exact hstatus

/-- Everything that was published was running. -/
def PublishedRunning (s : Store) : Prop :=
  ∀ p ∈ s.published, p.stored.map CanaryRun.status = some .running

theorem publishedRunning_exec {c : Command} {s s' : Store} {r : Reply c} (hq : Resolving c)
    (hs : PublishedRunning s) (hok : Fresh s c) (h : Exec c s r s') : PublishedRunning s' := by
  cases h with
  | publishApproved id read =>
    intro p hp
    rcases List.mem_cons.1 hp with rfl | hp
    · have hread : s.status id = some read.status := hok
      have hrunning : read.status = .running := hq
      rw [← hrunning]
      exact hread
    · exact hs p hp
  | create run _ => exact hq.elim
  | _ => exact hs

/-- **A resolved canary stays resolved** along every interleaving of comparisons, rollbacks and
promotions whose SETs and publishes find the status that was read; and nothing is published of a canary
that is not running. -/
theorem resolved_stays {ι : Type} [DecidableEq ι] (s : Store) (calls : ι → String × Call)
    (S S' : State Command Reply (Except CanaryError CanaryRun) Store ι)
    (h : Reachable Exec Fresh (start s calls) S) (h' : Reachable Exec Fresh S S')
    (hpublished : s.published = []) :
    (∀ id status, S.store.status id = some status → status ≠ .running →
      S'.store.status id = some status) ∧
    ∀ p ∈ S'.store.published, p.stored.map CanaryRun.status = some .running := by
  have hall : ∀ i, ((start s calls).prog i).All Resolving := fun i => all_program ..
  have hall' := all_reachable hall h
  constructor
  · refine related (ρ := Keeps) (fun _ _ _ hs _ => hs) ?_ (fun c s r s' => keeps_exec) hall' h'
    exact fun s t u hst htu id status hs hne => htu id status (hst id status hs hne) hne
  · refine invariant (I := PublishedRunning) (fun c s r s' => publishedRunning_exec) hall ?_
      (h.trans h')
    intro p hp
    have hnil : p ∈ s.published := hp
    rw [hpublished] at hnil
    cases hnil

/-! ## A comparison and a rollback -/

def sampleRun : CanaryRun where
  canaryId := "c1"
  ruleId := "RULE-1"
  tenantId := none
  productionPackage := "regengine.rule_1"
  candidatePackage := "canary.c1.regengine.rule_1"
  candidateOpaRuleId := "canary_c1_RULE-1"
  candidateCompiledRuleId := 7
  status := .running
  stats := .initial
  startedAt := 0
  resolvedAt := none
  resolutionReason := none

def sampleStore : Store where
  runs := Function.update (fun _ => none) "c1" (some sampleRun)
  active := ["c1"]
  queue := []
  now := 0
  published := []

def sampleComparison : ComparisonResult where
  transactionId := "TXN-1"
  productionDecision := .allow
  candidateDecision := .allow
  productionLatencyMs := .ofRat 1
  candidateLatencyMs := .ofRat 1
  productionError := none
  candidateError := none

/-- One call compares, the other one rolls back. -/
def sampleCalls (i : Bool) : String × Call :=
  ("c1", if i then .recordComparison sampleComparison else .rollback "spike")

/-- What the comparison writes. -/
def comparedRun : CanaryRun :=
  { sampleRun with stats := sampleRun.stats.record sampleComparison }

def rolledBackRun : CanaryRun :=
  { sampleRun with status := .rolledBack, resolvedAt := some 0, resolutionReason := some "spike" }

def rolledBackStore : Store :=
  { sampleStore with
    runs := Function.update sampleStore.runs "c1" (some rolledBackRun)
    active := sampleStore.active.filter (· ≠ "c1") }

/-- The rollback without an interruption. -/
theorem runs_rollback : Runs (fun c s r s' => Fresh s c ∧ Exec c s r s') (rollback "c1" "spike").run
    sampleStore (.ok rolledBackRun) rolledBackStore := by
  refine .cmd ⟨trivial, .get _⟩ ?_
  refine .cmd ⟨trivial, .removeCandidate _ true⟩ ?_
  refine .cmd ⟨trivial, .get _⟩ ?_
  refine .cmd ⟨trivial, .clock 0 (le_refl _)⟩ ?_
  refine .cmd ⟨rfl, .set _ _ _⟩ ?_
  refine .cmd ⟨trivial, .srem _⟩ ?_
  exact .ret

/-- A canary that is rolled back while nobody else is on the way. -/
theorem resolved_stays_alone : ∃ S : State Command Reply (Except CanaryError CanaryRun) Store Bool,
    Reachable Exec Fresh (start sampleStore sampleCalls) S ∧
      S.store.status "c1" = some .rolledBack ∧ ∀ S', Reachable Exec Fresh S S' →
        S'.store.status "c1" = some .rolledBack ∧
          ∀ p ∈ S'.store.published, p.stored.map CanaryRun.status = some .running := by
  have hreach := reachable_of_runs (ι := Bool) runs_rollback (S := start sampleStore sampleCalls)
    (i := false) rfl rfl
  have hstatus : rolledBackStore.status "c1" = some .rolledBack := rfl
  refine ⟨_, hreach, hstatus, fun S' h' => ?_⟩
  have hstays := resolved_stays sampleStore sampleCalls _ S' hreach h' rfl
  exact ⟨hstays.1 "c1" .rolledBack hstatus (by decide), hstays.2⟩

/-- A comparison that has read the run before the rollback writes it back as running. -/
theorem not_forall_resolved_stays :
    ¬ ∀ (calls : Bool → String × Call)
        (S S' : State Command Reply (Except CanaryError CanaryRun) Store Bool),
      Reachable Exec (fun _ _ => True) (start sampleStore calls) S →
      Reachable Exec (fun _ _ => True) S S' →
      ∀ id status, S.store.status id = some status → status ≠ .running →
        S'.store.status id = some status := by
  intro h
  -- the comparison reads, then the rollback runs to its end
  obtain ⟨write, hread, hwrite⟩ : ∃ write,
      Step Exec (fun _ _ => True) (start sampleStore sampleCalls)
        ⟨sampleStore, Function.update (start sampleStore sampleCalls).prog true write⟩ ∧
      ∃ rest, write = Prog.cmd (.set "c1" sampleRun comparedRun) rest :=
    ⟨_, .cmd true rfl trivial (.get "c1"), _, rfl⟩
  obtain ⟨rest, rfl⟩ := hwrite
  have hrollback : Runs (fun c s r s' => True ∧ Exec c s r s') (rollback "c1" "spike").run
      sampleStore (.ok rolledBackRun) rolledBackStore :=
    Runs.mono (fun _ _ _ _ hfresh => ⟨trivial, hfresh.2⟩) runs_rollback
  have hresolved := reachable_of_runs (ι := Bool) hrollback
    (S := ⟨sampleStore, Function.update (start sampleStore sampleCalls).prog true
      (.cmd (.set "c1" sampleRun comparedRun) rest)⟩) (i := false) rfl rfl
  -- and the comparison writes what it has read
  have hstays := h sampleCalls _ _ (.head hread hresolved)
    (.single (.cmd true rfl trivial (.set "c1" sampleRun comparedRun))) "c1" .rolledBack rfl
    (by decide)
  have hrunning : some CanaryStatus.running = some .rolledBack := hstays
  cases hrunning

end RegEngine.Canary
