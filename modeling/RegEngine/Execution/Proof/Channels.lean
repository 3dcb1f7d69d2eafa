import RegEngine.Execution.Channels
import RegEngine.Governance.Proof.KillSwitch

/-!
# What the kill switch stops

The evaluator of the API has the kill switch, and those of the tasks have none: they ask OPA about
every policy that applies, and where none applies they allow.

* `evaluation_halted`, `evaluation_unguarded`: an evaluation that the switch stops, and one without it.
* `covered_iff`: when a channel is covered by the switch of a broker.
-/

namespace RegEngine.Execution

open Lib Lib.Calendar Lib.Python Governance

/-- The evaluation sends nothing to OPA and does not allow. -/
def Evaluation.Halted (evaluation : Evaluation) : Prop :=
  evaluation.opaRequests = [] ∧ evaluation.result.decision ≠ .allow

/-- OPA's replies are those to the requests of the evaluation. -/
theorem replies_eq (E : Evaluator) {tx : TransactionPayload} (h : E.halted tx = false) :
    E.replies tx = (E.opaRequests tx).map fun request => E.opa request.1 request.2 := by
  simp [Evaluator.replies, Evaluator.opaRequests, h]

theorem evaluation_halted {E : Evaluator} {tx : TransactionPayload} (h : E.halted tx = true) :
    (E.evaluation tx).Halted := by
  constructor
  · simp [Evaluator.evaluation, Evaluator.opaRequests, h]
  · simp [Evaluator.evaluation, Evaluator.evaluateTransaction, h]

/-- Without the switch there are requests or, where no policy applies, the transaction is allowed. -/
theorem evaluation_unguarded {E : Evaluator} {tx : TransactionPayload} (h : E.halted tx = false) :
    ¬ (E.evaluation tx).Halted := by
  rintro ⟨hrequests, hdecision⟩
  apply hdecision
  have hempty : E.policiesFor tx.entityType = [] := by
    simpa [Evaluator.evaluation, Evaluator.opaRequests, h] using hrequests
  simp [Evaluator.evaluation, Evaluator.evaluateTransaction, h, hempty]

/-- Every evaluation of the broker's transactions is halted. -/
def Covered (services : Services) (brokerId : String) (arrival : Arrival) : Prop :=
  ∀ evaluation ∈ arrival.evaluations services, evaluation.transaction.brokerId = some brokerId →
    evaluation.Halted

/-- The transaction came in by the synchronous API. -/
def Arrival.IsApi : Arrival → Prop
  | api _ _ => True
  | batch _ | cdc _ => False

/-- A task evaluates each of its transactions without the switch. -/
theorem mem_evaluations_task {services : Services} {arrival : Arrival} (h : ¬ arrival.IsApi)
    {evaluation : Evaluation} :
    evaluation ∈ arrival.evaluations services ↔
      ∃ tx ∈ arrival.transactions, (buildEvaluator services).evaluation tx = evaluation := by
  cases arrival with
  | api _ _ => exact absurd trivial h
  | batch transactions => exact List.mem_map
  | cdc event =>
    show evaluation ∈ processCdcEventTask services event ↔
      ∃ tx ∈ if event.operation = .delete then [] else (cdcRowToTransaction event).toList, _
    unfold processCdcEventTask
    by_cases hdelete : event.operation = .delete
    · simp [hdelete]
    · rw [if_neg hdelete, if_neg hdelete]
      cases cdcRowToTransaction event with
      | none => simp
      | some tx => simp [eq_comm]

/-- **The switch of a broker covers** what comes in by the API, and a task only when it has none of the
broker's transactions. -/
theorem covered_iff {services : Services} {brokerId : String}
    (hactive : services.killSwitchStore.isActiveFor (some brokerId) = true) (arrival : Arrival) :
    Covered services brokerId arrival ↔
      arrival.IsApi ∨ ∀ tx ∈ arrival.transactions, tx.brokerId ≠ some brokerId := by
  by_cases hapi : arrival.IsApi
  · refine iff_of_true ?_ (.inl hapi)
    cases arrival with
    | batch _ => exact absurd hapi id
    | cdc _ => exact absurd hapi id
    | api principal tx =>
      intro evaluation hmem hbroker
      change evaluation ∈ apiEvaluate services principal tx at hmem
      unfold apiEvaluate at hmem
      split at hmem
      · cases hmem
      · obtain rfl := List.mem_singleton.1 hmem
        apply evaluation_halted
        change services.killSwitchStore.isActiveFor tx.brokerId = true
        rw [show tx.brokerId = some brokerId from hbroker, hactive]
  · rw [or_iff_right hapi]
    constructor
    · intro hcovered tx htx hbroker
      have hmem : (buildEvaluator services).evaluation tx ∈ arrival.evaluations services :=
        (mem_evaluations_task hapi).2 ⟨tx, htx, rfl⟩
      exact evaluation_unguarded rfl (hcovered _ hmem hbroker)
    · intro hnone evaluation hmem hbroker
      obtain ⟨tx, htx, rfl⟩ := (mem_evaluations_task hapi).1 hmem
      exact absurd hbroker (hnone tx htx)

/-! ## A halted broker -/

/-- The switch of `BRK-001` is on, and no policy applies. -/
def haltedServices : Services where
  opa := fun _ _ => .undefined
  policyRegistry := fun _ => []
  policyCache := fun _ => []
  hitlQueue := fun _ _ _ => ⟨"case", by decide⟩
  killSwitchStore := KillSwitchStore.activateTenant {} "BRK-001" "anomaly detected" "admin" newYear
  utcnow := newYear

def haltedTransaction : TransactionPayload := ⟨"t-1", "Stockbroker", [], some "BRK-001"⟩

theorem covered_haltedBatch :
    Covered haltedServices "BRK-001" (.batch [haltedTransaction]) ↔
      (Arrival.batch [haltedTransaction]).IsApi ∨
        ∀ tx ∈ (Arrival.batch [haltedTransaction]).transactions, tx.brokerId ≠ some "BRK-001" :=
  covered_iff (by decide) _

/-- A batch with a transaction of the broker is allowed. -/
theorem not_forall_covered :
    ¬ ∀ (services : Services) (brokerId : String) (arrival : Arrival),
      services.killSwitchStore.isActiveFor (some brokerId) = true →
        Covered services brokerId arrival := by
  intro h
  have hactive : haltedServices.killSwitchStore.isActiveFor (some "BRK-001") = true := by decide
  have hhalted := h haltedServices "BRK-001" (.batch [haltedTransaction]) hactive _
    List.mem_cons_self rfl
  exact hhalted.2 rfl

end RegEngine.Execution

/-!
## A held transaction is decided once

A call decides on the copy of its `GET`, and its `SET` overwrites whatever another call has stored since.

* `resolve_alone`: the commands of a call that nobody interrupts are `resolve`.
* `case_decided_once`: where no call stores over a decision that it has not read, one call succeeds and
  the case stays as it left it.
* `case_decided_twice`: two officers who have both read the pending case both succeed.
-/

namespace RegEngine.Execution

open Lib Lib.CheckedCopy

theorem status_ne_pending (call : ResolveCall) : call.status ≠ .pending := by
  intro h
  have hmapped := call.mapped
  rw [h] at hmapped
  cases hdecision : call.decision <;> rw [hdecision] at hmapped <;> cases hmapped

/-- The stored status is still the one that the call has read. -/
def StillRead (stored copy : HITLCase) : Prop := stored.status = copy.status

section
variable {ι : Type} {calls : ι → ResolveCall}

theorem write_not_ready (i : ι) (stored copy : HITLCase) (_ : (resolveCalls calls).Ready copy) :
    ¬ (resolveCalls calls).Ready ((resolveCalls calls).write i stored copy) :=
  status_ne_pending (calls i)

theorem ready_of_stillRead (stored copy : HITLCase) (h : StillRead stored copy)
    (hready : (resolveCalls calls).Ready copy) : (resolveCalls calls).Ready stored :=
  h.trans hready

/-- What a call that nobody interrupts leaves of the case: `resolve`. -/
theorem resolve_alone [DecidableEq ι] {Fresh : HITLCase → HITLCase → Prop} {queue : HITLQueue}
    {case resolved : HITLCase} {queue' : HITLQueue} {i : ι} {s : State ι Empty Empty HITLCase}
    (hcase : queue.cases case.caseId = some case)
    (hresolve : queue.resolve case.caseId (calls i) = .ok (resolved, queue'))
    (hphase : s.phase i = .loaded case) (hfresh : Fresh s.stored case) :
    ∃ s', Relation.ReflTransGen (Step (resolveCalls calls) Fresh) s s' ∧ s'.stored = resolved ∧
      queue'.cases case.caseId = some resolved ∧
      s'.phase = Function.update s.phase i .committed := by
  unfold HITLQueue.resolve at hresolve
  rw [hcase] at hresolve
  dsimp only at hresolve
  split at hresolve
  · cases hresolve
  · rename_i hpending
    cases hresolve
    have hscope : ∀ m, (resolveCalls calls).scope i case = some m → s.scope m = none :=
      fun m => m.elim
    have hlock : ∀ k, (resolveCalls calls).row case = some k → s.lock k = none := fun k => k.elim
    obtain ⟨s', hrun, hstored, hcommitted, -⟩ :=
      alone_reachable (P := resolveCalls calls) hphase (not_not.1 hpending) hscope hlock hfresh
    exact ⟨s', hrun, hstored, Function.update_self .., hcommitted⟩

end

/-- **One call succeeds, and the case stays as it stored it**, in every interleaving in which the stored
status is still the one that the call has read when it stores its copy. -/
theorem case_decided_once {ι : Type} [DecidableEq ι] (calls : ι → ResolveCall) (case : HITLCase)
    (s : State ι Empty Empty HITLCase) (h : Reachable (resolveCalls calls) StillRead case s) :
    (∀ i j, s.phase i = .committed → s.phase j = .committed → i = j) ∧
    ∀ i, s.phase i = .committed → ∀ s', Relation.ReflTransGen (Step (resolveCalls calls) StillRead)
      s s' → s'.stored = s.stored :=
  ⟨fun _ _ => committed_once write_not_ready ready_of_stillRead h,
    fun _ hi _ hrun => stored_of_committed write_not_ready ready_of_stillRead h hi hrun⟩

/-! ### Two officers -/

def heldCase : HITLCase where
  caseId := "case-1"
  transaction := ⟨"t-1", "Stockbroker", [], none⟩
  reason := "Policy(ies) ['r'] returned an undefined result — insufficient or malformed facts."
  createdAt := Governance.newYear

/-- The first officer allows the transaction and the second one denies it. -/
def twoOfficers : Bool → ResolveCall
  | false => ⟨.allow, .approved, rfl, "officer-a", none, Governance.newYear⟩
  | true => ⟨.deny, .rejected, rfl, "officer-b", none, Governance.newYear⟩

def heldQueue : HITLQueue := HITLQueue.enqueue {} heldCase

theorem resolve_heldCase (i : Bool) :
    ∃ queue', heldQueue.resolve heldCase.caseId (twoOfficers i) =
      .ok ((twoOfficers i).resolved heldCase, queue') := ⟨_, rfl⟩

/-- An officer who has read the pending case, and whom nobody interrupts. -/
theorem officer_alone (Fresh : HITLCase → HITLCase → Prop) (i : Bool)
    {s : State Bool Empty Empty HITLCase} (hphase : s.phase i = .loaded heldCase)
    (hfresh : Fresh s.stored heldCase) :
    ∃ s', Relation.ReflTransGen (Step (resolveCalls twoOfficers) Fresh) s s' ∧
      s'.stored = (twoOfficers i).resolved heldCase ∧
      s'.phase = Function.update s.phase i .committed := by
  obtain ⟨queue', hresolve⟩ := resolve_heldCase i
  obtain ⟨s', hrun, hstored, -, hcommitted⟩ := resolve_alone rfl hresolve hphase hfresh
  exact ⟨s', hrun, hstored, hcommitted⟩

/-- The second officer reads the case after the first one has stored it, and is refused. -/
theorem second_officer_refused :
    ∃ s, Reachable (resolveCalls twoOfficers) StillRead heldCase s ∧ s.phase false = .committed ∧
      s.phase true = .raised ∧ s.stored = (twoOfficers false).resolved heldCase ∧
      ∀ s', Relation.ReflTransGen (Step (resolveCalls twoOfficers) StillRead) s s' →
        s'.stored = s.stored := by
  have hload : Step (resolveCalls twoOfficers) StillRead (.initial heldCase) _ := .load false rfl
  obtain ⟨s, hrun, hstored, hphase⟩ := officer_alone StillRead false
    (s := (State.initial heldCase).enter false (.loaded heldCase)) rfl rfl
  have hidle : s.phase true = .idle := by rw [hphase]; rfl
  have hreload : Step (resolveCalls twoOfficers) StillRead s _ := .load true hidle
  have hraise : Step (resolveCalls twoOfficers) StillRead (s.enter true (.loaded s.stored)) _ :=
    .raise true (by simp [State.enter, Phase.running])
  have hreach := ((Relation.ReflTransGen.head hload hrun).tail hreload).tail hraise
  refine ⟨_, hreach, ?_, ?_, hstored, ?_⟩
  · simp [State.enter, State.release, hphase]
  · simp [State.enter]
  · refine (case_decided_once twoOfficers heldCase _ hreach).2 false ?_
    simp [State.enter, State.release, hphase]

/-- **Both officers read the pending case**: the allowed transaction is denied afterwards, and both
calls succeed. -/
theorem case_decided_twice :
    ∃ s s', Reachable (resolveCalls twoOfficers) (fun _ _ => True) heldCase s ∧
      s.phase false = .committed ∧ s.stored = (twoOfficers false).resolved heldCase ∧
      Relation.ReflTransGen (Step (resolveCalls twoOfficers) fun _ _ => True) s s' ∧
      s'.phase false = .committed ∧ s'.phase true = .committed ∧ s'.stored.status = .rejected := by
  have hload : Step (resolveCalls twoOfficers) (fun _ _ => True) (.initial heldCase) _ :=
    .load false rfl
  have hload' : Step (resolveCalls twoOfficers) (fun _ _ => True)
      ((State.initial heldCase).enter false (.loaded heldCase)) _ := .load true rfl
  obtain ⟨s, hrun, hstored, hphase⟩ := officer_alone (fun _ _ => True) false
    (s := ((State.initial heldCase).enter false (.loaded heldCase)).enter true (.loaded heldCase)) rfl
    trivial
  have hwaiting : s.phase true = .loaded heldCase := by rw [hphase]; rfl
  obtain ⟨s', hrun', hstored', hphase'⟩ := officer_alone (fun _ _ => True) true hwaiting trivial
  refine ⟨s, s', .head hload (.head hload' hrun), ?_, hstored, hrun', ?_, ?_, ?_⟩
  · simp [hphase]
  · simp [hphase', hphase]
  · simp [hphase']
  · rw [hstored']
    rfl

end RegEngine.Execution
