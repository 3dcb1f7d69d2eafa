import RegEngine.Resilience.DeadLetterQueue
import RegEngine.Resilience.Proof.Indexes

/-!
# Closed dead letters

The admin operations run one after another, failures coming in between. What each of them does to the
store is read off its runs (`runs_updatePayload` to `runs_send`); a step of a run then leaves the closed
entries alone exactly when it neither resolves a DISCARDED entry nor requeues a closed one
(`closed_iff_open`).
-/

namespace RegEngine.Resilience

open Lib Lib.Programs

variable {α β : Type} {s s' : Store}

/-! ## What the functions do -/

theorem runs_get_cases {id : String} {r : Except DLQError DLQEntry}
    (h : Runs Exec (get id).run s r s') :
    (s.entries id = none ∧ r = .error (.notFound id) ∧ s' = s) ∨
      ∃ e, s.entries id = some e ∧ r = .ok e ∧ s' = s := by
  have hget := (runs_get_iff _).1 h
  cases he : s.entries id with
  | none =>
    rw [he] at hget
    exact .inl ⟨rfl, Proc.runs_throw_iff.1 hget⟩
  | some e =>
    rw [he] at hget
    exact .inr ⟨e, rfl, Proc.runs_pure_iff.1 hget⟩

theorem runs_get_bind {id : String} {f : DLQEntry → DLQM β} {r : Except DLQError β}
    (h : Runs Exec (get id >>= f).run s r s') :
    (s.entries id = none ∧ r = .error (.notFound id) ∧ s' = s) ∨
      ∃ e, s.entries id = some e ∧ Runs Exec (f e).run s r s' := by
  obtain ⟨a, t, hget, hrest⟩ := runs_bind_iff.1 h
  rcases runs_get_cases hget with ⟨hnone, rfl, rfl⟩ | ⟨e, he, rfl, rfl⟩
  · cases hrest with
    | ret => exact .inl ⟨hnone, rfl, rfl⟩
  · exact .inr ⟨e, he, hrest⟩

theorem runs_clock {f : Int → DLQM β} {r : Except DLQError β}
    (h : Runs Exec ((command .clock : DLQM Int) >>= f).run s r s') :
    ∃ now, Runs Exec (f now).run s r s' := by
  obtain ⟨now, t, hexec, hrest⟩ := Proc.runs_send_bind_iff.1 h
  cases hexec with
  | clock => exact ⟨now, hrest⟩

theorem runs_moveStatus {old : DLQStatus} {e : DLQEntry} {r : Except DLQError DLQEntry}
    (h : Runs Exec (command (.moveStatus old e) >>= fun _ => (pure e : DLQM DLQEntry)).run s r s') :
    r = .ok e ∧ s' = s.moveStatus old e := by
  obtain ⟨_, t, hexec, hrest⟩ := Proc.runs_send_bind_iff.1 h
  cases hexec with
  | moveStatus => exact Proc.runs_pure_iff.1 hrest

/-- No entry, so nothing happens. -/
def Missing (s : Store) (id : String) (r : Except DLQError DLQEntry) (s' : Store) : Prop :=
  s.entries id = none ∧ r = .error (.notFound id) ∧ s' = s

/-- A transition of an entry, or a refusal. -/
inductive Transition (s : Store) (e : DLQEntry) (refused : Bool) (status : DLQStatus)
    (r : Except DLQError DLQEntry) (s' : Store) : Prop where
  | refused (message : String) : r = .error (.invalidTransition message) → s' = s → refused = true →
      Transition s e refused status r s'
  | moved (e' : DLQEntry) : r = .ok e' → s' = s.moveStatus e.status e' → refused = false →
      e'.entryId = e.entryId → e'.status = status → Transition s e refused status r s'

theorem terminal_iff {status : DLQStatus} :
    status.terminal = true ↔ status ≠ .pending ∧ status ≠ .requeued := by
  cases status <;> decide

theorem runs_markRequeued {id requeuedBy taskId : String} {r : Except DLQError DLQEntry}
    (h : Runs Exec (markRequeued id requeuedBy taskId).run s r s') :
    Missing s id r s' ∨ ∃ e, s.entries id = some e ∧
      Transition s e e.status.terminal .requeued r s' := by
  rcases runs_get_bind h with hmissing | ⟨e, he, hrun⟩
  · exact .inl hmissing
  refine .inr ⟨e, he, ?_⟩
  by_cases hterminal : e.status ≠ .pending ∧ e.status ≠ .requeued
  · rw [if_pos hterminal] at hrun
    obtain ⟨hr, hs⟩ := Proc.runs_throw_iff.1 hrun
    exact .refused _ hr hs (terminal_iff.2 hterminal)
  · rw [if_neg hterminal] at hrun
    obtain ⟨now, hrun⟩ := runs_clock hrun
    obtain ⟨hr, hs⟩ := runs_moveStatus hrun
    exact .moved _ hr hs (Bool.eq_false_iff.2 fun h => hterminal (terminal_iff.1 h)) rfl rfl

theorem runs_discard {id discardedBy : String} {notes : Option String}
    {r : Except DLQError DLQEntry} (h : Runs Exec (discard id discardedBy notes).run s r s') :
    Missing s id r s' ∨ ∃ e, s.entries id = some e ∧
      Transition s e e.status.terminal .discarded r s' := by
  rcases runs_get_bind h with hmissing | ⟨e, he, hrun⟩
  · exact .inl hmissing
  refine .inr ⟨e, he, ?_⟩
  have hiff : e.status.terminal = true ↔ e.status = .resolved ∨ e.status = .discarded := by
    cases e.status <;> decide
  by_cases hterminal : e.status = .resolved ∨ e.status = .discarded
  · rw [if_pos hterminal] at hrun
    obtain ⟨hr, hs⟩ := Proc.runs_throw_iff.1 hrun
    exact .refused _ hr hs (hiff.2 hterminal)
  · rw [if_neg hterminal] at hrun
    obtain ⟨now, hrun⟩ := runs_clock hrun
    obtain ⟨hr, hs⟩ := runs_moveStatus hrun
    exact .moved _ hr hs (Bool.eq_false_iff.2 fun h => hterminal (hiff.1 h)) rfl rfl

/-- Nothing is refused. -/
theorem runs_markResolved {id resolvedBy : String} {notes : Option String}
    {r : Except DLQError DLQEntry} (h : Runs Exec (markResolved id resolvedBy notes).run s r s') :
    Missing s id r s' ∨ ∃ e, s.entries id = some e ∧ Transition s e false .resolved r s' := by
  rcases runs_get_bind h with hmissing | ⟨e, he, hrun⟩
  · exact .inl hmissing
  refine .inr ⟨e, he, ?_⟩
  obtain ⟨now, hrun⟩ := runs_clock hrun
  obtain ⟨hr, hs⟩ := runs_moveStatus hrun
  exact .moved _ hr hs rfl rfl rfl

theorem runs_updatePayload {id : String} {payload : Payload} {r : Except DLQError DLQEntry}
    (h : Runs Exec (updatePayload id payload).run s r s') :
    s' = s ∨ ∃ e, s.entries id = some e ∧ e.status.terminal = false ∧
      s' = { s with
        entries := Function.update s.entries id (some { e with payload := payload }) } := by
  rcases runs_get_bind h with ⟨_, _, hs⟩ | ⟨e, he, hrun⟩
  · exact .inl hs
  by_cases hterminal : e.status ≠ .pending ∧ e.status ≠ .requeued
  · rw [if_pos hterminal] at hrun
    exact .inl (Proc.runs_throw_iff.1 hrun).2
  · rw [if_neg hterminal] at hrun
    obtain ⟨_, t, hexec, hrest⟩ := Proc.runs_send_bind_iff.1 hrun
    cases hexec with
    | set =>
      refine .inr ⟨e, he, Bool.eq_false_iff.2 fun h => hterminal (terminal_iff.1 h), ?_⟩
      exact (Proc.runs_pure_iff.1 hrest).2

theorem runs_send_cases {f : Failure} {r : Except DLQError DLQEntry}
    (h : Runs Exec (send f).run s r s') :
    ∃ e : DLQEntry, s.entries e.entryId = none ∧ s' = s.persistNew e := by
  obtain ⟨now, hrun⟩ := runs_clock h
  obtain ⟨_, t, hexec, hrest⟩ := Proc.runs_send_bind_iff.1 hrun
  cases hexec with
  | persistNew _ hnew => exact ⟨_, hnew, (Proc.runs_pure_iff.1 hrest).2⟩

/-! ## Operations -/

/-- A new failure, or one of the routes. -/
inductive Operation where
  | send (failure : Failure)
  | edit (entryId : String) (payload : Payload)
  | requeue (entryId subject : String)
  | discard (entryId subject : String) (notes : Option String)
  | resolve (entryId subject : String) (notes : Option String)

/-- What an operation answers, the bodies left out. -/
abbrev Answer : Type := Except RouteError Unit

def Operation.program : Operation → RouteM Unit
  | .send f => do
    let _ ← handle (Resilience.send f) .uncaught
    return ()
  | .edit id payload => do
    let _ ← editDlqEntryPayload id payload
    return ()
  | .requeue id subject => do
    let _ ← requeueDlqEntry id subject
    return ()
  | .discard id subject notes => do
    let _ ← discardDlqEntry id subject notes
    return ()
  | .resolve id subject notes => do
    let _ ← resolveDlqEntry id subject notes
    return ()

/-- An operation of a run. -/
structure Step where
  before : Store
  operation : Operation
  answer : Answer
  after : Store

def Step.Valid (step : Step) : Prop :=
  Runs Exec step.operation.program.run step.before step.answer step.after

/-- Operations one after another. -/
inductive OperationRun : Store → List Step → Prop where
  | nil {s : Store} : OperationRun s []
  | cons {step : Step} {rest : List Step} : step.Valid → OperationRun step.after rest →
      OperationRun step.before (step :: rest)

/-- The stored status of an entry. -/
def Store.status (s : Store) (id : String) : Option DLQStatus := (s.entries id).map DLQEntry.status

/-- An entry that is RESOLVED or DISCARDED. -/
def Store.Closed (s : Store) (id : String) : Prop :=
  ∃ status, s.status id = some status ∧ status.terminal = true

/-- Nothing that is DISCARDED is resolved, and nothing that is closed is requeued. -/
def Step.Open (step : Step) : Prop :=
  match step.operation with
  | .requeue id _ => ¬ step.before.Closed id
  | .resolve id _ _ => step.before.status id ≠ some .discarded
  | _ => True

/-- What the entries closed in `s` see of a later step. -/
structure Step.Leaves (step : Step) (s : Store) : Prop where
  status : ∀ id, s.Closed id → step.after.status id = s.status id
  dispatched : ∀ id subject, step.operation = .requeue id subject → s.Closed id →
    step.after.dispatched = step.before.dispatched
  conflict : ∀ id subject detail, step.operation = .requeue id subject →
    step.answer = .error (.http 409 detail) → step.after = step.before

/-! ## One operation -/

theorem runs_handle {p : DLQM α} {f : DLQError → RouteError} {r : Except RouteError α}
    (h : Runs Exec (handle p f).run s r s') :
    ∃ a, Runs Exec p.run s a s' ∧ r = a.mapError f := by
  obtain ⟨a, t, hp, hrest⟩ := runs_bind_iff.1 h
  cases a with
  | ok a =>
    cases hrest with
    | ret => exact ⟨_, hp, rfl⟩
  | error e =>
    cases hrest with
    | ret => exact ⟨_, hp, rfl⟩

theorem runs_forget {p : RouteM α} {r : Answer}
    (h : Runs Exec (p >>= fun _ => pure ()).run s r s') :
    ∃ a, Runs Exec p.run s a s' ∧ r = a.map fun _ => () := by
  obtain ⟨a, t, hp, hrest⟩ := runs_bind_iff.1 h
  cases a with
  | ok a =>
    cases hrest with
    | ret => exact ⟨_, hp, rfl⟩
  | error e =>
    cases hrest with
    | ret => exact ⟨_, hp, rfl⟩

/-- Entries are stored under their ids. -/
def Keyed (s : Store) : Prop := ∀ id e, s.entries id = some e → e.entryId = id

theorem keyed_update {id : String} {e : DLQEntry} (h : Keyed s) (hid : e.entryId = id)
    (hs : s'.entries = Function.update s.entries id (some e)) : Keyed s' := by
  intro id' e' he'
  rw [hs] at he'
  rcases update_eq_some_iff.1 he' with ⟨rfl, rfl⟩ | ⟨_, he'⟩
  · exact hid
  · exact h id' e' he'

theorem status_of_update {id : String} {e : DLQEntry}
    (hs : s'.entries = Function.update s.entries id (some e)) (id' : String) :
    s'.status id' = if id' = id then some e.status else s.status id' := by
  unfold Store.status
  rw [hs]
  by_cases h : id' = id
  · subst h
    simp
  · simp [h]

theorem closed_iff {id : String} {e : DLQEntry} (he : s.entries id = some e) :
    s.Closed id ↔ e.status.terminal = true := by
  unfold Store.Closed Store.status
  rw [he]
  simp

theorem not_closed {id : String} (h : s.entries id = none) : ¬ s.Closed id := by
  rintro ⟨status, hstatus, _⟩
  rw [Store.status, h] at hstatus
  cases hstatus

/-- A transition reaches no other entry; what it does not refuse has its new status. -/
theorem Transition.spec {id : String} {e : DLQEntry} {refused : Bool} {status : DLQStatus}
    {r : Except DLQError DLQEntry} (h : Transition s e refused status r s') (hs : Keyed s)
    (he : s.entries id = some e) :
    Keyed s' ∧ (refused = true → s' = s ∧ ∃ message, r = .error (.invalidTransition message)) ∧
      (refused = false → (∃ e', r = .ok e') ∧
        ∀ id', s'.status id' = if id' = id then some status else s.status id') := by
  have hid := hs id e he
  cases h with
  | refused message hr hs' hrefused =>
    subst hs'
    refine ⟨hs, fun _ => ⟨rfl, message, hr⟩, fun h => ?_⟩
    rw [hrefused] at h
    cases h
  | moved e' hr hs' hrefused hid' hstatus =>
    have hentries : s'.entries = Function.update s.entries id (some e') := by
      rw [hs', ← hid, ← hid']
      rfl
    have hstored : ∀ id', s'.status id' = if id' = id then some status else s.status id' := by
      intro id'
      rw [status_of_update hentries, hstatus]
    refine ⟨keyed_update hs (hid'.trans hid) hentries, fun h => ?_, fun _ => ⟨⟨e', hr⟩, hstored⟩⟩
    rw [hrefused] at h
    cases h

/-- What an operation other than a requeue has to leave. -/
theorem leaves_iff_status {step : Step} (h : ∀ id subject, step.operation ≠ .requeue id subject) :
    step.Leaves step.before ↔
      ∀ id, step.before.Closed id → step.after.status id = step.before.status id :=
  ⟨fun h => h.status, fun hstatus =>
    ⟨hstatus, fun id subject hop => absurd hop (h id subject),
      fun id subject _ hop => absurd hop (h id subject)⟩⟩

/-- After an operation: the entries are under their ids, and it has left the closed ones alone exactly
when it is open to it. -/
def Exact (step : Step) : Prop := Keyed step.after ∧ (step.Leaves step.before ↔ step.Open)

theorem send_exact {f : Failure} {r : Answer} (hs : Keyed s)
    (h : Runs Exec (Operation.program (.send f)).run s r s') : Exact ⟨s, .send f, r, s'⟩ := by
  obtain ⟨a, hrun, _⟩ := runs_forget h
  obtain ⟨b, hrun, _⟩ := runs_handle hrun
  obtain ⟨e, hnew, hs'⟩ := runs_send_cases hrun
  have hentries : s'.entries = Function.update s.entries e.entryId (some e) := by
    rw [hs']
    rfl
  refine ⟨keyed_update hs rfl hentries, ?_⟩
  rw [leaves_iff_status (by intro id subject h; cases h)]
  refine ⟨fun _ => trivial, fun _ id hclosed => ?_⟩
  show s'.status id = s.status id
  rw [status_of_update hentries, if_neg]
  rintro rfl
  exact not_closed hnew hclosed

theorem edit_exact {id : String} {payload : Payload} {r : Answer} (hs : Keyed s)
    (h : Runs Exec (Operation.program (.edit id payload)).run s r s') :
    Exact ⟨s, .edit id payload, r, s'⟩ := by
  obtain ⟨a, hrun, _⟩ := runs_forget h
  obtain ⟨b, hrun, _⟩ := runs_handle hrun
  have hedit : Keyed s' ∧ ∀ id', s'.status id' = s.status id' := by
    rcases runs_updatePayload hrun with hs' | ⟨e, he, _, hs'⟩
    · rw [hs']
      exact ⟨hs, fun _ => rfl⟩
    · have hentries : s'.entries = Function.update s.entries id (some { e with payload := payload }) := by
        rw [hs']
      refine ⟨keyed_update hs ?_ hentries, fun id' => ?_⟩
      · exact hs id e he
      rw [status_of_update hentries]
      split_ifs with hid
      · rw [hid, Store.status, he]
        rfl
      · rfl
  refine ⟨hedit.1, ?_⟩
  rw [leaves_iff_status (by intro id subject h; cases h)]
  exact ⟨fun _ => trivial, fun _ id' _ => hedit.2 id'⟩

theorem discard_exact {id subject : String} {notes : Option String} {r : Answer} (hs : Keyed s)
    (h : Runs Exec (Operation.program (.discard id subject notes)).run s r s') :
    Exact ⟨s, .discard id subject notes, r, s'⟩ := by
  obtain ⟨a, hrun, _⟩ := runs_forget h
  obtain ⟨b, hrun, _⟩ := runs_handle hrun
  unfold Exact
  rw [leaves_iff_status (by intro id subject h; cases h)]
  rcases runs_discard hrun with ⟨_, _, hs'⟩ | ⟨e, he, htransition⟩
  · rw [hs']
    exact ⟨hs, fun _ => trivial, fun _ _ _ => rfl⟩
  obtain ⟨hkeyed, hrefused, hmoved⟩ := htransition.spec hs he
  refine ⟨hkeyed, fun _ => trivial, fun _ id' hclosed => ?_⟩
  show s'.status id' = s.status id'
  cases hterminal : e.status.terminal with
  | true => rw [(hrefused hterminal).1]
  | false =>
    rw [(hmoved hterminal).2, if_neg]
    rintro rfl
    rw [(closed_iff he).1 hclosed] at hterminal
    cases hterminal

/-- Only a DISCARDED entry has something to lose. -/
theorem resolve_exact {id subject : String} {notes : Option String} {r : Answer} (hs : Keyed s)
    (h : Runs Exec (Operation.program (.resolve id subject notes)).run s r s') :
    Exact ⟨s, .resolve id subject notes, r, s'⟩ := by
  obtain ⟨a, hrun, _⟩ := runs_forget h
  obtain ⟨b, hrun, _⟩ := runs_handle hrun
  unfold Exact
  rw [leaves_iff_status (by intro id subject h; cases h)]
  rcases runs_markResolved hrun with ⟨hnone, _, hs'⟩ | ⟨e, he, htransition⟩
  · rw [hs']
    refine ⟨hs, fun _ => ?_, fun _ _ _ => rfl⟩
    show s.status id ≠ some .discarded
    rw [Store.status, hnone]
    exact fun h => by cases h
  obtain ⟨hkeyed, _, hmoved⟩ := htransition.spec hs he
  have hstatus := (hmoved rfl).2
  have hbefore : s.status id = some e.status := by
    rw [Store.status, he]
    rfl
  refine ⟨hkeyed, fun hleaves => ?_, fun hopen id' hclosed => ?_⟩
  · show s.status id ≠ some .discarded
    intro hdiscarded
    have hkept : s'.status id = s.status id := hleaves id ⟨_, hdiscarded, rfl⟩
    rw [hstatus, if_pos rfl, hdiscarded] at hkept
    cases hkept
  · show s'.status id' = s.status id'
    rw [hstatus]
    split_ifs with hid
    · -- closed and not discarded, so resolved
      subst hid
      have hopen : s.status id' ≠ some .discarded := hopen
      have hterminal := (closed_iff he).1 hclosed
      rw [hbefore] at hopen ⊢
      cases hcase : e.status with
      | resolved => rfl
      | discarded => exact absurd (by rw [hcase]) hopen
      | pending =>
        rw [hcase] at hterminal
        cases hterminal
      | requeued =>
        rw [hcase] at hterminal
        cases hterminal
    · rfl

/-- The task is dispatched before the status is looked at. -/
theorem requeue_exact {id subject : String} {r : Answer} (hs : Keyed s)
    (h : Runs Exec (Operation.program (.requeue id subject)).run s r s') :
    Exact ⟨s, .requeue id subject, r, s'⟩ := by
  obtain ⟨a, hrun, hanswer⟩ := runs_forget h
  obtain ⟨b, t, hget, hrest⟩ := runs_bind_iff.1 hrun
  obtain ⟨c, hgot, rfl⟩ := runs_handle hget
  rcases runs_get_cases hgot with ⟨hnone, rfl, rfl⟩ | ⟨e, he, rfl, rfl⟩
  · cases hrest with
    | ret =>
      have hnot := not_closed hnone
      refine ⟨hs, fun _ => hnot, fun _ => ⟨fun _ _ => rfl, fun _ _ _ _ => rfl, fun _ _ _ _ _ => rfl⟩⟩
  obtain ⟨taskId, u, hexec, hrest⟩ := Proc.runs_send_bind_iff.1 hrest
  cases hexec with
  | sendTask =>
    obtain ⟨d, v, hmark, hend⟩ := runs_bind_iff.1 hrest
    obtain ⟨d, hmarked, rfl⟩ := runs_handle hmark
    rcases runs_markRequeued hmarked with ⟨hnone, _⟩ | ⟨e', he', htransition⟩
    · rw [hnone] at he
      cases he
    obtain rfl : e' = e := Option.some.inj (he'.symm.trans he)
    obtain ⟨hkeyed, hrefused, hmoved⟩ := htransition.spec hs he'
    cases hterminal : e'.status.terminal with
    | true =>
      obtain ⟨rfl, message, rfl⟩ := hrefused hterminal
      cases hend with
      | ret =>
        have hclosed := (closed_iff he).2 hterminal
        refine ⟨hs, fun hleaves => ?_, fun hopen => absurd hclosed hopen⟩
        exact absurd (hleaves.dispatched id subject rfl hclosed) (List.cons_ne_self _ _)
    | false =>
      obtain ⟨⟨e'', rfl⟩, hstatus⟩ := hmoved hterminal
      cases hend with
      | ret =>
        have hopen := mt (closed_iff he).1 (Bool.eq_false_iff.1 hterminal)
        refine ⟨hkeyed, fun _ => hopen, fun _ => ⟨fun id' hclosed => ?_, ?_, ?_⟩⟩
        · refine (hstatus id').trans ((if_neg ?_).trans rfl)
          rintro rfl
          exact hopen hclosed
        · intro id' subject' hop hclosed
          cases hop
          exact absurd hclosed hopen
        · intro id' subject' detail _ h409
          have hok : r = .error (.http 409 detail) := h409
          rw [hanswer] at hok
          cases hok

theorem step_exact {step : Step} (hvalid : step.Valid) (hs : Keyed step.before) : Exact step := by
  obtain ⟨s, op, r, s'⟩ := step
  cases op with
  | send f => exact send_exact hs hvalid
  | edit id payload => exact edit_exact hs hvalid
  | requeue id subject => exact requeue_exact hs hvalid
  | discard id subject notes => exact discard_exact hs hvalid
  | resolve id subject notes => exact resolve_exact hs hvalid

/-! ## Runs -/

/-- The steps of a run begin with stores that have their entries under their ids. -/
theorem run_keyed {trace : List Step} (h : OperationRun s trace) (hs : Keyed s) :
    ∀ step ∈ trace, step.Valid ∧ Keyed step.before := by
  induction h with
  | nil => exact fun _ hstep => by cases hstep
  | @cons step rest hvalid _ ih =>
    intro b hb
    rcases List.mem_cons.1 hb with rfl | hb
    · exact ⟨hvalid, hs⟩
    · exact ih (step_exact hvalid hs).1 b hb

/-- What is closed before a run of operations that are all open stays so. -/
theorem run_leaves {trace : List Step} (h : OperationRun s trace) (hs : Keyed s)
    (hopen : ∀ step ∈ trace, step.Open) :
    ∀ step ∈ trace, (∀ id, s.Closed id → step.before.status id = s.status id) ∧ step.Leaves s := by
  induction h with
  | nil => exact fun _ hstep => by cases hstep
  | @cons step rest hvalid _ ih =>
    have hexact := step_exact hvalid hs
    have hleaves := hexact.2.2 (hopen step (List.mem_cons_self ..))
    intro b hb
    rcases List.mem_cons.1 hb with rfl | hb
    · exact ⟨fun _ _ => rfl, hleaves⟩
    · obtain ⟨hbefore, hlater⟩ := ih hexact.1
        (fun b hb => hopen b (List.mem_cons_of_mem _ hb)) b hb
      have hclosed : ∀ id, step.before.Closed id → step.after.Closed id := by
        rintro id ⟨status, hstatus, hterminal⟩
        exact ⟨status, (hleaves.status id ⟨status, hstatus, hterminal⟩).trans hstatus, hterminal⟩
      refine ⟨fun id hid => ?_, fun id hid => ?_, fun id subject hop hid => ?_, hlater.conflict⟩
      · rw [hbefore id (hclosed id hid), hleaves.status id hid]
      · rw [hlater.status id (hclosed id hid), hleaves.status id hid]
      · exact hlater.dispatched id subject hop (hclosed id hid)

theorem OperationRun.suffix {earlier trace : List Step} (h : OperationRun s (earlier ++ trace))
    {step : Step} {rest : List Step} (ht : trace = step :: rest) : OperationRun step.before trace := by
  induction earlier generalizing s with
  | nil =>
    subst ht
    cases h with
    | cons hvalid hrest => exact .cons hvalid hrest
  | cons a earlier ih =>
    cases h with
    | cons _ hrest => exact ih hrest

theorem keyed_initial : Keyed .initial := fun _ _ h => by cases h

/-- **Closed dead letters stay closed**, are not dispatched, and a refused requeue has no effect, in
exactly those runs that resolve nothing DISCARDED and requeue nothing closed. -/
theorem closed_iff_open (trace : List Step) (h : OperationRun .initial trace) :
    (∀ earlier step rest, trace = earlier ++ step :: rest →
      ∀ later ∈ step :: rest, later.Leaves step.before) ↔ ∀ step ∈ trace, step.Open := by
  constructor
  · intro hleaves step hstep
    obtain ⟨earlier, rest, rfl⟩ := List.append_of_mem hstep
    obtain ⟨hvalid, hs⟩ := run_keyed h keyed_initial step hstep
    exact (step_exact hvalid hs).2.1 (hleaves earlier step rest rfl step (List.mem_cons_self ..))
  · rintro hopen earlier step rest rfl later hlater
    obtain ⟨_, hs⟩ := run_keyed h keyed_initial step (by simp)
    refine (run_leaves (h.suffix rfl) hs (fun b hb => ?_) later hlater).2
    exact hopen b (List.mem_append_right _ hb)

/-! ## A requeue that is refused -/

def resolvedStore : Store := sentStore.moveStatus .pending resolvedEntry

def sentStep : Step := ⟨.initial, .send sampleFailure, .ok (), sentStore⟩

def resolvedStep : Step := ⟨sentStore, .resolve "e1" "engineer-1" none, .ok (), resolvedStore⟩

theorem sentStep_valid : sentStep.Valid :=
  .cmd (.clock 0) (.cmd (.persistNew pendingEntry rfl) .ret)

theorem resolvedStep_valid : resolvedStep.Valid :=
  .cmd (.get "e1") (.cmd (.clock 0) (.cmd (.moveStatus .pending resolvedEntry) .ret))

/-- The first resolution is open to it. -/
theorem closed_iff_open_resolved : ∃ trace, OperationRun .initial trace ∧ resolvedStep ∈ trace ∧
    ∀ earlier step rest, trace = earlier ++ step :: rest →
      ∀ later ∈ step :: rest, later.Leaves step.before := by
  have hrun : OperationRun .initial [sentStep, resolvedStep] :=
    .cons sentStep_valid (.cons resolvedStep_valid .nil)
  refine ⟨_, hrun, by simp, (closed_iff_open _ hrun).2 fun step hstep => ?_⟩
  rcases List.mem_cons.1 hstep with rfl | hstep
  · exact trivial
  · rw [List.mem_singleton.1 hstep]
    exact fun h => by cases h

/-- The requeue of the resolved entry is answered with 409, and its task is on its way. -/
def requeuedStep : Step where
  before := resolvedStore
  operation := .requeue "e1" "engineer-2"
  answer := .error (.http 409 "Cannot requeue entry 'e1' in terminal status 'resolved'.")
  after := { resolvedStore with dispatched := [("app.parsing.tasks.parse_circular_task", [])] }

theorem requeuedStep_valid : requeuedStep.Valid :=
  .cmd (.get "e1") (.cmd (.sendTask _ _ "task-1") (.cmd (.get "e1") .ret))

theorem not_forall_closed : ¬ ∀ trace, OperationRun .initial trace →
    ∀ earlier step rest, trace = earlier ++ step :: rest →
      ∀ later ∈ step :: rest, later.Leaves step.before := by
  intro h
  have hrun : OperationRun .initial [sentStep, resolvedStep, requeuedStep] :=
    .cons sentStep_valid (.cons resolvedStep_valid (.cons requeuedStep_valid .nil))
  have hleaves := h _ hrun [sentStep, resolvedStep] requeuedStep [] rfl _ (List.mem_cons_self ..)
  have hdispatched := hleaves.dispatched "e1" "engineer-2" rfl ⟨.resolved, rfl, rfl⟩
  exact absurd (congrArg List.length hdispatched) (by decide)

end RegEngine.Resilience
