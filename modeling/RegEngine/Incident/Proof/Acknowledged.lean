import RegEngine.Lib.RelyGuarantee
import RegEngine.Incident.Escalation
import Mathlib.Tactic.SplitIfs

/-!
# Acknowledged events

While a SET of `update_escalation_stage` finds the status that it has read (`Current`), an event that
`acknowledge` has written is never PENDING again, and nobody who reads it afterwards dispatches a stage
(`stays_acknowledged`): a caller relies on the others to leave alone what it has last seen.
-/

namespace RegEngine.Incident

open Lib Lib.Programs Lib.RelyGuarantee

variable {ι : Type}

/-! ## Calls -/

inductive Call where
  | raiseBreachEvent (event : BreachEvent)
  | acknowledge (eventId acknowledgedBy : String)
  | processEscalationStageTask
  | sweep
  | wait

section
variable (settings : Settings)

/-- A call, and what it returns forgotten. -/
def quietly {α : Type} (p : IncidentM ι α) : Prog (Command ι) Reply (Except IncidentError Unit) :=
  (p >>= fun _ => pure ()).run

def Call.program (i : ι) : Call → Prog (Command ι) Reply (Except IncidentError Unit)
  | .raiseBreachEvent event => quietly (Incident.raiseBreachEvent event)
  | .acknowledge id officer => quietly (Incident.acknowledge i id officer)
  | .processEscalationStageTask => quietly (Incident.processEscalationStageTask i settings)
  | .sweep => quietly (Incident.sweep i settings)
  | .wait => quietly (command .clock)

/-- A caller begins one of the calls. -/
def Begins (i : ι) (p : Prog (Command ι) Reply (Except IncidentError Unit)) : Prop :=
  ∃ call : Call, p = call.program settings i

abbrev RunState (ι : Type) : Type := State (Command ι) Reply (Except IncidentError Unit) (Store ι) ι

/-- No event, and every caller at rest. -/
def start (ι : Type) (now : Int) : RunState ι :=
  ⟨⟨fun _ => none, fun _ => none, [], now, fun _ => false, fun _ => false, []⟩, fun _ => .ret (.ok ())⟩

/-- Every run of commands that meet `Ok`; callers may stop anywhere. -/
def IncidentRun [DecidableEq ι] (Ok : Store ι → Command ι → Prop) : RunState ι → RunState ι → Prop :=
  Relation.ReflTransGen (Serves Exec Ok (Begins settings) (fun _ _ => True) (.ok ()))

end

/-! ## What the callers rely on -/

/-- Acknowledged events are not PENDING, and nobody has dispatched one that it has read so. -/
structure Heard (s : Store ι) : Prop where
  keyed : ∀ id e, s.events id = some e → e.eventId = id
  acknowledged : ∀ id, s.acknowledged id = true → ∃ e, s.events id = some e ∧ e.ackStatus ≠ .pending
  log : ∀ d ∈ s.log, d.late = false

/-- Events stay, and stay acknowledged. -/
structure HeardGrows (s t : Store ι) : Prop where
  events : ∀ id e, s.events id = some e → ∃ e', t.events id = some e'
  acknowledged : ∀ id, s.acknowledged id = true → t.acknowledged id = true

/-- Callers rely on what they have last seen. -/
def hearing : Protocol (Store ι) ι where
  inv := Heard
  grow := HeardGrows
  rely i s t := t.late i = s.late i
  done _ _ := True
  grow_refl _ := ⟨fun _ e he => ⟨e, he⟩, fun _ h => h⟩
  grow_trans s t u h h' := by
    refine ⟨fun id e he => ?_, fun id hack => h'.acknowledged id (h.acknowledged id hack)⟩
    obtain ⟨e', he'⟩ := h.events id e he
    exact h'.events id e' he'
  rely_refl _ _ := rfl
  rely_trans _ _ _ _ h h' := h'.trans h
  done_rely _ _ _ _ _ := trivial

/-- A stage is written over the status that was read. -/
def Current (s : Store ι) : Command ι → Prop
  | .setStage read _ => ∀ stored, s.events read.eventId = some stored → stored.ackStatus = read.ackStatus
  | _ => True

variable {i : ι} {s t : Store ι} {α β : Type}

/-- An event is written that is not PENDING if it is acknowledged. -/
theorem hearing_put (hs : Heard s) {e : BreachEvent}
    (hevents : t.events = Function.update s.events e.eventId (some e)) (hlog : t.log = s.log)
    (hlate : t.late = s.late) (hgrow : ∀ id, s.acknowledged id = true → t.acknowledged id = true)
    (hself : t.acknowledged e.eventId = true → e.ackStatus ≠ .pending)
    (hother : ∀ id, id ≠ e.eventId → t.acknowledged id = s.acknowledged id) :
    hearing.Guarantee i s t := by
  have hsome : t.events e.eventId = some e := by
    rw [hevents]
    exact Function.update_self ..
  have hsame : ∀ id, id ≠ e.eventId → t.events id = s.events id := by
    intro id hid
    rw [hevents]
    exact Function.update_of_ne hid _ _
  refine ⟨⟨fun id e' he' => ?_, fun id hack => ?_, ?_⟩, ⟨fun id e' he' => ?_, hgrow⟩, fun _ _ => ?_⟩
  · by_cases hid : id = e.eventId
    · subst hid
      rw [Option.some.inj (hsome.symm.trans he')]
    · exact hs.keyed id e' ((hsame id hid).symm.trans he')
  · by_cases hid : id = e.eventId
    · subst hid
      exact ⟨e, hsome, hself hack⟩
    · obtain ⟨e', he', hpending⟩ := hs.acknowledged id ((hother id hid).symm.trans hack)
      exact ⟨e', (hsame id hid).trans he', hpending⟩
  · rw [hlog]
    exact hs.log
  · by_cases hid : id = e.eventId
    · subst hid
      exact ⟨e, hsome⟩
    · exact ⟨e', (hsame id hid).trans he'⟩
  · show t.late _ = s.late _
    rw [hlate]

/-- The events stay as they are. -/
theorem hearing_same (hs : Heard s) (hevents : t.events = s.events)
    (hack : t.acknowledged = s.acknowledged) (hlog : t.log = s.log)
    (hlate : ∀ j, j ≠ i → t.late j = s.late j) : hearing.Guarantee i s t := by
  refine ⟨⟨?_, ?_, ?_⟩, ⟨?_, ?_⟩, hlate⟩
  · rw [hevents]
    exact hs.keyed
  · rw [hevents, hack]
    exact hs.acknowledged
  · rw [hlog]
    exact hs.log
  · rw [hevents]
    exact fun id e he => ⟨e, he⟩
  · rw [hack]
    exact fun id h => h

/-! ## Programs -/

variable [DecidableEq ι]

/-- A program of one of the callers. -/
def Hears (i : ι) (p : IncidentM ι α) (s : Store ι) : Prop :=
  Safe hearing Exec Current i (fun _ _ => True) p.run s

theorem hears_pure {a : α} : Hears i (pure a) s := safe_pure trivial

theorem Hears.then {p : IncidentM ι α} {f : α → IncidentM ι β} (hp : Hears i p s)
    (hf : ∀ a s, Hears i (f a) s) : Hears i (p >>= f) s :=
  safe_bind hp (fun _ _ _ => trivial) fun a s _ => hf a s

/-- A command that leaves the events as they are. -/
theorem hears_same {c : Command ι} {f : Reply c → IncidentM ι β}
    (hsame : ∀ s₁ r s₂, Exec c s₁ r s₂ → s₂.events = s₁.events ∧ s₂.acknowledged = s₁.acknowledged ∧
      s₂.log = s₁.log ∧ s₂.late = s₁.late) (hf : ∀ r s', Hears i (f r) s') :
    Hears i (command c >>= f) s := by
  refine safe_send_bind fun s₁ hinv _ _ r s₂ _ hexec => ?_
  obtain ⟨hevents, hack, hlog, hlate⟩ := hsame s₁ r s₂ hexec
  exact ⟨hearing_same hinv hevents hack hlog fun j _ => by rw [hlate], hf r s₂⟩

/-- A caller knows whether the event that it reads was acknowledged. -/
theorem hears_get {id : String} {f : Option BreachEvent → IncidentM ι β}
    (hf : ∀ s', Heard s' → (∀ e, s'.events id = some e → e.ackStatus = .pending → s'.late i = false) →
      Hears i (f (s'.events id)) s') : Hears i (get i id >>= f) s := by
  refine safe_send_bind fun s₁ hinv _ _ r s₂ _ hexec => ?_
  cases hexec with
  | get =>
    have hguarantee : hearing.Guarantee i s₁
        { s₁ with late := Function.update s₁.late i (s₁.acknowledged id) } :=
      hearing_same hinv rfl rfl rfl fun j hj => Function.update_of_ne hj _ _
    refine ⟨hguarantee, hf _ hguarantee.inv fun e he hpending => ?_⟩
    show Function.update s₁.late i (s₁.acknowledged id) i = false
    rw [Function.update_self]
    cases hack : s₁.acknowledged id with
    | false => rfl
    | true =>
      obtain ⟨e', he', hnot⟩ := hinv.acknowledged id hack
      obtain rfl := Option.some.inj (he'.symm.trans he)
      exact absurd hpending hnot

theorem hears_updateEscalationStage (id : String) (stageIndex : Nat) :
    Hears i (updateEscalationStage i id stageIndex) s := by
  refine hears_get fun s₁ hinv₁ _ => ?_
  cases s₁.events id with
  | none => exact hears_pure
  | some e =>
    refine safe_send_bind fun s₂ hinv₂ _ _ _ s₃ hok hexec => ?_
    cases hexec with
    | setStage =>
      refine ⟨hearing_put hinv₂ rfl rfl rfl (fun _ h => h) (fun hack => ?_) fun _ _ => rfl, hears_pure⟩
      obtain ⟨stored, hstored, hnot⟩ := hinv₂.acknowledged _ hack
      show e.ackStatus ≠ .pending
      rw [← hok stored hstored]
      exact hnot

theorem hears_dispatchStage (stages : List EscalationStage) (event : BreachEvent) (id : String)
    (stageIndex : Nat) (hlate : s.late i = false) :
    Hears i (dispatchStage i stages event id stageIndex) s := by
  unfold dispatchStage
  cases stages[stageIndex]? with
  | none => exact hears_pure
  | some stage =>
    refine safe_send_bind fun s₁ hinv₁ _ hrely₁ done s₂ _ hexec => ?_
    cases hexec with
    | dispatchChannels =>
      refine ⟨⟨⟨hinv₁.keyed, hinv₁.acknowledged, fun d hd => ?_⟩,
        ⟨fun _ e he => ⟨e, he⟩, fun _ h => h⟩, fun _ _ => rfl⟩, ?_⟩
      · rcases List.mem_cons.1 hd with rfl | hd
        · exact Eq.trans hrely₁ hlate
        · exact hinv₁.log d hd
      · cases done with
        | false => exact safe_throw trivial
        | true =>
          refine (hears_updateEscalationStage id stageIndex).then fun _ s₃ => ?_
          cases stages[stageIndex + 1]? with
          | none => exact hears_pure
          | some nextStage =>
            refine hears_same (c := .applyAsync id (stageIndex + 1) nextStage.delaySeconds) ?_
              fun _ _ => hears_pure
            intro s₄ _ s₅ hexec
            cases hexec with
            | applyAsync => exact ⟨rfl, rfl, rfl, rfl⟩

theorem hears_processStage (settings : Settings) (id : String) (stageIndex : Nat) :
    Hears i (processStage i settings id stageIndex) s := by
  refine hears_get fun s₁ hinv₁ hlate₁ => ?_
  cases he : s₁.events id with
  | none => exact hears_pure
  | some event =>
    show Hears i (if event.ackStatus ≠ .pending then _ else _) s₁
    split_ifs with hpending
    · exact hears_pure
    · exact hears_dispatchStage _ event id stageIndex (hlate₁ event he (not_not.1 hpending))

theorem hears_clock {f : Int → IncidentM ι β} (hf : ∀ now s', Hears i (f now) s') :
    Hears i ((command .clock : IncidentM ι Int) >>= f) s := by
  refine hears_same (c := .clock) ?_ hf
  intro s₁ now s₂ hexec
  cases hexec with
  | clock => exact ⟨rfl, rfl, rfl, rfl⟩

theorem hears_acknowledge (id officer : String) : Hears i (acknowledge i id officer) s := by
  refine hears_get fun s₁ _ _ => ?_
  cases s₁.events id with
  | none => exact hears_pure
  | some e =>
    refine hears_clock fun now s₂ => ?_
    refine safe_send_bind fun s₃ hinv₃ _ _ _ s₄ _ hexec => ?_
    cases hexec with
    | acknowledge =>
      refine ⟨hearing_put hinv₃ rfl rfl rfl (fun id' hack => ?_) (fun _ => by simp) fun id' hid =>
        Function.update_of_ne hid _ _, ?_⟩
      · show Function.update s₃.acknowledged e.eventId true id' = true
        by_cases hid : id' = e.eventId
        · subst hid
          exact Function.update_self ..
        · rw [Function.update_of_ne hid]
          exact hack
      · refine hears_same (c := .zrem id) ?_ fun _ _ => hears_pure
        intro s₅ _ s₆ hexec
        cases hexec with
        | zrem => exact ⟨rfl, rfl, rfl, rfl⟩

theorem hears_raiseBreachEvent (event : BreachEvent) : Hears i (raiseBreachEvent event) s := by
  have hsave : Hears i (save event) s := by
    refine safe_send_bind fun s₁ hinv₁ _ _ _ s₂ _ hexec => ?_
    cases hexec with
    | create _ hnone =>
      refine ⟨hearing_put hinv₁ rfl rfl rfl (fun _ h => h) (fun hack => ?_) fun _ _ => rfl, ?_⟩
      · -- what is acknowledged is stored, and the new event is new
        obtain ⟨e, he, _⟩ := hinv₁.acknowledged _ hack
        rw [hnone] at he
        cases he
      · show Hears i (if _ then _ else _) _
        split_ifs with hpending
        · refine hears_same (c := .zadd event.eventId event.createdAt) ?_ fun _ _ => hears_pure
          intro s₃ _ s₄ hexec
          cases hexec with
          | zadd => exact ⟨rfl, rfl, rfl, rfl⟩
        · exact hears_pure
  refine hsave.then fun _ s₁ => ?_
  split_ifs with hrequires
  · refine hears_same (c := .applyAsync event.eventId 0 0) ?_ fun _ _ => hears_pure
    intro s₂ _ s₃ hexec
    cases hexec with
    | applyAsync => exact ⟨rfl, rfl, rfl, rfl⟩
  · exact hears_pure

theorem hears_mapM_get (ids : List String) : Hears i (ids.mapM (get i)) s := by
  induction ids generalizing s with
  | nil => exact hears_pure
  | cons id ids ih =>
    rw [List.mapM_cons]
    exact hears_get fun s₁ _ _ => Hears.then (ih (s := s₁)) fun _ _ => hears_pure

theorem hears_sweep (settings : Settings) : Hears i (sweep i settings) s := by
  have hsends : ∀ (events : List BreachEvent) (s : Store ι), Hears i (events.forM fun event => do
      let _ ← command (.sweepDelay event)
      return ()) s := by
    intro events
    induction events with
    | nil => exact fun s => hears_pure
    | cons event events ih =>
      intro s
      have hsend : ∀ s, Hears i (do
          let _ ← command (.sweepDelay event)
          return () : IncidentM ι Unit) s := by
        intro s
        refine hears_same (c := .sweepDelay event) ?_ fun _ _ => hears_pure
        intro s₁ _ s₂ hexec
        cases hexec with
        | sweepDelay => exact ⟨rfl, rfl, rfl, rfl⟩
      exact (hsend s).then fun _ s₁ => ih s₁
  refine Hears.then ?_ fun events s₁ => hsends events s₁
  refine hears_clock fun now s₁ => ?_
  refine hears_same (c := .zrangebyscore _) ?_ ?_
  · intro s₂ ids s₃ hexec
    cases hexec with
    | zrangebyscore => exact ⟨rfl, rfl, rfl, rfl⟩
  · intro ids s₂
    exact Hears.then (hears_mapM_get ids) fun _ _ => hears_pure

theorem hears_program (settings : Settings) (call : Call) :
    Safe hearing Exec Current i (fun _ _ => True) (call.program settings i) s := by
  have hquietly : ∀ {α : Type} {p : IncidentM ι α}, Hears i p s →
      Safe hearing Exec Current i (fun _ _ => True) (quietly p) s :=
    fun hp => hp.then fun _ _ => hears_pure
  cases call with
  | raiseBreachEvent event => exact hquietly (hears_raiseBreachEvent event)
  | acknowledge id officer => exact hquietly (hears_acknowledge id officer)
  | processEscalationStageTask =>
    refine hquietly (hears_same (c := .receive) ?_ fun task s₁ =>
      hears_processStage settings task.eventId task.stageIndex)
    intro s₁ task s₂ hexec
    cases hexec with
    | receive => exact ⟨rfl, rfl, rfl, rfl⟩
  | sweep => exact hquietly (hears_sweep settings)
  | wait => exact hears_clock fun _ _ => hears_pure

/-! ## Runs -/

/-- What is acknowledged stays so, and nobody who has read that has dispatched a stage. -/
def StaysAcknowledged (s t : Store ι) : Prop :=
  (∀ id, s.acknowledged id = true → ∃ e, t.events id = some e ∧ e.ackStatus ≠ .pending) ∧
    ∀ d ∈ t.log, d.late = false

theorem stays_acknowledged (settings : Settings) (now : Int) {S S' : RunState ι}
    (h : IncidentRun settings Current (start ι now) S) (h' : IncidentRun settings Current S S') :
    StaysAcknowledged S.store S'.store := by
  have hbegins : ∀ (i : ι) p s, Begins settings i p → hearing.done i s →
      Safe hearing Exec Current i (fun _ => hearing.done i) p s := by
    rintro i p s ⟨call, rfl⟩ _
    exact hears_program settings call
  have hstart : Global hearing Exec Current (start ι now) := by
    refine ⟨⟨fun id e he => ?_, fun id hack => ?_, fun d hd => ?_⟩, fun i => trivial⟩
    · cases he
    · cases hack
    · cases hd
  obtain ⟨hglobal, _⟩ := safe_serving hstart hbegins (fun _ _ _ => trivial) h
  obtain ⟨hglobal', hgrows⟩ := safe_serving hglobal hbegins (fun _ _ _ => trivial) h'
  exact ⟨fun id hack => hglobal'.inv.acknowledged id (hgrows.acknowledged id hack), hglobal'.inv.log⟩

/-! ## Samples -/

def sampleSettings : Settings := ⟨300, 900, 1800⟩

def sampleEvent : BreachEvent where
  eventId := "b1"
  severity := .critical
  ackStatus := .pending
  acknowledgedBy := none
  acknowledgedAt := none
  escalationStage := 0
  createdAt := 0

def acknowledgedEvent : BreachEvent :=
  { sampleEvent with
    ackStatus := .acknowledged
    acknowledgedBy := some "officer"
    acknowledgedAt := some 0 }

/-- An event is raised and acknowledged, and its first stage comes too late. -/
theorem stays_acknowledged_officer : ∃ S : RunState Unit,
    IncidentRun sampleSettings Current (start Unit 0) S ∧ S.store.acknowledged "b1" = true ∧
      StaysAcknowledged S.store S.store := by
  have hraise : IncidentRun sampleSettings Current (start Unit 0) _ := serves_of_advances (i := ()) rfl
    ⟨.raiseBreachEvent sampleEvent, rfl⟩
    (.cmd ⟨trivial, .create sampleEvent rfl⟩ (.cmd ⟨trivial, .zadd "b1" 0⟩
      (.cmd ⟨trivial, .applyAsync "b1" 0 0⟩ .refl)))
  have hack := hraise.trans (serves_of_advances (i := ()) rfl ⟨.acknowledge "b1" "officer", rfl⟩
    (.cmd ⟨trivial, .get () "b1"⟩ (.cmd ⟨trivial, .clock 0 (by decide)⟩
      (.cmd ⟨trivial, .acknowledge acknowledgedEvent⟩ (.cmd ⟨trivial, .zrem "b1"⟩ .refl)))))
  have hstage := hack.trans (serves_of_advances (i := ()) rfl ⟨.processEscalationStageTask, rfl⟩
    (.cmd ⟨trivial, .receive ⟨"b1", 0, 0⟩ [] (by decide) (by decide) (.inr (by decide))⟩
      (.cmd ⟨trivial, .get () "b1"⟩ .refl)))
  exact ⟨_, hstage, rfl, stays_acknowledged sampleSettings 0 hstage .refl⟩

/-- The officer acknowledges between the GET and the SET of `update_escalation_stage`. -/
theorem not_forall_stays_acknowledged :
    ¬ ∀ S S' : RunState (Fin 2), IncidentRun sampleSettings (fun _ _ => True) (start (Fin 2) 0) S →
      IncidentRun sampleSettings (fun _ _ => True) S S' → StaysAcknowledged S.store S'.store := by
  intro h
  have hraise : IncidentRun sampleSettings (fun _ _ => True) (start (Fin 2) 0) _ :=
    serves_of_advances (i := 0) rfl ⟨.raiseBreachEvent sampleEvent, rfl⟩
      (.cmd ⟨trivial, .create sampleEvent rfl⟩ (.cmd ⟨trivial, .zadd "b1" 0⟩
        (.cmd ⟨trivial, .applyAsync "b1" 0 0⟩ .refl)))
  have hread := hraise.trans (serves_of_advances (i := 0) rfl ⟨.processEscalationStageTask, rfl⟩
    (.cmd ⟨trivial, .receive ⟨"b1", 0, 0⟩ [] (by decide) (by decide) (.inr (by decide))⟩
      (.cmd ⟨trivial, .get 0 "b1"⟩
        (.cmd ⟨trivial, .dispatchChannels 0 sampleEvent ⟨0, 0, ["slack", "email"]⟩ 0 true⟩
          (.cmd ⟨trivial, .get 0 "b1"⟩ .refl)))))
  have hack := hread.trans (serves_of_advances (i := 1) rfl ⟨.acknowledge "b1" "officer", rfl⟩
    (.cmd ⟨trivial, .get 1 "b1"⟩ (.cmd ⟨trivial, .clock 0 (by decide)⟩
      (.cmd ⟨trivial, .acknowledge acknowledgedEvent⟩ (.cmd ⟨trivial, .zrem "b1"⟩ .refl)))))
  have hset := h _ _ hack (serves_continues (i := 0) rfl
    (.cmd ⟨trivial, .setStage sampleEvent sampleEvent⟩ .refl))
  obtain ⟨e, he, hnot⟩ := hset.1 "b1" rfl
  obtain rfl := Option.some.inj he
  exact hnot rfl

end RegEngine.Incident
