import RegEngine.Incident.Proof.Acknowledged
import Mathlib.Algebra.Order.Ring.Int

/-!
# The escalation schedule

`due` is when a stage is to be dispatched at the earliest. The chain keeps to it by itself: a stage is
dispatched before its successor is scheduled, at its delay. While a sweep sends only stages that are due, and
no stage 1 of an event whose stage 0 was never dispatched (`Due`), every dispatch is on schedule
(`on_schedule`).
-/

namespace RegEngine.Incident

open Lib Lib.Programs Lib.RelyGuarantee

variable {ι : Type}

section
variable (settings : Settings)

def BreachEvent.stages (event : BreachEvent) : List EscalationStage :=
  buildEscalationPolicies settings event.severity

/-- The delays of stages `1 … k` after the event was created. -/
def due (event : BreachEvent) (k : Nat) : Int :=
  event.createdAt + second * (((event.stages settings).drop 1 |>.take k).map EscalationStage.delaySeconds).sum

/-- A stage has been dispatched. -/
def Completed (log : List Dispatch) (id : String) (k : Nat) : Prop :=
  ∃ d ∈ log, d.eventId = id ∧ d.stageIndex = k ∧ d.completed = true

/-- All stages below have been dispatched. -/
def Reached (log : List Dispatch) (id : String) (k : Nat) : Prop := ∀ j < k, Completed log id j

/-- Every dispatch was due, and came after those of the stages below. -/
def OnSchedule (events : String → Option BreachEvent) : List Dispatch → Prop
  | [] => True
  | d :: earlier => (∃ e, events d.eventId = some e ∧ due settings e d.stageIndex ≤ d.moment ∧
      Reached earlier d.eventId d.stageIndex) ∧ OnSchedule events earlier

/-- What is known of an event that was read. -/
structure Known (s : Store ι) (e : BreachEvent) : Prop where
  stored : ∃ stored, s.events e.eventId = some stored ∧ stored.createdAt = e.createdAt ∧
    stored.severity = e.severity
  reached : e.escalationStage = 0 ∨ Reached s.log e.eventId (e.escalationStage + 1)

/-- If there is such a stage, its time has come by `moment`, and the stages below have been dispatched. -/
def Ready (s : Store ι) (id : String) (k : Nat) (moment : Int) : Prop :=
  ∃ e, s.events id = some e ∧
    (k < (e.stages settings).length → due settings e k ≤ moment ∧ Reached s.log id k)

structure Timely (s : Store ι) : Prop where
  keyed : ∀ id e, s.events id = some e → e.eventId = id
  known : ∀ id e, s.events id = some e → Known s e
  tasks : ∀ t ∈ s.tasks, Ready settings s t.eventId t.stageIndex t.eta
  log : OnSchedule settings s.events s.log

end

/-- Events stay, with their creation and severity, time passes, and what was dispatched remains so. -/
structure TimelyGrows (s t : Store ι) : Prop where
  events : ∀ id e, s.events id = some e →
    ∃ e', t.events id = some e' ∧ e'.createdAt = e.createdAt ∧ e'.severity = e.severity
  now : s.now ≤ t.now
  completed : ∀ id k, Completed s.log id k → Completed t.log id k

theorem TimelyGrows.refl (s : Store ι) : TimelyGrows s s :=
  ⟨fun _ e he => ⟨e, he, rfl, rfl⟩, le_refl _, fun _ _ h => h⟩

theorem TimelyGrows.trans {s t u : Store ι} (h : TimelyGrows s t) (h' : TimelyGrows t u) :
    TimelyGrows s u := by
  refine ⟨fun id e he => ?_, le_trans h.now h'.now, fun id k hk => h'.completed id k (h.completed id k hk)⟩
  obtain ⟨e₁, he₁, hcreated₁, hseverity₁⟩ := h.events id e he
  obtain ⟨e₂, he₂, hcreated₂, hseverity₂⟩ := h'.events id e₁ he₁
  exact ⟨e₂, he₂, hcreated₂.trans hcreated₁, hseverity₂.trans hseverity₁⟩

/-- The callers rely on events that stay, and on dispatches. -/
def timing (settings : Settings) : Protocol (Store ι) ι where
  inv := Timely settings
  grow := TimelyGrows
  rely _ _ _ := True
  done _ _ := True
  grow_refl := .refl
  grow_trans _ _ _ := .trans
  rely_refl _ _ := trivial
  rely_trans _ _ _ _ _ _ := trivial
  done_rely _ _ _ _ _ := trivial

/-- A new event is at stage 0. What a sweep sends is due, and if it is stage 1, stage 0 was dispatched. -/
def Due (settings : Settings) (s : Store ι) : Command ι → Prop
  | .create event => event.escalationStage = 0 ∧ event.createdAt ≤ s.now
  | .sweepDelay event => event.escalationStage + 1 < (event.stages settings).length →
      due settings event (event.escalationStage + 1) ≤ s.now ∧
        (event.escalationStage = 0 → Completed s.log event.eventId 0)
  | _ => True

section
variable {settings : Settings} {i : ι} {s t : Store ι} {e e' : BreachEvent} {id : String} {k : Nat}

/-! ## Due times -/

theorem due_congr (hcreated : e'.createdAt = e.createdAt) (hseverity : e'.severity = e.severity)
    (k : Nat) : due settings e' k = due settings e k := by
  unfold due BreachEvent.stages
  rw [hcreated, hseverity]

theorem due_zero : due settings e 0 = e.createdAt := by
  simp [due]

theorem due_succ {stage : EscalationStage} (h : (e.stages settings)[k + 1]? = some stage) :
    due settings e (k + 1) = due settings e k + second * stage.delaySeconds := by
  have hdrop : ((e.stages settings).drop 1)[k]? = some stage := by
    rw [List.getElem?_drop, Nat.add_comm]
    exact h
  unfold due
  rw [List.take_add_one, hdrop, List.map_append, List.sum_append]
  simp [mul_add, add_assoc]

theorem Reached.grow (h : Reached s.log id k) (hgrow : TimelyGrows s t) : Reached t.log id k :=
  fun j hj => hgrow.completed id j (h j hj)

theorem Known.grow (h : Known s e) (hgrow : TimelyGrows s t) : Known t e := by
  obtain ⟨stored, hstored, hcreated, hseverity⟩ := h.stored
  obtain ⟨stored', hstored', hcreated', hseverity'⟩ := hgrow.events _ stored hstored
  exact ⟨⟨stored', hstored', hcreated'.trans hcreated, hseverity'.trans hseverity⟩,
    h.reached.imp_right fun hreached => hreached.grow hgrow⟩

theorem Ready.grow {moment moment' : Int} (h : Ready settings s id k moment) (hgrow : TimelyGrows s t)
    (hmoment : moment ≤ moment') : Ready settings t id k moment' := by
  obtain ⟨e, he, hready⟩ := h
  obtain ⟨e', he', hcreated, hseverity⟩ := hgrow.events id e he
  have hstages : e'.stages settings = e.stages settings := by
    unfold BreachEvent.stages
    rw [hseverity]
  refine ⟨e', he', fun hk => ?_⟩
  rw [hstages] at hk
  obtain ⟨hdue, hreached⟩ := hready hk
  rw [due_congr hcreated hseverity]
  exact ⟨le_trans hdue hmoment, hreached.grow hgrow⟩

theorem OnSchedule.grow {log : List Dispatch} (h : OnSchedule settings s.events log)
    (hgrow : TimelyGrows s t) : OnSchedule settings t.events log := by
  induction log with
  | nil => trivial
  | cons d earlier ih =>
    obtain ⟨⟨e, he, hdue, hreached⟩, hearlier⟩ := h
    obtain ⟨e', he', hcreated, hseverity⟩ := hgrow.events _ e he
    exact ⟨⟨e', he', by rw [due_congr hcreated hseverity]; exact hdue, hreached⟩, ih hearlier⟩

/-! ## Commands -/

/-- Events, dispatches and tasks stay, and time may pass. -/
theorem timing_same (hs : Timely settings s) (hevents : t.events = s.events) (hlog : t.log = s.log)
    (hnow : s.now ≤ t.now) (htasks : ∀ task ∈ t.tasks, task ∈ s.tasks) :
    (timing settings).Guarantee i s t := by
  have hgrow : TimelyGrows s t := by
    refine ⟨?_, hnow, ?_⟩
    · rw [hevents]
      exact fun id e he => ⟨e, he, rfl, rfl⟩
    · rw [hlog]
      exact fun _ _ h => h
  refine ⟨⟨?_, fun id e he => ?_, fun task htask => ?_, ?_⟩, hgrow, fun _ _ => trivial⟩
  · rw [hevents]
    exact hs.keyed
  · rw [hevents] at he
    exact (hs.known id e he).grow hgrow
  · exact (hs.tasks task (htasks task htask)).grow hgrow (le_refl _)
  · rw [hlog]
    exact hs.log.grow hgrow

/-- A known event is written. -/
theorem timing_put (hs : Timely settings s) (hknown : Known s e) (ht : t.events = (s.put e).events)
    (hlog : t.log = s.log) (hnow : t.now = s.now) (htasks : t.tasks = s.tasks) :
    (timing settings).Guarantee i s t := by
  have hsome : t.events e.eventId = some e := by
    rw [ht]
    exact Function.update_self ..
  have hsame : ∀ id, id ≠ e.eventId → t.events id = s.events id := by
    intro id hid
    rw [ht]
    exact Function.update_of_ne hid _ _
  have hgrow : TimelyGrows s t := by
    refine ⟨fun id e' he' => ?_, le_of_eq hnow.symm, fun id k hk => by rw [hlog]; exact hk⟩
    by_cases hid : id = e.eventId
    · subst hid
      obtain ⟨stored, hstored, hcreated, hseverity⟩ := hknown.stored
      obtain rfl := Option.some.inj (hstored.symm.trans he')
      exact ⟨e, hsome, hcreated.symm, hseverity.symm⟩
    · exact ⟨e', (hsame id hid).trans he', rfl, rfl⟩
  refine ⟨⟨fun id e' he' => ?_, fun id e' he' => ?_, fun task htask => ?_, ?_⟩, hgrow, fun _ _ => trivial⟩
  · by_cases hid : id = e.eventId
    · subst hid
      rw [Option.some.inj (hsome.symm.trans he')]
    · exact hs.keyed id e' ((hsame id hid).symm.trans he')
  · by_cases hid : id = e.eventId
    · subst hid
      obtain rfl := Option.some.inj (hsome.symm.trans he')
      exact hknown.grow hgrow
    · exact (hs.known id e' ((hsame id hid).symm.trans he')).grow hgrow
  · rw [htasks] at htask
    exact (hs.tasks task htask).grow hgrow (le_refl _)
  · rw [hlog]
    exact hs.log.grow hgrow

/-- A new event is written. -/
theorem timing_create (hs : Timely settings s) (hnone : s.events e.eventId = none)
    (hstage : e.escalationStage = 0) : (timing settings).Guarantee i s (s.put e) := by
  have hsome : (s.put e).events e.eventId = some e := Function.update_self ..
  have hsame : ∀ id, id ≠ e.eventId → (s.put e).events id = s.events id :=
    fun id hid => Function.update_of_ne hid _ _
  have hgrow : TimelyGrows s (s.put e) := by
    refine ⟨fun id e' he' => ?_, le_refl _, fun _ _ h => h⟩
    have hid : id ≠ e.eventId := by
      rintro rfl
      rw [hnone] at he'
      cases he'
    exact ⟨e', (hsame id hid).trans he', rfl, rfl⟩
  refine ⟨⟨fun id e' he' => ?_, fun id e' he' => ?_, fun task htask => ?_, hs.log.grow hgrow⟩, hgrow,
    fun _ _ => trivial⟩
  · by_cases hid : id = e.eventId
    · subst hid
      rw [Option.some.inj (hsome.symm.trans he')]
    · exact hs.keyed id e' ((hsame id hid).symm.trans he')
  · by_cases hid : id = e.eventId
    · subst hid
      obtain rfl := Option.some.inj (hsome.symm.trans he')
      exact ⟨⟨e, hsome, rfl, rfl⟩, .inl hstage⟩
    · exact (hs.known id e' ((hsame id hid).symm.trans he')).grow hgrow
  · exact (hs.tasks task htask).grow hgrow (le_refl _)

/-- A task is sent for a stage that is ready by then. -/
theorem timing_send (hs : Timely settings s) {eta : Int} (hready : Ready settings s id k eta) :
    (timing settings).Guarantee i s { s with tasks := ⟨id, k, eta⟩ :: s.tasks } := by
  have hgrow : TimelyGrows s { s with tasks := ⟨id, k, eta⟩ :: s.tasks } :=
    ⟨fun _ e he => ⟨e, he, rfl, rfl⟩, le_refl _, fun _ _ h => h⟩
  refine ⟨⟨hs.keyed, fun id e he => (hs.known id e he).grow hgrow, fun task htask => ?_,
    hs.log.grow hgrow⟩, hgrow, fun _ _ => trivial⟩
  rcases List.mem_cons.1 htask with rfl | htask
  · exact hready.grow hgrow (le_refl _)
  · exact (hs.tasks task htask).grow hgrow (le_refl _)

/-- A stage is dispatched that is ready. -/
theorem timing_dispatch (hs : Timely settings s) (hready : Ready settings s id k s.now)
    (he : s.events id = some e) (hk : k < (e.stages settings).length) (done late : Bool) :
    (timing settings).Guarantee i s { s with log := ⟨id, k, s.now, done, late⟩ :: s.log } := by
  have hgrow : TimelyGrows s { s with log := ⟨id, k, s.now, done, late⟩ :: s.log } := by
    refine ⟨fun _ e he => ⟨e, he, rfl, rfl⟩, le_refl _, fun id' k' hk' => ?_⟩
    obtain ⟨d, hd, hcompleted⟩ := hk'
    exact ⟨d, List.mem_cons_of_mem _ hd, hcompleted⟩
  refine ⟨⟨hs.keyed, fun id e he => (hs.known id e he).grow hgrow, fun task htask =>
    (hs.tasks task htask).grow hgrow (le_refl _), ⟨⟨e, he, ?_⟩, hs.log⟩⟩, hgrow, fun _ _ => trivial⟩
  obtain ⟨e', he', hready⟩ := hready
  obtain rfl := Option.some.inj (he.symm.trans he')
  exact hready hk

/-! ## Programs -/

variable [DecidableEq ι] {α β : Type}

/-- A program of one of the callers. -/
def Times (settings : Settings) (i : ι) (p : IncidentM ι α) (s : Store ι) : Prop :=
  Safe (timing settings) Exec (Due settings) i (fun _ _ => True) p.run s

theorem times_pure {a : α} : Times settings i (pure a) s := safe_pure trivial

theorem Times.then {p : IncidentM ι α} {f : α → IncidentM ι β} (hp : Times settings i p s)
    (hf : ∀ a s, Times settings i (f a) s) : Times settings i (p >>= f) s :=
  safe_bind hp (fun _ _ _ => trivial) fun a s _ => hf a s

/-- A command that leaves events and dispatches as they are, and sends no task. -/
theorem times_same {c : Command ι} {f : Reply c → IncidentM ι β}
    {M : Except IncidentError β → Store ι → Prop}
    (hsame : ∀ s₁ r s₂, Exec c s₁ r s₂ → s₂.events = s₁.events ∧ s₂.log = s₁.log ∧ s₁.now ≤ s₂.now ∧
      ∀ task ∈ s₂.tasks, task ∈ s₁.tasks)
    (hf : ∀ r s₁ s₂, Timely settings s₁ → TimelyGrows s s₁ → TimelyGrows s₁ s₂ → Exec c s₁ r s₂ →
      Safe (timing settings) Exec (Due settings) i M (f r).run s₂) :
    Safe (timing settings) Exec (Due settings) i M (command c >>= f).run s := by
  refine safe_send_bind fun s₁ hinv hgrow _ r s₂ _ hexec => ?_
  obtain ⟨hevents, hlog, hnow, htasks⟩ := hsame s₁ r s₂ hexec
  have hguarantee : (timing settings).Guarantee i s₁ s₂ := timing_same hinv hevents hlog hnow htasks
  exact ⟨hguarantee, hf r s₁ s₂ hinv hgrow hguarantee.grow hexec⟩

theorem times_get {f : Option BreachEvent → IncidentM ι β} {M : Except IncidentError β → Store ι → Prop}
    (hf : ∀ s', TimelyGrows s s' → (∀ e, s'.events id = some e → Known s' e ∧ e.eventId = id) →
      Safe (timing settings) Exec (Due settings) i M (f (s'.events id)).run s') :
    Safe (timing settings) Exec (Due settings) i M (get i id >>= f).run s := by
  refine times_same (c := .get i id) ?_ ?_
  · intro s₁ r s₂ hexec
    cases hexec with
    | get => exact ⟨rfl, rfl, le_refl _, fun _ h => h⟩
  · intro r s₁ s₂ hinv hgrow hgrow' hexec
    cases hexec with
    | get =>
      refine hf _ (hgrow.trans hgrow') fun e he => ?_
      exact ⟨(hinv.known id e he).grow hgrow', hinv.keyed id e he⟩

theorem times_clock {f : Int → IncidentM ι β} {M : Except IncidentError β → Store ι → Prop}
    (hf : ∀ now s', TimelyGrows s s' →
      Safe (timing settings) Exec (Due settings) i M (f now).run s') :
    Safe (timing settings) Exec (Due settings) i M ((command .clock : IncidentM ι Int) >>= f).run s := by
  refine times_same (c := .clock) ?_ ?_
  · intro s₁ now s₂ hexec
    cases hexec with
    | clock _ hnow => exact ⟨rfl, rfl, hnow, fun _ h => h⟩
  · intro now s₁ s₂ _ hgrow hgrow' _
    exact hf now s₂ (hgrow.trans hgrow')

/-- `update_escalation_stage`, after the stage was dispatched. -/
theorem updateEscalationStage_spec (hreached : Reached s.log id (k + 1)) :
    Safe (timing settings) Exec (Due settings) i (fun _ s' => TimelyGrows s s')
      (updateEscalationStage i id k).run s := by
  refine times_get fun s₁ hgrow₁ hread => ?_
  cases he : s₁.events id with
  | none => exact safe_pure hgrow₁
  | some e =>
    obtain ⟨hknown, rfl⟩ := hread e he
    refine safe_send_bind fun s₂ hinv₂ hgrow₂ _ _ s₃ _ hexec => ?_
    cases hexec with
    | setStage =>
      have hwritten : Known s₂ { e with escalationStage := k } :=
        ⟨(hknown.grow hgrow₂).stored, .inr ((hreached.grow hgrow₁).grow hgrow₂)⟩
      have hput : (timing settings).Guarantee i s₂ (s₂.put { e with escalationStage := k }) :=
        timing_put hinv₂ hwritten rfl rfl rfl rfl
      exact ⟨hput, safe_pure (hgrow₁.trans (TimelyGrows.trans hgrow₂ hput.grow))⟩

theorem times_dispatchStage (hkeyed : e.eventId = id) (hstored : Known s e)
    (hready : Ready settings s id k s.now) :
    Times settings i (dispatchStage i (e.stages settings) e id k) s := by
  subst hkeyed
  unfold dispatchStage
  cases hstage : (e.stages settings)[k]? with
  | none => exact times_pure
  | some stage =>
    have hk : k < (e.stages settings).length := (List.getElem?_eq_some_iff.1 hstage).1
    refine safe_send_bind fun s₁ hinv₁ hgrow₁ _ done s₂ _ hexec => ?_
    have hready₁ : Ready settings s₁ e.eventId k s₁.now := hready.grow hgrow₁ hgrow₁.now
    obtain ⟨stored, he₁, hcreated, hseverity⟩ := (hstored.grow hgrow₁).stored
    have hstages : stored.stages settings = e.stages settings := by
      unfold BreachEvent.stages
      rw [hseverity]
    cases hexec with
    | dispatchChannels =>
      have hdispatch := timing_dispatch (i := i) hinv₁ hready₁ he₁ (by rw [hstages]; exact hk) done
        (s₁.late i)
      refine ⟨hdispatch, ?_⟩
      cases done with
      | false => exact safe_throw trivial
      | true =>
        obtain ⟨e', he', hboth⟩ := hready₁
        obtain rfl := Option.some.inj (he₁.symm.trans he')
        obtain ⟨hdue, hbelow⟩ := hboth (by rw [hstages]; exact hk)
        rw [due_congr hcreated hseverity] at hdue
        have hreached : Reached (⟨e.eventId, k, s₁.now, true, s₁.late i⟩ :: s₁.log) e.eventId (k + 1) := by
          intro j hj
          by_cases hjk : j = k
          · subst hjk
            exact ⟨_, List.mem_cons_self .., rfl, rfl, rfl⟩
          · obtain ⟨d, hd, hcompleted⟩ := hbelow j (by omega)
            exact ⟨d, List.mem_cons_of_mem _ hd, hcompleted⟩
        refine safe_bind (updateEscalationStage_spec hreached) (fun _ _ _ => trivial) fun _ s₃ hgrow₃ => ?_
        cases hnext : (e.stages settings)[k + 1]? with
        | none => exact times_pure
        | some nextStage =>
          refine safe_send_bind fun s₄ hinv₄ hgrow₄ _ _ s₅ _ hexec => ?_
          cases hexec with
          | applyAsync =>
            have hlater := TimelyGrows.trans hgrow₃ hgrow₄
            obtain ⟨e₄, he₄, hcreated₄, hseverity₄⟩ := hlater.events _ stored he₁
            refine ⟨timing_send hinv₄ ⟨e₄, he₄, fun _ => ⟨?_, hreached.grow hlater⟩⟩, times_pure⟩
            rw [due_congr (hcreated₄.trans hcreated) (hseverity₄.trans hseverity), due_succ hnext]
            have hnow : s₁.now ≤ s₄.now := hlater.now
            omega

theorem times_processStage (hready : Ready settings s id k s.now) :
    Times settings i (processStage i settings id k) s := by
  refine times_get fun s₁ hgrow₁ hread => ?_
  cases he : s₁.events id with
  | none => exact times_pure
  | some e =>
    obtain ⟨hknown, hkeyed⟩ := hread e he
    show Times settings i (if e.ackStatus ≠ .pending then _ else _) s₁
    split_ifs with hpending
    · exact times_pure
    · exact times_dispatchStage hkeyed hknown (hready.grow hgrow₁ hgrow₁.now)

theorem times_acknowledge (officer : String) : Times settings i (acknowledge i id officer) s := by
  refine times_get fun s₁ _ hread => ?_
  cases he : s₁.events id with
  | none => exact times_pure
  | some e =>
    obtain ⟨hknown, _⟩ := hread e he
    refine times_clock fun now s₂ hgrow₂ => ?_
    refine safe_send_bind fun s₃ hinv₃ hgrow₃ _ _ s₄ _ hexec => ?_
    have hknown₃ := (hknown.grow hgrow₂).grow hgrow₃
    cases hexec with
    | acknowledge =>
      have hwritten : Known s₃ { e with
          ackStatus := .acknowledged
          acknowledgedBy := some officer
          acknowledgedAt := some now } := ⟨hknown₃.stored, hknown₃.reached⟩
      refine ⟨timing_put hinv₃ hwritten rfl rfl rfl rfl, ?_⟩
      refine times_same (c := .zrem id) ?_ fun _ _ _ _ _ _ _ => times_pure
      intro s₅ _ s₆ hexec
      cases hexec with
      | zrem => exact ⟨rfl, rfl, le_refl _, fun _ h => h⟩

theorem times_raiseBreachEvent (event : BreachEvent) : Times settings i (raiseBreachEvent event) s := by
  have hsave : Safe (timing settings) Exec (Due settings) i
      (fun _ s' => Ready settings s' event.eventId 0 s'.now) (save event).run s := by
    refine safe_send_bind fun s₁ hinv₁ _ _ _ s₂ hok hexec => ?_
    cases hexec with
    | create _ hnone =>
      have hcreate := timing_create (i := i) hinv₁ hnone hok.1
      have hready : Ready settings (s₁.put event) event.eventId 0 (s₁.put event).now := by
        refine ⟨event, Function.update_self .., fun _ => ⟨?_, fun j hj => absurd hj (Nat.not_lt_zero j)⟩⟩
        rw [due_zero]
        exact hok.2
      refine ⟨hcreate, ?_⟩
      show Safe _ _ _ _ _ (ExceptT.run (if _ then _ else _)) _
      split_ifs with hpending
      · refine times_same (c := .zadd event.eventId event.createdAt) ?_ ?_
        · intro s₃ _ s₄ hexec
          cases hexec with
          | zadd => exact ⟨rfl, rfl, le_refl _, fun _ h => h⟩
        · intro _ s₃ s₄ _ hgrow hgrow' _
          exact safe_pure (hready.grow (hgrow.trans hgrow') (hgrow.trans hgrow').now)
      · exact safe_pure hready
  refine safe_bind hsave (fun _ _ _ => trivial) fun _ s₁ hready => ?_
  split_ifs with hrequires
  · refine safe_send_bind fun s₂ hinv₂ hgrow₂ _ _ s₃ _ hexec => ?_
    cases hexec with
    | applyAsync =>
      refine ⟨timing_send hinv₂ (hready.grow hgrow₂ ?_), times_pure⟩
      have hnow : s₁.now ≤ s₂.now := TimelyGrows.now hgrow₂
      omega
  · exact times_pure

/-! ## Sweeps -/

theorem mapM_get_spec (ids : List String) :
    Safe (timing settings) Exec (Due settings) i
      (fun a s' => TimelyGrows s s' ∧ ∀ events, a = .ok events → ∀ e, some e ∈ events → Known s' e)
      (ids.mapM (get i)).run s := by
  induction ids generalizing s with
  | nil =>
    refine safe_pure ⟨.refl s, fun events hevents e hmem => ?_⟩
    obtain rfl := Except.ok.inj hevents
    cases hmem
  | cons id ids ih =>
    rw [List.mapM_cons]
    refine times_get fun s₁ hgrow₁ hread => ?_
    refine safe_bind (ih (s := s₁)) (fun e s₂ h₂ => ⟨hgrow₁.trans h₂.1, ?_⟩) fun events s₂ h₂ => ?_
    · intro _ h
      cases h
    · refine safe_pure ⟨hgrow₁.trans h₂.1, fun _ h e hmem => ?_⟩
      obtain rfl := Except.ok.inj h
      rcases List.mem_cons.1 hmem with he | hmem
      · exact (hread e he.symm).1.grow h₂.1
      · exact h₂.2 events rfl e hmem

theorem listPendingAck_spec (olderThanSeconds : Int) :
    Safe (timing settings) Exec (Due settings) i
      (fun a s' => ∀ events, a = .ok events → ∀ e ∈ events, Known s' e)
      (listPendingAck i olderThanSeconds).run s := by
  refine times_clock fun now s₁ _ => ?_
  refine times_same (c := .zrangebyscore _) ?_ ?_
  · intro s₂ ids s₃ hexec
    cases hexec with
    | zrangebyscore => exact ⟨rfl, rfl, le_refl _, fun _ h => h⟩
  · intro ids s₂ s₃ _ _ _ _
    refine safe_bind (mapM_get_spec ids) (fun _ _ _ _ h => by cases h) fun events s₄ h₄ => ?_
    refine safe_pure fun _ h e hmem => ?_
    obtain rfl := Except.ok.inj h
    obtain ⟨found, hfound, heq⟩ := List.mem_filterMap.1 (List.mem_filter.1 hmem).1
    exact h₄.2 events rfl e (by rw [← heq]; exact hfound)

/-- What a sweep sends is ready. -/
theorem times_sweepDelay (hknown : Known s e) :
    Safe (timing settings) Exec (Due settings) i (fun _ s' => TimelyGrows s s')
      (do let _ ← command (.sweepDelay e); return () : IncidentM ι Unit).run s := by
  refine safe_send_bind fun s₁ hinv₁ hgrow₁ _ _ s₂ hok hexec => ?_
  have hknown₁ := hknown.grow hgrow₁
  obtain ⟨stored, hstored, hcreated, hseverity⟩ := hknown₁.stored
  have hstages : stored.stages settings = e.stages settings := by
    unfold BreachEvent.stages
    rw [hseverity]
  cases hexec with
  | sweepDelay =>
    have hready : Ready settings s₁ e.eventId (e.escalationStage + 1) s₁.now := by
      refine ⟨stored, hstored, fun hk => ?_⟩
      rw [hstages] at hk
      obtain ⟨hdue, hzero⟩ := hok hk
      rw [due_congr hcreated hseverity]
      refine ⟨hdue, fun j hj => ?_⟩
      rcases hknown₁.reached with hstage | hreached
      · obtain rfl : j = 0 := by omega
        exact hzero hstage
      · exact hreached j hj
    have hsend := timing_send (i := i) hinv₁ hready
    exact ⟨hsend, safe_pure (TimelyGrows.trans hgrow₁ hsend.grow)⟩

theorem times_sweep : Times settings i (sweep i settings) s := by
  have hsends : ∀ (events : List BreachEvent) (s : Store ι), (∀ e ∈ events, Known s e) →
      Times settings i (events.forM fun event => do
        let _ ← command (.sweepDelay event)
        return ()) s := by
    intro events
    induction events with
    | nil => exact fun s _ => times_pure
    | cons event events ih =>
      intro s hknown
      refine safe_bind (times_sweepDelay (hknown event (List.mem_cons_self ..))) (fun _ _ _ => trivial)
        fun _ s₁ hgrow₁ => ih s₁ fun e he => ?_
      exact (hknown e (List.mem_cons_of_mem _ he)).grow hgrow₁
  exact safe_bind (listPendingAck_spec _) (fun _ _ _ => trivial) fun events s₁ h₁ =>
    hsends events s₁ (h₁ events rfl)

theorem times_program (call : Call) :
    Safe (timing settings) Exec (Due settings) i (fun _ _ => True) (call.program settings i) s := by
  have hquietly : ∀ {α : Type} {p : IncidentM ι α}, Times settings i p s →
      Safe (timing settings) Exec (Due settings) i (fun _ _ => True) (quietly p) s :=
    fun hp => hp.then fun _ _ => times_pure
  cases call with
  | raiseBreachEvent event => exact hquietly (times_raiseBreachEvent event)
  | acknowledge id officer => exact hquietly (times_acknowledge officer)
  | processEscalationStageTask =>
    refine hquietly (times_same (c := .receive) ?_ ?_)
    · intro s₁ task s₂ hexec
      cases hexec with
      | receive _ rest _ _ hrest =>
        refine ⟨rfl, rfl, le_refl _, fun task' htask' => ?_⟩
        rcases hrest with rfl | rfl
        · exact htask'
        · exact List.mem_of_mem_erase htask'
    · intro (task : StageTask) s₁ s₂ hinv _ hgrow' hexec
      cases hexec with
      | receive _ rest htask heta _ =>
        exact times_processStage ((hinv.tasks task htask).grow hgrow' heta)
  | sweep => exact hquietly times_sweep
  | wait => exact times_clock fun _ _ _ => times_pure

/-! ## Runs -/

theorem on_schedule (settings : Settings) (now : Int) {S : RunState ι}
    (h : IncidentRun settings (Due settings) (start ι now) S) :
    OnSchedule settings S.store.events S.store.log := by
  have hbegins : ∀ (i : ι) p s, Begins settings i p → (timing settings).done i s →
      Safe (timing settings) Exec (Due settings) i (fun _ => (timing settings).done i) p s := by
    rintro i p s ⟨call, rfl⟩ _
    exact times_program call
  have hstart : Global (timing settings) Exec (Due settings) (start ι now) := by
    refine ⟨⟨fun id e he => ?_, fun id e he => ?_, fun task htask => ?_, trivial⟩, fun i => trivial⟩
    · cases he
    · cases he
    · cases htask
  exact (safe_serving hstart hbegins (fun _ _ _ => trivial) h).1.inv.log

end

/-! ## Samples -/

/-- Stage 0, and stage 1 after its five minutes. -/
theorem on_schedule_chain : ∃ S : RunState Unit,
    IncidentRun sampleSettings (Due sampleSettings) (start Unit 0) S ∧
      S.store.log.map Dispatch.stageIndex = [1, 0] ∧
        OnSchedule sampleSettings S.store.events S.store.log := by
  have hraise : IncidentRun sampleSettings (Due sampleSettings) (start Unit 0) _ :=
    serves_of_advances (i := ()) rfl ⟨.raiseBreachEvent sampleEvent, rfl⟩
      (.cmd ⟨⟨rfl, by decide⟩, .create sampleEvent rfl⟩ (.cmd ⟨trivial, .zadd "b1" 0⟩
        (.cmd ⟨trivial, .applyAsync "b1" 0 0⟩ .refl)))
  have hzero := hraise.trans (serves_of_advances (i := ()) rfl ⟨.processEscalationStageTask, rfl⟩
    (.cmd ⟨trivial, .receive ⟨"b1", 0, 0⟩ [] (by decide) (by decide) (.inr (by decide))⟩
      (.cmd ⟨trivial, .get () "b1"⟩
        (.cmd ⟨trivial, .dispatchChannels () sampleEvent ⟨0, 0, ["slack", "email"]⟩ 0 true⟩
          (.cmd ⟨trivial, .get () "b1"⟩ (.cmd ⟨trivial, .setStage sampleEvent sampleEvent⟩
            (.cmd ⟨trivial, .applyAsync "b1" 1 300⟩ .refl)))))))
  have hwait := hzero.trans (serves_of_advances (i := ()) rfl ⟨.wait, rfl⟩
    (.cmd ⟨trivial, .clock 300000000 (by decide)⟩ .refl))
  have hone := hwait.trans (serves_of_advances (i := ()) rfl ⟨.processEscalationStageTask, rfl⟩
    (.cmd ⟨trivial, .receive ⟨"b1", 1, 300000000⟩ [] (by decide) (by decide) (.inr (by decide))⟩
      (.cmd ⟨trivial, .get () "b1"⟩
        (.cmd ⟨trivial, .dispatchChannels () sampleEvent ⟨1, 300, ["sms"]⟩ 1 true⟩ .refl))))
  exact ⟨_, hone, rfl, on_schedule sampleSettings 0 hone⟩

theorem mem_sampleOverdue (id : String) : id ∈ ["b1"] ↔
    ∃ score, Function.update (fun _ : String => (none : Option Int)) "b1" (some 0) id = some score ∧
      score ≤ 0 := by
  by_cases hid : id = "b1"
  · subst hid
    simp
  · simp [hid]

/-- The task of stage 0 is late, and a sweep sends stage 1. -/
theorem not_forall_on_schedule :
    ¬ ∀ S : RunState Unit, IncidentRun sampleSettings (fun _ _ => True) (start Unit 0) S →
      OnSchedule sampleSettings S.store.events S.store.log := by
  intro h
  have hraise : IncidentRun sampleSettings (fun _ _ => True) (start Unit 0) _ :=
    serves_of_advances (i := ()) rfl ⟨.raiseBreachEvent sampleEvent, rfl⟩
      (.cmd ⟨trivial, .create sampleEvent rfl⟩ (.cmd ⟨trivial, .zadd "b1" 0⟩
        (.cmd ⟨trivial, .applyAsync "b1" 0 0⟩ .refl)))
  have hsweep := hraise.trans (serves_of_advances (i := ()) rfl ⟨.sweep, rfl⟩
    (.cmd ⟨trivial, .clock 300000000 (by decide)⟩
      (.cmd ⟨trivial, .zrangebyscore 0 ["b1"] mem_sampleOverdue⟩
        (.cmd ⟨trivial, .get () "b1"⟩ (.cmd ⟨trivial, .sweepDelay sampleEvent⟩ .refl)))))
  have hstage := hsweep.trans (serves_of_advances (i := ()) rfl ⟨.processEscalationStageTask, rfl⟩
    (.cmd ⟨trivial, .receive ⟨"b1", 1, 300000000⟩ _ (by decide) (by decide) (.inl rfl)⟩
      (.cmd ⟨trivial, .get () "b1"⟩
        (.cmd ⟨trivial, .dispatchChannels () sampleEvent ⟨1, 300, ["sms"]⟩ 1 true⟩ .refl))))
  obtain ⟨⟨_, _, _, hreached⟩, _⟩ := h _ hstage
  obtain ⟨d, hd, _⟩ := hreached 0 (by decide)
  cases hd

end RegEngine.Incident
