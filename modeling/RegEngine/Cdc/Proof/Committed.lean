import RegEngine.Cdc.Consumer
import Mathlib.Logic.Relation
import Mathlib.Tactic.SplitIfs

/-!
# Committed messages are accounted for

The counters always add up. While one of the two dead-letter sinks accepts each failed record (`SinkAccepts`),
every message below a committed offset was evaluated, dead-lettered or a delete event
(`committed_accounted`).
-/

namespace RegEngine.Cdc

variable {Payload : Type} {python : Python Payload}

/-- The API evaluated it, a sink accepted it, or it was a delete event. -/
def Outcome.Accounted : Outcome → Prop
  | .ignoredDelete | .evaluated => True
  | .deadLettered answered record =>
    answered = true ∨ record.published = true ∨ record.alerted = true

/-- Some dead-letter sink accepts what is sent to it. -/
def SinkAccepts (config : Config) (answers : Answers) : Prop :=
  (config.hasProducer = true ∧ answers.published = true) ∨ answers.alert.accepted = true

/-! ## One message -/

/-- Exactly one of the counts goes up with `processed_count`. -/
theorem processSingleMessage_counts (python : Python Payload) (config : Config) (c : Counters) (m : Message) (a : Answers) :
    (processSingleMessage python config c m a).1.processedCount = c.processedCount + 1 ∧
      (processSingleMessage python config c m a).1.evaluatedCount +
          (processSingleMessage python config c m a).1.dlqCount +
          (if (processSingleMessage python config c m a).2 = .ignoredDelete then 1 else 0) =
        c.evaluatedCount + c.dlqCount + 1 := by
  unfold processSingleMessage
  cases parseRecord python m.value with
  | none => exact ⟨rfl, by simp; omega⟩
  | some rawJson =>
    cases hnormalized : normalizeEvent python rawJson with
    | error e => exact ⟨by simp [hnormalized], by simp [hnormalized]; omega⟩
    | ok payload =>
      cases payload with
      | none => exact ⟨by simp [hnormalized], by simp [hnormalized]⟩
      | some payload =>
        cases hsent : sendForEvaluation config a with
        | mk success answered =>
          cases success with
          | true => exact ⟨by simp [hnormalized], by simp [hnormalized]; omega⟩
          | false => exact ⟨by simp [hnormalized], by simp [hnormalized]; omega⟩

theorem handleFailedRecord_accepted {config : Config} {a : Answers} (h : SinkAccepts config a)
    (topic : String) (partition offset : Nat) (context : String) :
    (handleFailedRecord config a topic partition offset context).published = true ∨
      (handleFailedRecord config a topic partition offset context).alerted = true := by
  rcases h with ⟨hproducer, hpublished⟩ | halert
  · exact .inl (by simp [handleFailedRecord, hproducer, hpublished])
  · exact .inr halert

theorem processSingleMessage_accounted (python : Python Payload) {config : Config} {a : Answers} (h : SinkAccepts config a)
    (c : Counters) (m : Message) : (processSingleMessage python config c m a).2.Accounted := by
  unfold processSingleMessage
  cases parseRecord python m.value with
  | none => exact .inr (handleFailedRecord_accepted h ..)
  | some rawJson =>
    cases hnormalized : normalizeEvent python rawJson with
    | error e =>
      simp only [hnormalized]
      exact .inr (handleFailedRecord_accepted h ..)
    | ok payload =>
      cases payload with
      | none => simp [hnormalized, Outcome.Accounted]
      | some payload =>
        cases hsent : sendForEvaluation config a with
        | mk success answered =>
          cases success with
          | true => simp [hnormalized, Outcome.Accounted]
          | false =>
            simp only [hnormalized]
            exact .inr (handleFailedRecord_accepted h ..)

/-! ## Runs -/

section
variable {log : Partition → Nat → Option RawValue} {Ok : Config → Answers → Prop} {s s' : State}

/-- `processed_count = evaluated_count + dlq_count + ignored deletes`. -/
def Balanced (s : State) : Prop :=
  ∀ p, s.process = some p →
    p.counters.processedCount = p.counters.evaluatedCount + p.counters.dlqCount + p.ignored

theorem Balanced.step (h : Balanced s) (hstep : Step python log Ok s s') : Balanced s' := by
  intro p' hp'
  cases hstep with
  | start config =>
    obtain rfl := Option.some.inj hp'
    rfl
  | @getmany p data hp _ _ =>
    obtain rfl := Option.some.inj hp'
    exact h p hp
  | @message p tp m messages next work answers hp _ _ =>
    obtain rfl := Option.some.inj hp'
    have hbalanced := h p hp
    dsimp only
    obtain ⟨hprocessed, hcounts⟩ := processSingleMessage_counts python p.config p.counters m answers
    omega
  | @commit p tp next work hp _ =>
    obtain rfl := Option.some.inj hp'
    exact h p hp
  | stop => cases hp'

/-- A message has become something that is accounted for. -/
def Settled (s : State) (tp : Partition) (offset : Nat) : Prop :=
  ∃ outcome, (tp, offset, outcome) ∈ s.history ∧ outcome.Accounted

/-- Everything below the committed offsets is settled, and below those to be committed settled or still
to be processed. -/
structure Sound (log : Partition → Nat → Option RawValue) (s : State) : Prop where
  committed : ∀ tp offset value, log tp offset = some value → offset < s.committed tp →
    Settled s tp offset
  work : ∀ p, s.process = some p → ∀ item ∈ p.work, ∀ offset value,
    log item.1 offset = some value → offset < item.2.2 →
      Settled s item.1 offset ∨ ∃ m ∈ item.2.1, m.offset = offset

theorem Sound.step (h : Sound log s) (hstep : Step python log SinkAccepts s s') : Sound log s' := by
  cases hstep with
  | start config => exact ⟨h.committed, fun p hp item hitem => by
      obtain rfl := Option.some.inj hp
      cases hitem⟩
  | getmany data hp hwork hfetched =>
    refine ⟨h.committed, fun p' hp' item hitem offset value hvalue hoffset => ?_⟩
    obtain rfl := Option.some.inj hp'
    obtain ⟨last, hfetch, hnext⟩ := hfetched item hitem
    by_cases hposition : offset < s.committed item.1
    · exact .inl (h.committed _ offset value hvalue hposition)
    · exact .inr (hfetch.complete offset value hvalue (by omega) (by omega))
  | @message p tp m messages next work answers hp hwork hok =>
    have hsettled := processSingleMessage_accounted python hok p.counters m
    generalize (processSingleMessage python p.config p.counters m answers).2 = outcome at hsettled ⊢
    have hkeeps : ∀ tp' offset, Settled s tp' offset →
        ∃ outcome', (tp', offset, outcome') ∈ (tp, m.offset, outcome) :: s.history ∧
          outcome'.Accounted := by
      rintro tp' offset ⟨outcome', hmem, haccounted⟩
      exact ⟨outcome', List.mem_cons_of_mem _ hmem, haccounted⟩
    refine ⟨fun tp' offset value hvalue hoffset => hkeeps tp' offset (h.committed _ _ value hvalue hoffset),
      fun p' hp' item hitem offset value hvalue hoffset => ?_⟩
    obtain rfl := Option.some.inj hp'
    rcases List.mem_cons.1 hitem with rfl | hitem
    · have hbefore := h.work p hp (tp, m :: messages, next) (by rw [hwork]; exact List.mem_cons_self ..)
        offset value hvalue hoffset
      rcases hbefore with hsettled' | ⟨m', hm', hoffset'⟩
      · exact .inl (hkeeps tp offset hsettled')
      · rcases List.mem_cons.1 hm' with rfl | hm'
        · subst hoffset'
          exact .inl ⟨outcome, List.mem_cons_self .., hsettled⟩
        · exact .inr ⟨m', hm', hoffset'⟩
    · have hbefore := h.work p hp item (by rw [hwork]; exact List.mem_cons_of_mem _ hitem)
        offset value hvalue hoffset
      exact hbefore.imp_left (hkeeps item.1 offset)
  | @commit p tp next work hp hwork =>
    refine ⟨fun tp' offset value hvalue hoffset => ?_, fun p' hp' item hitem => ?_⟩
    · dsimp only at hoffset
      by_cases htp : tp' = tp
      · subst htp
        rw [Function.update_self] at hoffset
        have hbefore := h.work p hp (tp', [], next) (by rw [hwork]; exact List.mem_cons_self ..)
          offset value hvalue hoffset
        rcases hbefore with hsettled | ⟨m, hm, _⟩
        · exact hsettled
        · cases hm
      · rw [Function.update_of_ne htp] at hoffset
        exact h.committed tp' offset value hvalue hoffset
    · obtain rfl := Option.some.inj hp'
      exact h.work p hp item (by rw [hwork]; exact List.mem_cons_of_mem _ hitem)
  | stop => exact ⟨h.committed, fun p hp => by cases hp⟩

/-- Nothing was committed, and nothing runs. -/
def start : State := ⟨fun _ => 0, none, []⟩

/-- Every run in which the requests get the answers that `Ok` allows. -/
def ConsumerRun (python : Python Payload) (log : Partition → Nat → Option RawValue)
    (Ok : Config → Answers → Prop) : State → State → Prop :=
  Relation.ReflTransGen (Step python log Ok)

/-- Nothing below a committed offset is lost, and the counters add up. -/
def NothingLost (log : Partition → Nat → Option RawValue) (s : State) : Prop :=
  (∀ tp offset value, log tp offset = some value → offset < s.committed tp → Settled s tp offset) ∧
    Balanced s

theorem committed_accounted (python : Python Payload) (log : Partition → Nat → Option RawValue) {s : State}
    (h : ConsumerRun python log SinkAccepts start s) : NothingLost log s := by
  have hboth : Sound log s ∧ Balanced s := by
    induction h with
    | refl =>
      refine ⟨⟨fun tp offset value _ hoffset => ?_, fun p hp => ?_⟩, fun p hp => ?_⟩
      · cases hoffset
      · cases hp
      · cases hp
    | tail _ hstep ih => exact ⟨ih.1.step hstep, ih.2.step hstep⟩
  exact ⟨hboth.1.committed, hboth.2⟩

end

/-! ## Samples -/

def samplePython : Python Unit where
  decode _ := none
  loads _ := none
  upper text := text
  normalizeTradeTransaction _ _ := .ok ()
  normalizeClientCollateral _ _ := .ok ()
  normalizeGenericRow _ _ := .ok ()

def sampleTopic : Partition := ("debezium.legacy.dbo.TBL_TRADE_TRANSACTIONS", 0)

/-- One record, of bytes that are no UTF-8. -/
def sampleLog (tp : Partition) (offset : Nat) : Option RawValue :=
  if tp = sampleTopic ∧ offset = 0 then some (.bytes [255]) else none

def sampleMessage : Message := ⟨sampleTopic.1, sampleTopic.2, 0, .bytes [255]⟩

theorem fetched_sample : Fetched sampleLog 0 sampleTopic [sampleMessage] sampleMessage := by
  refine ⟨rfl, fun m hm => ?_, fun offset value hvalue _ hoffset => ?_⟩
  · rw [List.mem_singleton.1 hm]
    exact ⟨rfl, rfl⟩
  · have hzero : offset ≤ 0 := hoffset
    exact ⟨sampleMessage, List.mem_singleton.2 rfl, (Nat.le_zero.1 hzero).symm⟩

/-- The record is fetched, processed and committed. -/
theorem run_sample (Ok : Config → Answers → Prop) (config : Config) (answers : Answers)
    (hdryRun : config.dryRun = false) (hok : Ok config answers) :
    ∃ s, ConsumerRun samplePython sampleLog Ok start s ∧ s.committed sampleTopic = 1 ∧
      s.history = [(sampleTopic, 0, .deadLettered false (handleFailedRecord config answers
        sampleTopic.1 sampleTopic.2 0 "corrupted_json_parsing"))] := by
  have hstart : ConsumerRun samplePython sampleLog Ok start _ := .single (.start config rfl hdryRun)
  have hfetch := hstart.tail (.getmany [(sampleTopic, [sampleMessage], 1)] rfl rfl fun item hitem => by
    rw [List.mem_singleton.1 hitem]
    exact ⟨sampleMessage, fetched_sample, rfl⟩)
  have hmessage := hfetch.tail (.message answers rfl rfl hok)
  have hcommit := hmessage.tail (.commit rfl rfl)
  exact ⟨_, hcommit, rfl, rfl⟩

/-- The DLQ topic takes the record. -/
theorem committed_accounted_published : ∃ s, ConsumerRun samplePython sampleLog SinkAccepts start s ∧
    s.committed sampleTopic = 1 ∧ NothingLost sampleLog s := by
  obtain ⟨s, hrun, hcommitted, _⟩ := run_sample SinkAccepts ⟨3, false, true⟩
    ⟨fun _ => .raised, true, .raised⟩ rfl (.inl ⟨rfl, rfl⟩)
  exact ⟨s, hrun, hcommitted, committed_accounted samplePython sampleLog hrun⟩

/-- Neither sink takes the record. -/
theorem not_forall_committed_accounted :
    ¬ ∀ s, ConsumerRun samplePython sampleLog (fun _ _ => True) start s → NothingLost sampleLog s := by
  intro h
  obtain ⟨s, hrun, hcommitted, hhistory⟩ := run_sample (fun _ _ => True)
    ⟨3, false, true⟩ ⟨fun _ => .raised, false, .status 405⟩ rfl trivial
  obtain ⟨outcome, hmem, haccounted⟩ := (h s hrun).1 sampleTopic 0 (.bytes [255]) rfl
    (by rw [hcommitted]; exact Nat.zero_lt_one)
  rw [hhistory, List.mem_singleton] at hmem
  cases hmem
  rcases haccounted with hanswered | hpublished | halerted
  · cases hanswered
  · cases hpublished
  · cases halerted

end RegEngine.Cdc
