import Mathlib.Data.List.Chain
import RegEngine.Hitl.Reaper
import RegEngine.Hitl.Proof.Flags

/-!
# A review is decided once

Both checks of a call read the copy of its first load, so the row lock alone does not order the calls.

* `review_decided_once`: in every interleaving in which no call takes its last look at a review that
  another one has decided since its load, one call succeeds and the row stays as it wrote it.
* `decided_twice`: two calls that have both loaded the pending review succeed one after the other.
-/

namespace RegEngine.Hitl

open Lib Lib.CheckedCopy

section
variable {ι : Type} {calls : ι → SessionCall}

theorem written_status (c : SessionCall) (copy : HITLReview) :
    (c.written copy).status = c.call.verdict.status := by
  unfold SessionCall.written
  split
  · rename_i h
    rw [h]
    dsimp only
    split <;> rfl
  · rename_i h
    rw [h]
    rfl
  · rename_i h
    rw [h]
    rfl

/-- A call that writes a pending copy leaves the row decided. -/
theorem flush_status {i : ι} {stored copy : HITLReview} (h : copy.status = .pending) :
    ((reviewSessions calls).write i stored copy).status = (calls i).call.verdict.status := by
  have hclosed := (calls i).call.verdict.status_closed.1
  show flushColumn stored.status copy.status ((calls i).written copy).status = _
  rw [flushColumn, written_status, h, if_neg hclosed]

end

/-- The stored status is the one of the copy. -/
def SameStatus (stored copy : HITLReview) : Prop := stored.status = copy.status

/-- **One call succeeds, and the row stays as it wrote it**, in every interleaving in which the stored
status is still that of the copy when a call locks the rule (for a review without a rule, when it
commits). -/
theorem review_decided_once {ι : Type} [DecidableEq ι] (calls : ι → SessionCall) (review : HITLReview)
    (s : State ι (Nat × Nat) Nat HITLReview)
    (h : Reachable (reviewSessions calls) SameStatus review s) :
    (∀ i j, s.phase i = .committed → s.phase j = .committed → i = j) ∧
    ∀ i, s.phase i = .committed → ∀ s', Relation.ReflTransGen (Step (reviewSessions calls) SameStatus)
      s s' → s'.stored = s.stored := by
  have hwrite : ∀ (i : ι) (stored copy : HITLReview), (reviewSessions calls).Ready copy →
      ¬ (reviewSessions calls).Ready ((reviewSessions calls).write i stored copy) := by
    intro i stored copy hready
    show ¬ ((reviewSessions calls).write i stored copy).status = .pending
    rw [flush_status hready]
    exact (calls i).call.verdict.status_closed.1
  have hfresh : ∀ stored copy, SameStatus stored copy → (reviewSessions calls).Ready copy →
      (reviewSessions calls).Ready stored := fun _ _ hsame hready => hsame.trans hready
  exact ⟨fun i j => committed_once hwrite hfresh h,
    fun i hi s' hrun => stored_of_committed hwrite hfresh h hi hrun⟩

/-! ## Two calls -/

def sampleRule : CompiledRule where
  clauseId := 1
  tenantId := "sebi_baseline"
  ruleId := "aa:1"
  regoPolicy := none
  opaPackageName := none
  jsonlogicAst := none
  isCompiled := true
  isActive := false
  hitlStatus := .advisory

/-- The first call approves the review and the second one rejects it, both in one process. -/
def twoCalls (second : Bool) : SessionCall where
  call := sampleCall (if second then .reject else .approve) "v1"
  process := 1
  rule := sampleRule

def sampleReview : HITLReview where
  reviewId := "v1"
  clauseId := 1
  compiledRuleId := some 1
  tenantId := "sebi_baseline"
  reasonCode := .ambiguousSpan
  severity := .advisory
  description := "needs a second look"
  sourceExcerpt := none
  fieldPath := none

/-- A call that has loaded the pending review, and that nobody interrupts. -/
theorem call_alone (Fresh : HITLReview → HITLReview → Prop) (i : Bool)
    {s : State Bool (Nat × Nat) Nat HITLReview} (hphase : s.phase i = .loaded sampleReview)
    (hscope : s.scope (1, 1) = none) (hlock : s.lock 1 = none) (hfresh : Fresh s.stored sampleReview) :
    ∃ s', Relation.ReflTransGen (Step (reviewSessions twoCalls) Fresh) s s' ∧
      s'.stored.status = (twoCalls i).call.verdict.status ∧
      s'.phase = Function.update s.phase i .committed ∧ s'.scope (1, 1) = none ∧ s'.lock 1 = none := by
  have hscopes : ∀ m, (reviewSessions twoCalls).scope i sampleReview = some m → s.scope m = none := by
    intro m hm
    cases hm
    exact hscope
  have hlocks : ∀ k, (reviewSessions twoCalls).row sampleReview = some k → s.lock k = none := by
    intro k hk
    cases hk
    exact hlock
  obtain ⟨s', hrun, hstored, hcommitted, hscope', hlock'⟩ :=
    alone_reachable hphase rfl hscopes hlocks hfresh
  exact ⟨s', hrun, by rw [hstored, flush_status rfl], hcommitted, hscope' _ hscope, hlock' _ hlock⟩

/-- The approval is over before the rejection begins, which is then refused. -/
theorem second_call_refused : ∃ s, Reachable (reviewSessions twoCalls) SameStatus sampleReview s ∧
    s.phase false = .committed ∧ s.phase true = .raised ∧ s.stored.status = .resolved ∧
    ∀ s', Relation.ReflTransGen (Step (reviewSessions twoCalls) SameStatus) s s' →
      s'.stored = s.stored := by
  have hload : Step (reviewSessions twoCalls) SameStatus (.initial sampleReview) _ := .load false rfl
  obtain ⟨s, hrun, hstored, hphase, -⟩ := call_alone SameStatus false
    (s := (State.initial sampleReview).enter false (.loaded sampleReview)) rfl rfl rfl rfl
  have hidle : s.phase true = .idle := by rw [hphase]; rfl
  have hreload : Step (reviewSessions twoCalls) SameStatus s _ := .load true hidle
  have hraise : Step (reviewSessions twoCalls) SameStatus (s.enter true (.loaded s.stored)) _ :=
    .raise true (by simp [State.enter, Phase.running])
  have hreach := ((Relation.ReflTransGen.head hload hrun).tail hreload).tail hraise
  refine ⟨_, hreach, ?_, ?_, hstored, ?_⟩
  · simp [State.enter, State.release, hphase]
  · simp [State.enter]
  · refine (review_decided_once twoCalls sampleReview _ hreach).2 false ?_
    simp [State.enter, State.release, hphase]

/-- **Both calls load the pending review**: the second one waits for the lock, checks its old copy and
overwrites the first decision. -/
theorem decided_twice : ∃ s s', Reachable (reviewSessions twoCalls) (fun _ _ => True) sampleReview s ∧
    s.phase false = .committed ∧ s.stored.status = .resolved ∧
    Relation.ReflTransGen (Step (reviewSessions twoCalls) fun _ _ => True) s s' ∧
    s'.phase false = .committed ∧ s'.phase true = .committed ∧ s'.stored.status = .rejected := by
  have hload : Step (reviewSessions twoCalls) (fun _ _ => True) (.initial sampleReview) _ :=
    .load false rfl
  have hload' : Step (reviewSessions twoCalls) (fun _ _ => True)
      ((State.initial sampleReview).enter false (.loaded sampleReview)) _ := .load true rfl
  obtain ⟨s, hrun, hstored, hphase, hscope, hlock⟩ := call_alone (fun _ _ => True) false
    (s := ((State.initial sampleReview).enter false (.loaded sampleReview)).enter true
      (.loaded sampleReview)) rfl rfl rfl trivial
  have hwaiting : s.phase true = .loaded sampleReview := by rw [hphase]; rfl
  obtain ⟨s', hrun', hstored', hphase', -⟩ := call_alone (fun _ _ => True) true hwaiting hscope hlock
    trivial
  refine ⟨s, s', .head hload (.head hload' hrun), ?_, hstored, hrun', ?_, ?_, hstored'⟩
  · simp [hphase]
  · simp [hphase', hphase]
  · simp [hphase']

end RegEngine.Hitl

/-!
## What a sweep may overwrite

The sweep writes the rows that it selected without another look at them, and a processing session goes
on from its own copy after the sweep.

* `step_safe`: what one statement keeps (`Safe`).
* `sweep_keeps_progress`: in every interleaving in which no selected victim moves before the write, and
  every session moves its circular from the stored state, the victims are stale when they are written,
  and the history of each circular is a connected path.
* `progress_destroyed`: a circular that reaches `AWAITING_HITL` after the select is set to `FAILED`.
-/

namespace RegEngine.Hitl

open Lib

/-! ### Histories -/

/-- The entries of a circular. -/
def entriesOf (history : List CircularStateTransition) (k : Nat) : List CircularStateTransition :=
  history.filter fun e => e.circularId = k

/-- Each entry starts in the state in which the one before it ended. -/
def Connected (history : List CircularStateTransition) (k : Nat) : Prop :=
  (entriesOf history k).IsChain fun a b => b.fromState = a.toState

/-- The history of every circular is connected and ends in the stored state. -/
structure Traced (rows : Table CircularRow) (history : List CircularStateTransition) : Prop where
  connected : ∀ k, Connected history k
  ends : ∀ k e, (entriesOf history k).getLast? = some e →
    (rows.get? k).map (·.processingState) = some e.toState

section
variable {rows rows' : Table CircularRow} {history added : List CircularStateTransition}

theorem entriesOf_append (history added : List CircularStateTransition) (k : Nat) :
    entriesOf (history ++ added) k = entriesOf history k ++ entriesOf added k :=
  List.filter_append ..

theorem entriesOf_transitionEntry (k j : Nat) (copy : CircularRow) (toState : ProcessingState)
    (errorMessage : Option String) (details : Json) :
    entriesOf [transitionEntry k copy toState errorMessage details] j =
      if k = j then [transitionEntry k copy toState errorMessage details] else [] := by
  simp [entriesOf, List.filter_cons, transitionEntry]

/-- A circular without a new entry keeps its state. -/
theorem Traced.append (h : Traced rows history)
    (hold : ∀ k, entriesOf added k = [] →
      (rows'.get? k).map (·.processingState) = (rows.get? k).map (·.processingState))
    (hnew : ∀ k, entriesOf added k ≠ [] → ∃ e, entriesOf added k = [e] ∧
      (rows.get? k).map (·.processingState) = some e.fromState ∧
      (rows'.get? k).map (·.processingState) = some e.toState) : Traced rows' (history ++ added) where
  connected k := by
    rw [Connected, entriesOf_append]
    by_cases hk : entriesOf added k = []
    · rw [hk, List.append_nil]
      exact h.connected k
    · obtain ⟨e, he, hfrom, -⟩ := hnew k hk
      rw [he]
      refine List.isChain_append.2 ⟨h.connected k, .singleton e, fun x hx y hy => ?_⟩
      obtain rfl : e = y := by simpa using hy
      exact Option.some.inj (hfrom.symm.trans (h.ends k x hx))
  ends k e hlast := by
    rw [entriesOf_append] at hlast
    by_cases hk : entriesOf added k = []
    · rw [hk, List.append_nil] at hlast
      rw [hold k hk]
      exact h.ends k e hlast
    · obtain ⟨e', he', -, hto⟩ := hnew k hk
      rw [he', List.getLast?_concat, Option.some.injEq] at hlast
      rw [hto, hlast]

end

/-! ### Victims -/

theorem nodup_staleCirculars (rows : Table CircularRow) (cutoff : Int) :
    ((staleCirculars rows cutoff).map (·.1)).Nodup := by
  rw [staleCirculars, List.map_map]
  exact rows.nodup.sublist (List.filter_sublist.map _)

theorem mem_staleCirculars {rows : Table CircularRow} {cutoff : Int} {v : Nat × ProcessingState}
    (h : v ∈ staleCirculars rows cutoff) :
    ∃ row, rows.get? v.1 = some row ∧ row.processingState = v.2 ∧ row.stale cutoff = true := by
  obtain ⟨r, hr, rfl⟩ := List.mem_map.1 h
  obtain ⟨hget, hstale⟩ := Table.mem_select.1 hr
  exact ⟨r.2, hget, rfl, hstale⟩

/-- The entries of a sweep: one for each victim. -/
theorem entriesOf_swept (k : Nat) : ∀ {victims : List (Nat × ProcessingState)},
    (victims.map (·.1)).Nodup →
    (k ∉ victims.map (·.1) ∧ entriesOf (victims.map sweptEntry) k = []) ∨
    ∃ v ∈ victims, v.1 = k ∧ entriesOf (victims.map sweptEntry) k = [sweptEntry v]
  | [], _ => .inl ⟨by simp, rfl⟩
  | v :: vs, h => by
    obtain ⟨hv, hvs⟩ := List.nodup_cons.1 h
    have hcons : entriesOf ((v :: vs).map sweptEntry) k =
        if v.1 = k then sweptEntry v :: entriesOf (vs.map sweptEntry) k
        else entriesOf (vs.map sweptEntry) k := by
      simp [entriesOf, List.filter_cons, sweptEntry]
    rcases entriesOf_swept k hvs with ⟨hk, hnil⟩ | ⟨w, hw, hwk, hone⟩
    · by_cases hvk : v.1 = k
      · exact .inr ⟨v, List.mem_cons_self, hvk, by rw [hcons, if_pos hvk, hnil]⟩
      · refine .inl ⟨?_, by rw [hcons, if_neg hvk, hnil]⟩
        simpa [Ne.symm hvk] using hk
    · have hvk : v.1 ≠ k := by
        rintro rfl
        exact hv (List.mem_map.2 ⟨w, hw, hwk⟩)
      exact .inr ⟨w, List.mem_cons_of_mem _ hw, hwk, by rw [hcons, if_neg hvk, hone]⟩

/-! ### One statement -/

section
variable {ι : Type}

/-- The victims of the sweep, between its select and its commit. -/
def Sweep.victims : Sweep → Option (Int × List (Nat × ProcessingState))
  | selected cutoff victims | written cutoff victims => some (cutoff, victims)
  | idle | done => none

/-- Every victim is stored as it was selected. -/
structure Safe (s : ReaperState ι) : Prop where
  victims : ∀ cutoff victims, s.sweep.victims = some (cutoff, victims) →
    (victims.map (·.1)).Nodup ∧ ∀ v ∈ victims, ∃ row, s.rows.get? v.1 = some row ∧
      row.processingState = v.2 ∧ row.stale cutoff = true
  traced : Traced s.rows s.history

/-- A transition from the stored state, of a circular that is no selected victim. -/
structure MovesStored (s : ReaperState ι) (k : Nat) (copy : CircularRow) : Prop where
  stored : (s.rows.get? k).map (·.processingState) = some copy.processingState
  unselected : ∀ cutoff victims, s.sweep = .selected cutoff victims → k ∉ victims.map (·.1)

theorem flush_processingState {stored copy written : CircularRow} (now : Int)
    (h : stored.processingState = copy.processingState) :
    (stored.flush copy written now).processingState = written.processingState := by
  simp only [CircularRow.flush, flushColumn]
  split
  · rename_i hsame
    rw [hsame, h]
  · rfl

theorem flush_of_not_differs {stored copy written : CircularRow} (now : Int)
    (h : ¬ written.differs copy) : stored.flush copy written now = stored := by
  obtain ⟨hstate, herror⟩ := not_or.1 h
  rw [not_not] at hstate herror
  simp only [CircularRow.flush, flushColumn, hstate, herror, if_true, if_neg h]

variable {s s' : ReaperState ι} {staleAfter : Int}

theorem commit_safe {now cutoff : Int} {victims : List (Nat × ProcessingState)} (h : Safe s)
    (hsweep : s.sweep = .written cutoff victims) :
    Safe { s with
      rows := s.rows.modify fun k row => if k ∈ victims.map (·.1) then row.swept now else row
      history := s.history ++ victims.map sweptEntry
      sweep := .done } := by
  obtain ⟨hnodup, hvictims⟩ := h.victims cutoff victims (by rw [hsweep]; rfl)
  refine ⟨fun _ _ hdone => (by cases hdone), ?_⟩
  refine h.traced.append (fun k hk => ?_) fun k hk => ?_
  · rcases entriesOf_swept k hnodup with ⟨hnot, -⟩ | ⟨v, hv, hvk, hone⟩
    · simp only [Table.get?_modify, if_neg hnot, Option.map_id']
    · rw [hone] at hk
      cases hk
  · rcases entriesOf_swept k hnodup with ⟨-, hnil⟩ | ⟨v, hv, rfl, hone⟩
    · exact absurd hnil hk
    · obtain ⟨row, hrow, hstate, -⟩ := hvictims v hv
      have hmem : v.1 ∈ victims.map (·.1) := List.mem_map_of_mem hv
      refine ⟨sweptEntry v, hone, ?_, ?_⟩
      · rw [hrow, Option.map_some, hstate]
        rfl
      · simp only [Table.get?_modify, if_pos hmem, hrow, Option.map_some]
        rfl

variable [DecidableEq ι]

theorem transition_safe {i : ι} {k : Nat} {copy : CircularRow} {toState : ProcessingState}
    {errorMessage : Option String} {details : Json} {now : Int} (h : Safe s)
    (hlocked : s.locked k → ¬ (copy.moved toState errorMessage).differs copy)
    (hok : MovesStored s k copy) :
    Safe (s.transition i k copy toState errorMessage details now) := by
  obtain ⟨row, hrow, hstate⟩ := Option.map_eq_some_iff.1 hok.stored
  constructor
  · intro cutoff victims hsweep
    obtain ⟨hnodup, hvictims⟩ := h.victims cutoff victims hsweep
    refine ⟨hnodup, fun v hv => ?_⟩
    obtain ⟨row', hrow', hstate', hstale⟩ := hvictims v hv
    refine ⟨row', ?_, hstate', hstale⟩
    show (s.rows.update k _).get? v.1 = some row'
    rw [Table.get?_update]
    split
    · rename_i hvk
      have hmem : k ∈ victims.map (·.1) := List.mem_map.2 ⟨v, hv, hvk⟩
      -- the row of a selected victim is not touched, and that of a written one is locked
      cases hphase : s.sweep with
      | idle | done =>
        rw [ReaperState.transition, hphase] at hsweep
        cases hsweep
      | selected cutoff' victims' =>
        rw [ReaperState.transition, hphase] at hsweep
        cases hsweep
        exact absurd hmem (hok.unselected cutoff victims hphase)
      | written cutoff' victims' =>
        rw [ReaperState.transition, hphase] at hsweep
        cases hsweep
        rw [hrow', Option.map_some, flush_of_not_differs now (hlocked ⟨cutoff, victims, hphase, hmem⟩)]
    · exact hrow'
  · refine h.traced.append (fun j hj => ?_) fun j hj => ?_
    · have hne : j ≠ k := by
        rintro rfl
        rw [entriesOf_transitionEntry, if_pos rfl] at hj
        cases hj
      show ((s.rows.update k _).get? j).map _ = _
      rw [Table.get?_update, if_neg hne]
    · have hkj : k = j := by
        by_contra hne
        rw [entriesOf_transitionEntry, if_neg hne] at hj
        exact hj rfl
      subst hkj
      refine ⟨_, by rw [entriesOf_transitionEntry, if_pos rfl], hok.stored, ?_⟩
      show ((s.rows.update k _).get? k).map _ = _
      rw [Table.get?_update_self _ hrow, Option.map_some, flush_processingState now hstate]
      rfl

/-- **What one statement keeps.** -/
theorem step_safe (h : Safe s) (hstep : ReaperStep staleAfter MovesStored s s') : Safe s' := by
  cases hstep with
  | select now hidle =>
    refine ⟨fun cutoff victims hsweep => ?_, h.traced⟩
    cases hsweep
    exact ⟨nodup_staleCirculars s.rows _, fun v hv => mem_staleCirculars hv⟩
  | write hselected =>
    refine ⟨fun cutoff victims hsweep => ?_, h.traced⟩
    cases hsweep
    exact h.victims _ _ (by rw [hselected]; rfl)
  | commit now hwritten => exact commit_safe h hwritten
  | rollback => exact ⟨fun _ _ hsweep => (by cases hsweep), h.traced⟩
  | load i hrow => exact ⟨h.victims, h.traced⟩
  | transition i toState errorMessage details now hsession hlocked hok =>
    exact transition_safe h hlocked hok

/-- No sweep and no session has begun. -/
def ReaperState.initial (ι : Type) (rows : Table CircularRow)
    (history : List CircularStateTransition) : ReaperState ι :=
  ⟨rows, history, .idle, fun _ => none⟩

end

/-- **A sweep destroys no progress** in an interleaving whose transitions all start from the stored
state and move no victim between the select and the write: every victim that is written is in
`EXTRACTING` or `COMPILING` and stale, and every history is a connected path. -/
theorem sweep_keeps_progress {ι : Type} [DecidableEq ι] (staleAfter : Int) (rows : Table CircularRow)
    (history : List CircularStateTransition) (htraced : Traced rows history) (s : ReaperState ι)
    (h : Relation.ReflTransGen (ReaperStep staleAfter MovesStored)
      (ReaperState.initial ι rows history) s) :
    (∀ cutoff victims, s.sweep = .written cutoff victims → ∀ v ∈ victims,
      ∃ row, s.rows.get? v.1 = some row ∧ row.processingState ∈ staleStates ∧
        row.updatedAt < cutoff) ∧
    ∀ k, Connected s.history k := by
  have hsafe : Safe s := by
    induction h with
    | refl => exact ⟨fun _ _ hsweep => (by cases hsweep), htraced⟩
    | tail _ hstep ih => exact step_safe ih hstep
  refine ⟨fun cutoff victims hsweep v hv => ?_, hsafe.traced.connected⟩
  obtain ⟨row, hrow, -, hstale⟩ := (hsafe.victims cutoff victims (by rw [hsweep]; rfl)).2 v hv
  exact ⟨row, hrow, of_decide_eq_true hstale⟩

/-! ### One circular -/

/-- A circular that is compiling since time 0. -/
def compilingRows : Table CircularRow :=
  Table.empty.insert ⟨.compiling, none, 0⟩

/-- The entry with which it began to compile. -/
def compilingHistory : List CircularStateTransition :=
  [transitionEntry 1 ⟨.extracted, none, 0⟩ .compiling none .null]

theorem traced_compiling : Traced compilingRows compilingHistory where
  connected k := by
    rw [Connected, compilingHistory, entriesOf_transitionEntry]
    split
    · exact .singleton _
    · exact .nil
  ends k e hlast := by
    rw [compilingHistory, entriesOf_transitionEntry] at hlast
    split at hlast
    · rename_i hk
      subst hk
      cases hlast
      rfl
    · cases hlast

/-- Nobody works on it any more when the sweep finds it. -/
theorem stale_circular_swept : ∃ s : ReaperState Unit,
    Relation.ReflTransGen (ReaperStep 50 MovesStored)
      (ReaperState.initial Unit compilingRows compilingHistory) s ∧
    s.sweep = .written 50 [(1, .compiling)] ∧
    (∃ row, s.rows.get? 1 = some row ∧ row.processingState ∈ staleStates ∧ row.updatedAt < 50) ∧
    ∀ k, Connected s.history k := by
  have hselect : ReaperStep 50 MovesStored (ReaperState.initial Unit compilingRows compilingHistory)
      { ReaperState.initial Unit compilingRows compilingHistory with
        sweep := .selected 50 [(1, .compiling)] } := .select 100 rfl
  have hwrite : ReaperStep 50 MovesStored
      { ReaperState.initial Unit compilingRows compilingHistory with
        sweep := .selected 50 [(1, .compiling)] }
      { ReaperState.initial Unit compilingRows compilingHistory with
        sweep := .written 50 [(1, .compiling)] } := .write rfl
  have hrun := (Relation.ReflTransGen.single hselect).tail hwrite
  obtain ⟨hvictims, hconnected⟩ :=
    sweep_keeps_progress 50 compilingRows compilingHistory traced_compiling _ hrun
  exact ⟨_, hrun, rfl, hvictims 50 _ rfl (1, .compiling) List.mem_cons_self, hconnected⟩

/-- **The circular goes on to `AWAITING_HITL` after the select**: the sweep sets it to `FAILED` all the
same, and records that it was compiling. -/
theorem progress_destroyed : ∃ s s' : ReaperState Unit,
    Relation.ReflTransGen (ReaperStep 50 fun _ _ _ => True)
      (ReaperState.initial Unit compilingRows compilingHistory) s ∧
    s.sweep = .written 50 [(1, .compiling)] ∧
    (s.rows.get? 1).map (·.processingState) = some .awaitingHitl ∧
    ReaperStep 50 (fun _ _ _ => True) s s' ∧
    (s'.rows.get? 1).map (·.processingState) = some .failed ∧ ¬ Connected s'.history 1 := by
  have hload : ReaperStep 50 (fun _ _ _ => True)
      (ReaperState.initial Unit compilingRows compilingHistory) _ :=
    .load () (show compilingRows.get? 1 = some ⟨.compiling, none, 0⟩ from rfl)
  have hselect : ReaperStep 50 (fun _ _ _ => True)
      ((ReaperState.initial Unit compilingRows compilingHistory).load () 1 ⟨.compiling, none, 0⟩)
      { (ReaperState.initial Unit compilingRows compilingHistory).load () 1 ⟨.compiling, none, 0⟩ with
        sweep := .selected 50 [(1, .compiling)] } := .select 100 rfl
  have hmove : ReaperStep 50 (fun _ _ _ => True)
      { (ReaperState.initial Unit compilingRows compilingHistory).load () 1 ⟨.compiling, none, 0⟩ with
        sweep := .selected 50 [(1, .compiling)] } _ :=
    .transition () .awaitingHitl none .null 101 rfl
      (by
        rintro ⟨cutoff, victims, hsweep, -⟩
        cases hsweep) trivial
  have hwrite : ReaperStep 50 (fun _ _ _ => True)
      ({ (ReaperState.initial Unit compilingRows compilingHistory).load () 1
          ⟨.compiling, none, 0⟩ with sweep := .selected 50 [(1, .compiling)] }.transition () 1
        ⟨.compiling, none, 0⟩ .awaitingHitl none .null 101) _ := .write rfl
  refine ⟨_, _, (((Relation.ReflTransGen.single hload).tail hselect).tail hmove).tail hwrite, rfl, rfl,
    .commit 102 rfl, rfl, ?_⟩
  intro hconnected
  have hlast := (List.isChain_cons_cons.1 (List.isChain_cons_cons.1 hconnected).2).1
  cases hlast

end RegEngine.Hitl
