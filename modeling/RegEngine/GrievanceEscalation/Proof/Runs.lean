import RegEngine.GrievanceEscalation.Proof.FiledOnce

/-!
# Runs of the grievance queue

The callers `ι` begin drafts, confirmations, sweeps, tasks and polls when they are at rest, and their
commands interleave. Orderly runs file a grievance once, after its confirmation, and never reopen it
(`grievance_filed_once`).
-/

namespace RegEngine.GrievanceEscalation

open Lib Lib.Programs Lib.RelyGuarantee

section
variable {ι : Type} {i : ι} {id : String} {s t : Store ι} {α β : Type}

/-! ## Confirmations -/

theorem safe_confirmForSubmission (h : Holds i none s.claims) :
    SafeCall i (confirmForSubmission id) s := by
  refine safe_require (fun e s₁ _ hrely₁ => holds_rely h hrely₁) fun r s₁ hinv₁ hgrow₁ hrely₁ hr => ?_
  have hfree₁ := holds_rely h hrely₁
  split_ifs with hdrafted
  · exact safe_raise hfree₁
  simp only [ne_eq, not_not] at hdrafted
  refine safe_send_bind fun s₂ hinv₂ hgrow₂ hrely₂ _ s₃ hok hexec => ?_
  have hread := hinv₁.stored id r hr
  obtain ⟨stored, hstored, hfollows⟩ := hgrow₂ id r hr
  obtain rfl := hread.keyed
  have hdraft : stored.status = .drafted := hok stored hstored
  have hnow := hinv₂.stored _ stored hstored
  have hclaims : s₂.claims r.grievanceId = none := hnow.claimed.2 (by rw [hdraft]; simp)
  have hunfiled : ∀ r : GrievanceRecord, r.status = .drafted →
      (Filed r → r.status = .submitted ∨ r.status.closed = true) → ¬ Filed r := by
    intro r hdraft hstatus hfiled
    rw [hdraft] at hstatus
    rcases hstatus hfiled with hstatus | hstatus <;> cases hstatus
  cases hexec.1 with
  | confirm =>
    refine ⟨guarantee_put hinv₂ (fun _ => hnow.untried (.inl hdraft))
      (fun hfiled => absurd hfiled (hunfiled r hdrafted hread.filed)) (by simp) (fun r' hr' => ?_)
      (fun j _ => by simp [hclaims]) (fun j _ => by simp), ?_⟩
    · obtain rfl := Option.some.inj (hstored.symm.trans hr')
      refine ⟨fun hclosed => ?_, fun hfiled => absurd hfiled (hunfiled stored hdraft hnow.filed)⟩
      rw [hdraft] at hclosed
      cases hclosed
    · have hfree₃ : Holds i none (s₂.put { r with status := .pendingSubmission } none).claims := by
        rw [holds_none_iff]
        intro id'
        show Function.update s₂.claims r.grievanceId none id' ≠ some i
        by_cases hid : id' = r.grievanceId
        · subst hid
          simp
        · rw [Function.update_of_ne hid]
          exact holds_none_iff.1 (holds_rely hfree₁ hrely₂) id'
      exact safe_sadd fun s₄ _ hrely₄ => safe_return (holds_rely hfree₃ hrely₄)

theorem safe_dispatch {task : Task} {f : Unit → GrievanceM ι β}
    (hf : ∀ s', Relies i s s' → SafeCall i (f ()) s') :
    SafeCall i (command (.dispatch task) >>= f) s := by
  refine safe_same (c := .dispatch task) ?_ ?_
  · intro s₁ _ s₂ hexec
    cases hexec with
    | dispatch => exact ⟨rfl, rfl, rfl⟩
  · intro _ s₁ s₂ _ hrely _
    exact hf s₂ hrely

theorem safe_triggerGrievance (auto : Bool) (record : GrievanceRecord) (h : Holds i none s.claims) :
    SafeCall i (triggerGrievance auto record) s := by
  have hdraft : SafeCall i (createDraft record) s := by
    refine safe_send_bind fun s₁ hinv₁ _ hrely₁ _ s₂ hok hexec => ?_
    have hfree₁ := holds_rely h hrely₁
    cases hexec.1 with
    | create _ hnone =>
      obtain ⟨haccepted, hclaims⟩ := hinv₁.absent _ hnone
      have hunfiled : ¬ Filed record := fun hfiled => hfiled hok.2
      refine ⟨guarantee_put hinv₁ (fun _ => haccepted) (fun hfiled => absurd hfiled hunfiled)
        (by simp [hok.1]) (fun r hr => ?_) (fun j _ => by simp [hclaims]) fun j _ => by simp,
        safe_return ?_⟩
      · rw [hnone] at hr
        cases hr
      · have hsame : (s₁.put record none).claims = s₁.claims := by
          show Function.update s₁.claims record.grievanceId none = s₁.claims
          rw [← hclaims, Function.update_eq_self]
        rw [hsame]
        exact hfree₁
  refine hdraft.then fun record s₁ hfree₁ => ?_
  split_ifs with hauto
  · refine (safe_confirmForSubmission hfree₁).then fun record s₂ hfree₂ => ?_
    exact safe_dispatch fun s₃ hrely₃ => safe_return (holds_rely hfree₂ hrely₃)
  · exact safe_return hfree₁

/-! ## Polls -/

theorem polled_status (r : GrievanceRecord) (response : GrievanceStatusResponse) (a b : Int) :
    ((polled r response a b).status = r.status ∨ (polled r response a b).status.closed = true) ∧
      (polled r response a b).grievanceId = r.grievanceId ∧
        (polled r response a b).scoresReferenceNumber = r.scoresReferenceNumber := by
  unfold polled
  cases response.status with
  | resolved => exact ⟨.inr rfl, rfl, rfl⟩
  | rejected => exact ⟨.inr rfl, rfl, rfl⟩
  | _ => exact ⟨.inl rfl, rfl, rfl⟩

theorem safe_updateStatus (response : GrievanceStatusResponse) (h : Holds i none s.claims)
    {filed : GrievanceRecord} (hr : s.grievances id = some filed) (hfiled : Filed filed) :
    SafeCall i (updateStatus id response) s := by
  refine safe_require (fun e s₁ _ hrely₁ => holds_rely h hrely₁) fun r s₁ hinv₁ hgrow₁ hrely₁ hread => ?_
  refine safe_clock fun polledAt s₂ hgrow₂ hrely₂ => safe_clock fun resolvedAt s₃ hgrow₃ hrely₃ => ?_
  have hfree₃ := holds_rely (holds_rely (holds_rely h hrely₁) hrely₂) hrely₃
  have hfiled₁ : Filed r := by
    obtain ⟨r', hr', hfollows⟩ := hgrow₁ id filed hr
    obtain rfl := Option.some.inj (hr'.symm.trans hread)
    exact hfollows.filed hfiled
  obtain ⟨hstatus, hid, hreference⟩ := polled_status r response polledAt resolvedAt
  generalize polled r response polledAt resolvedAt = updated at hstatus hid hreference ⊢
  have hupdated : updated.status = .submitted ∨ updated.status.closed = true := by
    rcases hstatus with hstatus | hstatus
    · rw [hstatus]
      exact (hinv₁.stored id r hread).filed hfiled₁
    · exact .inr hstatus
  have hnot : ∀ status : GrievanceStatus, status = .submitted ∨ status.closed = true →
      status ≠ .submitting ∧ ¬ (status = .drafted ∨ status = .pendingSubmission) := by
    intro status hstatus
    cases status <;> simp_all [GrievanceStatus.closed]
  refine safe_send_bind fun s₄ hinv₄ hgrow₄ hrely₄ _ s₅ hok hexec => ?_
  obtain ⟨stored, hstored, hfollows⟩ := (hgrow₂.trans (hgrow₃.trans hgrow₄)) id r hread
  obtain rfl : updated.grievanceId = id := hid.trans (hinv₁.stored id r hread).keyed
  have hnow := hinv₄.stored _ stored hstored
  have hopen := hnow.filed (hfollows.filed hfiled₁)
  have hclaims : s₄.claims updated.grievanceId = none := hnow.claimed.2 (hnot _ hopen).1
  cases hexec.1 with
  | update =>
    refine ⟨guarantee_put hinv₄ (fun h => absurd h (hnot _ hupdated).2) (fun _ => hupdated)
      (iff_of_true hclaims (hnot _ hupdated).1) (fun r' hr' => ?_) (fun j _ => by simp [hclaims])
      (fun j _ => by simp [hclaims]), ?_⟩
    · obtain rfl := Option.some.inj (hstored.symm.trans hr')
      refine ⟨hok stored hstored, fun _ => ?_⟩
      show updated.scoresReferenceNumber ≠ none
      rw [hreference]
      exact hfiled₁
    · have hfree₅ : Holds i none (s₄.put updated (s₄.claims updated.grievanceId)).claims := by
        have hsame : (s₄.put updated (s₄.claims updated.grievanceId)).claims = s₄.claims :=
          Function.update_eq_self _ _
        rw [hsame]
        exact holds_rely hfree₃ hrely₄
      show SafeCall i (if updated.status.closed = true then _ else _) _
      split_ifs with hclosed
      · exact safe_srem fun s₆ _ hrely₆ => safe_return (holds_rely hfree₅ hrely₆)
      · exact safe_return hfree₅

theorem safe_pollGrievanceStatusNow (h : Holds i none s.claims) :
    SafeCall i (pollGrievanceStatusNow id) s := by
  refine safe_get fun s₁ _ _ hrely₁ => ?_
  have hfree₁ := holds_rely h hrely₁
  cases hr : s₁.grievances id with
  | none => exact safe_return hfree₁
  | some r =>
    cases hreference : r.scoresReferenceNumber with
    | none =>
      simp only [hreference]
      exact safe_return hfree₁
    | some reference =>
      simp only [hreference]
      refine safe_same (c := .queryStatus reference) ?_ ?_
      · intro s₂ response s₃ hexec
        cases hexec with
        | queryStatus => exact ⟨rfl, rfl, rfl⟩
      · intro response s₂ s₃ hgrow₃ hrely₃ _
        have hfree₃ := holds_rely hfree₁ hrely₃
        obtain ⟨r', hr', hfollows⟩ := hgrow₃ id r hr
        have hfiled : Filed r' := hfollows.filed (by simp [Filed, hreference])
        cases response with
        | none => exact safe_return hfree₃
        | some response =>
          show SafeCall i (if _ then _ else _) s₃
          split_ifs with hsame
          · exact safe_return hfree₃
          · exact (safe_updateStatus response hfree₃ hr' hfiled).then fun _ _ hfree => safe_return hfree

/-! ## Sweeps and tasks -/

theorem safe_listFromSet (key : SetKey) (h : Holds i none s.claims) :
    SafeCall i (listFromSet key) s := by
  have hget : ∀ (ids : List String) (s : Store ι), Holds i none s.claims →
      SafeCall i (ids.mapM get) s := by
    intro ids
    induction ids with
    | nil => exact fun s h => safe_return h
    | cons id ids ih =>
      intro s h
      rw [List.mapM_cons]
      refine safe_get fun s₁ _ _ hrely₁ => ?_
      exact SafeCall.then (ih s₁ (holds_rely h hrely₁)) fun _ _ hfree => safe_return hfree
  refine safe_same (c := .smembers key) ?_ ?_
  · intro s₁ ids s₂ hexec
    cases hexec with
    | smembers => exact ⟨rfl, rfl, rfl⟩
  · intro ids s₁ s₂ _ hrely₂ _
    exact (hget ids s₂ (holds_rely h hrely₂)).then fun _ _ hfree => safe_return hfree

theorem safe_dispatches (task : GrievanceRecord → Task) {records : List GrievanceRecord} {a : α}
    (h : Holds i none s.claims) :
    SafeCall i ((records.forM fun record => do
      let _ ← command (.dispatch (task record))
      return ()) >>= fun _ => pure a) s := by
  induction records generalizing s with
  | nil => exact safe_return h
  | cons record records ih =>
    have hcons : (record :: records).forM (fun record => (do
        let _ ← command (.dispatch (task record))
        return () : GrievanceM ι Unit)) = (do
          let _ ← command (.dispatch (task record))
          return ()) >>= fun _ => records.forM fun record => do
            let _ ← command (.dispatch (task record))
            return () := rfl
    rw [hcons, bind_assoc, bind_assoc]
    exact safe_dispatch fun s₁ hrely₁ => ih (holds_rely h hrely₁)

theorem safe_runTask (h : Holds i none s.claims) : SafeCall i (runTask i) s := by
  refine safe_same (c := .receive) ?_ ?_
  · intro s₁ task s₂ hexec
    cases hexec with
    | receive => exact ⟨rfl, rfl, rfl⟩
  · intro (task : Task) s₁ s₂ _ hrely₂ _
    have hfree₂ := holds_rely h hrely₂
    cases task with
    | submit id => exact safe_submitOne hfree₂
    | poll id => exact safe_pollGrievanceStatusNow hfree₂

end

/-! ## Runs -/

inductive Call where
  | triggerGrievance (autoSubmitEnabled : Bool) (record : GrievanceRecord)
  | confirmForSubmission (grievanceId : String)
  | submitPending
  | pollPending
  | runTask
  | pollGrievanceStatusNow (grievanceId : String)

section
variable {ι : Type}

/-- A call, and what it returns forgotten. -/
def quietly {α : Type} (p : GrievanceM ι α) : Prog (Command ι) Reply (Except GrievanceError Unit) :=
  (p >>= fun _ => pure ()).run

def Call.program (i : ι) : Call → Prog (Command ι) Reply (Except GrievanceError Unit)
  | .triggerGrievance auto record => quietly (GrievanceEscalation.triggerGrievance auto record)
  | .confirmForSubmission id => quietly (GrievanceEscalation.confirmForSubmission id)
  | .submitPending => quietly GrievanceEscalation.submitPending
  | .pollPending => quietly GrievanceEscalation.pollPending
  | .runTask => quietly (GrievanceEscalation.runTask i)
  | .pollGrievanceStatusNow id => quietly (GrievanceEscalation.pollGrievanceStatusNow id)

theorem safe_program {i : ι} {s : Store ι} (call : Call) (h : Holds i none s.claims) :
    Safe grievance Answers Orderly i (fun _ s => Holds i none s.claims) (call.program i) s := by
  have hquietly : ∀ {α : Type} {p : GrievanceM ι α}, SafeCall i p s →
      Safe grievance Answers Orderly i (fun _ s => Holds i none s.claims) (quietly p) s :=
    fun hp => hp.then fun _ _ hfree => safe_return hfree
  cases call with
  | triggerGrievance auto record => exact hquietly (safe_triggerGrievance auto record h)
  | confirmForSubmission id => exact hquietly (safe_confirmForSubmission h)
  | submitPending =>
    exact hquietly ((safe_listFromSet _ h).then fun _ _ hfree => safe_dispatches _ hfree)
  | pollPending =>
    exact hquietly ((safe_listFromSet _ h).then fun _ _ hfree => safe_dispatches _ hfree)
  | runTask => exact hquietly (safe_runTask h)
  | pollGrievanceStatusNow id => exact hquietly (safe_pollGrievanceStatusNow h)

/-- A caller begins one of the calls. -/
def Begins (i : ι) (p : Prog (Command ι) Reply (Except GrievanceError Unit)) : Prop :=
  ∃ call : Call, p = call.program i

abbrev RunState (ι : Type) : Type := State (Command ι) Reply (Except GrievanceError Unit) (Store ι) ι

/-- No grievance, and every caller at rest. -/
def start (ι : Type) : RunState ι :=
  ⟨⟨fun _ => none, fun _ => [], [], fun _ => 0, fun _ => none⟩, fun _ => .ret (.ok ())⟩

variable [DecidableEq ι] {S S' : RunState ι}

/-- Every run of commands that do what `Exec'` says and meet `Ok`. -/
def GrievanceRun (Exec' : (c : Command ι) → Store ι → Reply c → Store ι → Prop)
    (Ok : Store ι → Command ι → Prop) : RunState ι → RunState ι → Prop :=
  Relation.ReflTransGen (Serves Exec' Ok Begins (fun _ _ => False) (.ok ()))

/-- Accepted at most once, not while it is DRAFTED, and what is closed stays. -/
def FiledOnce (s s' : Store ι) (id : String) : Prop :=
  s.accepted id ≤ 1 ∧ ∀ r, s.grievances id = some r →
    (r.status = .drafted → s.accepted id = 0) ∧
      (r.status.closed = true → ∃ r', s'.grievances id = some r' ∧ r'.status = r.status)

theorem grievance_filed_once (h : GrievanceRun Answers Orderly (start ι) S)
    (h' : GrievanceRun Answers Orderly S S') (id : String) : FiledOnce S.store S'.store id := by
  have hbegins : ∀ (i : ι) p s, Begins i p → grievance.done i s →
      Safe grievance Answers Orderly i (fun _ => grievance.done i) p s := by
    rintro i p s ⟨call, rfl⟩ hdone
    exact (safe_program call (holds_none_iff.2 hdone)).imp fun _ _ hfree => holds_none_iff.1 hfree
  have hstart : Global grievance Answers Orderly (start ι) := by
    refine ⟨⟨fun id r hr => ?_, fun id _ => ⟨rfl, rfl⟩, fun id => Nat.zero_le 1⟩, fun i id hmine => ?_⟩
    · cases hr
    · cases hmine
  obtain ⟨hglobal, _⟩ := safe_serving hstart hbegins (fun _ _ h => h.elim) h
  obtain ⟨_, hgrows⟩ := safe_serving hglobal hbegins (fun _ _ h => h.elim) h'
  refine ⟨hglobal.inv.accepted id, fun r hr => ⟨fun hdraft => ?_, fun hclosed => ?_⟩⟩
  · exact (hglobal.inv.stored id r hr).untried (.inl hdraft)
  · obtain ⟨r', hr', hfollows⟩ := hgrows id r hr
    exact ⟨r', hr', hfollows.closed hclosed⟩

end

/-! ## Samples -/

def sampleGrievance : GrievanceRecord where
  grievanceId := "g1"
  status := .drafted
  attemptCount := 0
  maxRetries := 5
  lastError := none
  scoresReferenceNumber := none
  scoresStatus := none
  resolutionSummary := none
  filedAt := 0
  submittedAt := none
  lastPolledAt := none
  resolvedAt := none

def confirmedGrievance : GrievanceRecord := { sampleGrievance with status := .pendingSubmission }

def claimedGrievance : GrievanceRecord :=
  { sampleGrievance with status := .submitting, attemptCount := 1 }

def submittedGrievance : GrievanceRecord :=
  { claimedGrievance with
    status := .submitted
    scoresReferenceNumber := some "SCORES/1"
    scoresStatus := some .submitted
    submittedAt := some 0 }

/-- A grievance is drafted, confirmed and submitted. -/
theorem grievance_filed_once_submitted : ∃ S : RunState Unit, GrievanceRun Answers Orderly (start Unit) S ∧
    S.store.grievances "g1" = some submittedGrievance ∧ FiledOnce S.store S.store "g1" := by
  have htrigger : GrievanceRun Answers Orderly (start Unit) _ := serves_of_advances (i := ()) rfl
    ⟨.triggerGrievance true sampleGrievance, rfl⟩
    (.cmd ⟨⟨rfl, rfl⟩, .create sampleGrievance rfl, trivial⟩
      (.cmd ⟨trivial, .get "g1", trivial⟩
        (.cmd ⟨(fun stored hstored => by rw [← Option.some.inj hstored]; rfl),
            .confirm confirmedGrievance, trivial⟩
          (.cmd ⟨trivial, .sadd .pendingSubmission "g1", trivial⟩
            (.cmd ⟨trivial, .dispatch (.submit "g1"), trivial⟩ .refl)))))
  have htask := htrigger.trans (serves_of_advances (i := ()) rfl ⟨.runTask, rfl⟩
    (.cmd ⟨trivial, .receive [] [] (.submit "g1") rfl, trivial⟩
      (.cmd ⟨trivial, .get "g1", trivial⟩
        (.cmd ⟨trivial, .get "g1", trivial⟩
          (.cmd ⟨(fun _ stored hstored => by rw [← Option.some.inj hstored]; rfl),
              .mark () claimedGrievance, trivial⟩
            (.cmd ⟨trivial, .acknowledged claimedGrievance "SCORES/1", (fun _ h => by cases h)⟩
              (.cmd ⟨trivial, .get "g1", trivial⟩
                (.cmd ⟨trivial, .clock 0, trivial⟩
                  (.cmd ⟨(fun h => by cases h), .mark () submittedGrievance, trivial⟩
                    (.cmd ⟨trivial, .srem .pendingSubmission "g1", trivial⟩
                      (.cmd ⟨trivial, .sadd .open "g1", trivial⟩ .refl)))))))))))
  exact ⟨_, htask, rfl, grievance_filed_once htask .refl "g1"⟩

/-- The grievance is dispatched when it is confirmed, and again by a sweep. -/
theorem not_forall_grievance_filed_once :
    ¬ ∀ S S' : RunState Unit, GrievanceRun Exec (fun _ _ => True) (start Unit) S →
      GrievanceRun Exec (fun _ _ => True) S S' → ∀ id, FiledOnce S.store S'.store id := by
  intro h
  have htrigger : GrievanceRun Exec (fun _ _ => True) (start Unit) _ := serves_of_advances (i := ()) rfl
    ⟨.triggerGrievance true sampleGrievance, rfl⟩
    (.cmd ⟨trivial, .create sampleGrievance rfl⟩ (.cmd ⟨trivial, .get "g1"⟩
      (.cmd ⟨trivial, .confirm confirmedGrievance⟩ (.cmd ⟨trivial, .sadd .pendingSubmission "g1"⟩
        (.cmd ⟨trivial, .dispatch (.submit "g1")⟩ .refl)))))
  have hsweep := htrigger.trans (serves_of_advances (i := ()) rfl ⟨.submitPending, rfl⟩
    (.cmd ⟨trivial, .smembers .pendingSubmission ["g1"] (.refl _)⟩ (.cmd ⟨trivial, .get "g1"⟩
      (.cmd ⟨trivial, .dispatch (.submit "g1")⟩ .refl))))
  have hfirst := hsweep.trans (serves_of_advances (i := ()) rfl ⟨.runTask, rfl⟩
    (.cmd ⟨trivial, .receive [] [.submit "g1"] (.submit "g1") rfl⟩ (.cmd ⟨trivial, .get "g1"⟩
      (.cmd ⟨trivial, .get "g1"⟩ (.cmd ⟨trivial, .mark () claimedGrievance⟩
        (.cmd ⟨trivial, .acknowledged claimedGrievance "SCORES/1"⟩ (.cmd ⟨trivial, .get "g1"⟩
          (.cmd ⟨trivial, .clock 0⟩ (.cmd ⟨trivial, .mark () submittedGrievance⟩
            (.cmd ⟨trivial, .srem .pendingSubmission "g1"⟩ (.cmd ⟨trivial, .sadd .open "g1"⟩
              .refl)))))))))))
  have hsecond := hfirst.trans (serves_of_advances (i := ()) rfl ⟨.runTask, rfl⟩
    (.cmd ⟨trivial, .receive [] [] (.submit "g1") rfl⟩ (.cmd ⟨trivial, .get "g1"⟩
      (.cmd ⟨trivial, .get "g1"⟩
        (.cmd ⟨trivial, .mark () { submittedGrievance with status := .submitting, attemptCount := 2 }⟩
          (.cmd ⟨trivial, .acknowledged
              { submittedGrievance with status := .submitting, attemptCount := 2 } "SCORES/2"⟩ .refl))))))
  exact absurd (h _ _ hsecond .refl "g1").1 (by decide)

end RegEngine.GrievanceEscalation
