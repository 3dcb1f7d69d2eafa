import RegEngine.RegulatoryFiling.Proof.Claimed

/-!
# The filing tasks keep to the agreement

Each call of the queue and each task, begun with nothing in hand, ends so: `safe_enqueue`,
`safe_submitFilingTask` and `safe_submitPendingFilingsTask`.
-/

namespace RegEngine.RegulatoryFiling

open Lib Lib.Programs Lib.RelyGuarantee

variable {ι : Type} {once : Prop} {i : ι} {id : String} {held : Option String} {s t : Store ι}
  {r : FilingSubmissionRecord} {α β : Type}

/-! ## What a caller has in hand -/

theorem holds_rely (h : Holds i held s.claims) (hrely : Relies i s t) : Holds i held t.claims :=
  fun id => (hrely id).1.trans (h id)

/-- A filing that a caller has marked SUBMITTING, and its record. -/
structure InHand (i : ι) (id : String) (r : FilingSubmissionRecord) (s : Store ι) : Prop where
  held : Holds i (some id) s.claims
  stored : s.filings id = some r
  submitting : r.status = .submitting

theorem InHand.mine (h : InHand i id r s) : s.claims id = some i := (h.held id).2 rfl

theorem InHand.rely (h : InHand i id r s) (hrely : Relies i s t) :
    InHand i id r t ∧ t.accepted id = s.accepted id := by
  obtain ⟨hfilings, haccepted⟩ := (hrely id).2 h.mine
  exact ⟨⟨holds_rely h.held hrely, hfilings.trans h.stored, h.submitting⟩, haccepted⟩

/-! ## Steps -/

/-- A program that ends with nothing in hand. -/
def SafeCall (once : Prop) (i : ι) (p : FilingM ι α) (s : Store ι) : Prop :=
  Safe (filing once) (Answers once) (Orderly once) i (fun _ s => Holds i none s.claims) p.run s

theorem safe_return {a : α} (h : Holds i none s.claims) : SafeCall once i (pure a) s := safe_pure h

theorem safe_raise {e : FilingError} (h : Holds i none s.claims) :
    SafeCall once i (throw e : FilingM ι α) s := safe_throw h

theorem SafeCall.then {p : FilingM ι α} {f : α → FilingM ι β} (hp : SafeCall once i p s)
    (hf : ∀ a s, Holds i none s.claims → SafeCall once i (f a) s) : SafeCall once i (p >>= f) s :=
  safe_bind hp (fun _ _ h => h) hf

/-- A command that changes nothing. -/
theorem safe_command {c : Command ι} {f : Reply c → FilingM ι β}
    {M : Except FilingError β → Store ι → Prop} (hquiet : ∀ s₁ r s₂, Exec c s₁ r s₂ → s₂ = s₁)
    (hf : ∀ r s', Sound once s' → Grows once s s' → Relies i s s' → Exec c s' r s' →
      Safe (filing once) (Answers once) (Orderly once) i M (f r).run s') :
    Safe (filing once) (Answers once) (Orderly once) i M (command c >>= f).run s :=
  safe_quiet (fun s₁ r s₂ hexec => hquiet s₁ r s₂ hexec.1) fun r s' hinv hgrow hrely hexec =>
    hf r s' hinv hgrow hrely hexec.1

theorem safe_get {f : Option FilingSubmissionRecord → FilingM ι β}
    {M : Except FilingError β → Store ι → Prop}
    (hf : ∀ s', Sound once s' → Grows once s s' → Relies i s s' →
      Safe (filing once) (Answers once) (Orderly once) i M (f (s'.filings id)).run s') :
    Safe (filing once) (Answers once) (Orderly once) i M (get id >>= f).run s := by
  refine safe_command ?_ ?_
  · intro s₁ r s₂ hexec
    cases hexec with
    | get => rfl
  · intro r s' hinv hgrow hrely hexec
    cases hexec with
    | get => exact hf s' hinv hgrow hrely

/-- A caller reads what it has in hand. -/
theorem safe_get_inHand {f : Option FilingSubmissionRecord → FilingM ι β} (h : InHand i id r s)
    (hf : ∀ s', InHand i id r s' → s'.accepted id = s.accepted id → SafeCall once i (f (some r)) s') :
    SafeCall once i (get id >>= f) s := by
  refine safe_get fun s' _ _ hrely => ?_
  obtain ⟨hin, haccepted⟩ := h.rely hrely
  rw [hin.stored]
  exact hf s' hin haccepted

/-! ## Results -/

/-- A result is written. -/
theorem safe_result {updated : FilingSubmissionRecord} {f : Unit → FilingM ι β}
    (h : InHand i id r s) (hid : updated.filingId = r.filingId) (hresult : updated.status ≠ .submitting)
    (hmax : updated.maxRetries = r.maxRetries) (hcount : updated.attemptCount = r.attemptCount)
    (hretry : once → updated.status = .pending →
      r.attemptCount < r.maxRetries ∧ s.accepted id = 0)
    (hf : ∀ s', Holds i none s'.claims → s'.filings id = some updated → SafeCall once i (f ()) s') :
    SafeCall once i (command (.save i updated) >>= f) s := by
  refine safe_send_bind fun s₁ hinv _ hrely _ s₂ _ hexec => ?_
  obtain ⟨hin, haccepted⟩ := h.rely hrely
  obtain rfl : updated.filingId = id := hid.trans (hinv.stored id r hin.stored).keyed
  cases hexec.1 with
  | save =>
    rw [if_neg hresult]
    refine ⟨guarantee_result hinv hin.stored hin.mine hin.submitting hresult hmax hcount
      fun honce hp => ?_, hf _ (hin.held.release rfl) (Function.update_self ..)⟩
    rw [haccepted]
    exact hretry honce hp

/-- A final result is written, and the filing leaves the pending set. -/
theorem safe_final {updated : FilingSubmissionRecord} {a : α} (h : InHand i id r s)
    (hid : updated.filingId = r.filingId) (hfinal : updated.status.final = true)
    (hmax : updated.maxRetries = r.maxRetries) (hcount : updated.attemptCount = r.attemptCount) :
    SafeCall once i (command (.save i updated) >>= fun _ : Unit =>
      command (.srem id) >>= fun _ : Unit => pure a) s := by
  have hnot : updated.status ≠ .submitting ∧ updated.status ≠ .pending := by
    cases hstatus : updated.status <;> simp_all [FilingStatus.final]
  refine safe_result h hid hnot.1 hmax hcount (fun _ hp => absurd hp hnot.2) fun s' hfree hstored => ?_
  refine safe_send_bind fun s₁ hinv hgrow hrely _ s₂ _ hexec => ?_
  obtain ⟨r', hr', hfollows⟩ := hgrow.filings id updated hstored
  cases hexec.1 with
  | srem =>
    refine ⟨guarantee_srem hinv hr' ?_, safe_return (holds_rely hfree hrely)⟩
    rw [hfollows.final hfinal]
    exact hfinal

theorem safe_markAcknowledged (ack : FilingAcknowledgment) (h : InHand i id r s) :
    SafeCall once i (markAcknowledged i id ack) s := by
  refine safe_get_inHand h fun s₁ h₁ _ => ?_
  refine safe_command (c := .clock) ?_ ?_
  · intro s₂ now s₃ hexec
    cases hexec with
    | clock => rfl
  · intro now s₂ _ _ hrely _
    exact safe_final (h₁.rely hrely).1 rfl rfl rfl rfl

theorem safe_markFailed (error : String) (h : InHand i id r s) :
    SafeCall once i (markFailed i id error) s :=
  safe_get_inHand h fun _ h₁ _ => safe_final h₁ rfl rfl rfl rfl

theorem safe_markRetry (error : String) (h : InHand i id r s)
    (hretry : once → r.attemptCount < r.maxRetries ∧ s.accepted id = 0) :
    SafeCall once i (markRetry i id error) s := by
  refine safe_get_inHand h fun s₁ h₁ haccepted => ?_
  refine safe_result h₁ rfl (by simp) rfl rfl (fun honce _ => ?_) fun s₂ hfree _ => safe_return hfree
  rw [haccepted]
  exact hretry honce

/-! ## Attempts -/

/-- The record that was read, and what is stored by then. -/
theorem markSubmitting_spec (h : Holds i none s.claims) (hadded : Added s id) :
    Safe (filing once) (Answers once) (Orderly once) i
      (fun a s' => (∀ e, a = .error e → Holds i none s'.claims) ∧
        ∀ r, a = .ok r → InHand i id r s' ∧ (once → s'.accepted id = 0))
      (markSubmitting i id).run s := by
  refine safe_get fun s₁ hinv₁ hgrow₁ hrely₁ => ?_
  have hfree₁ := holds_rely h hrely₁
  have hadded₁ := hgrow₁.added id hadded
  cases hr : s₁.filings id with
  | none => exact safe_throw ⟨fun _ _ => hfree₁, fun r h => by cases h⟩
  | some read =>
    refine safe_send_bind fun s₂ hinv₂ hgrow₂ hrely₂ _ s₃ hok hexec => ?_
    have hfree₂ := holds_rely hfree₁ hrely₂
    have hread := hinv₁.stored id read hr
    obtain ⟨stored, hstored, hfollows⟩ := hgrow₂.filings id read hr
    obtain rfl := hread.keyed
    have hpending : stored.status = .pending := hok rfl stored hstored
    have hnow := hinv₂.stored _ stored hstored
    cases hexec.1 with
    | save =>
      rw [if_pos rfl]
      refine ⟨guarantee_claim hinv₂ hstored (hgrow₂.added _ hadded₁) hpending rfl
        hfollows.maxRetries.symm fun honce => ?_, safe_pure ⟨(fun e h => by cases h), fun r h => ?_⟩⟩
      · -- an exhausted filing stays exhausted, so it would not be PENDING now
        have hbounded := hread.bounded honce
        have hleft := (hnow.untried honce hpending).1
        have hmax := hfollows.maxRetries
        have hexhausted := hfollows.exhausted honce
        show ((read.attemptCount + 1 : Nat) : Int) ≤ read.maxRetries
        push_cast
        by_cases heq : (read.attemptCount : Int) = read.maxRetries
        · have := hexhausted heq
          omega
        · omega
      · obtain rfl := Except.ok.inj h
        refine ⟨⟨hfree₂.take rfl, Function.update_self .., rfl⟩, fun honce => ?_⟩
        exact (hnow.untried honce hpending).2

theorem safe_submissionFailed {e : SubmitError} (h : InHand i id r s)
    (hretry : once → e.transient = true → r.attemptCount < r.maxRetries → s.accepted id = 0) :
    SafeCall once i (submissionFailed i r id e) s := by
  unfold submissionFailed
  split_ifs with hfail
  · refine (safe_markFailed e.text h).then fun _ s₁ hfree => ?_
    refine safe_command (c := .raiseBreachEvent _) ?_ ?_
    · intro s₂ done s₃ hexec
      cases hexec with
      | raiseBreachEvent => rfl
    · intro done s₂ _ _ hrely _
      cases done with
      | true => exact safe_return (holds_rely hfree hrely)
      | false => exact safe_raise (holds_rely hfree hrely)
  · simp only [not_or, not_le, Bool.not_eq_false] at hfail
    exact (safe_markRetry e.text h fun honce => ⟨hfail.1, hretry honce hfail.2 hfail.1⟩).then
      fun _ s₁ hfree => safe_return hfree

theorem safe_submitOne (h : Holds i none s.claims) (hadded : Added s id) :
    SafeCall once i (submitOne i id) s := by
  refine safe_get fun s₁ _ hgrow₁ hrely₁ => ?_
  have hfree₁ := holds_rely h hrely₁
  cases s₁.filings id with
  | none => exact safe_return hfree₁
  | some record =>
    show SafeCall once i (if record.status = .acknowledged then _ else _) s₁
    split_ifs with hacknowledged
    · exact safe_return hfree₁
    refine safe_bind (markSubmitting_spec hfree₁ (hgrow₁.added id hadded)) (fun e s₂ h => h.1 e rfl)
      fun r s₂ hok => ?_
    obtain ⟨hin₂, hzero₂⟩ := hok.2 r rfl
    refine safe_send_bind fun s₃ hinv₃ _ hrely₃ reply s₄ _ hexec => ?_
    obtain ⟨hin₃, haccepted₃⟩ := hin₂.rely hrely₃
    have hzero₃ : once → s₃.accepted id = 0 := fun honce => haccepted₃.trans (hzero₂ honce)
    obtain rfl := (hinv₃.stored id r hin₃.stored).keyed
    have haccept : (filing once).Guarantee i s₃ (s₃.accept r.filingId) :=
      guarantee_accept hinv₃ hin₃.stored hin₃.submitting hin₃.mine hzero₃
    have hin₄ : InHand i r.filingId r (s₃.accept r.filingId) :=
      ⟨hin₃.held, hin₃.stored, hin₃.submitting⟩
    obtain ⟨hexec, hlost⟩ := hexec
    cases hexec with
    | acknowledged _ ack =>
      exact ⟨haccept, (safe_markAcknowledged ack hin₄).then fun _ s₅ hfree => safe_return hfree⟩
    | refused _ e =>
      exact ⟨guarantee_refl hinv₃, safe_submissionFailed hin₃ fun honce _ _ => hzero₃ honce⟩
    | lost _ e =>
      refine ⟨haccept, safe_submissionFailed hin₄ fun honce htransient hleft => ?_⟩
      exact (hlost honce e rfl htransient hleft).trans (hzero₃ honce)

/-! ## Calls -/

theorem safe_enqueue (record : FilingSubmissionRecord) (h : Holds i none s.claims) :
    SafeCall once i (enqueue i record) s := by
  refine safe_send_bind fun s₁ hinv₁ _ hrely₁ _ s₂ hok hexec => ?_
  cases hexec.1 with
  | create _ _ hnone =>
    refine ⟨guarantee_create hinv₁ hnone hok.1 hok.2, ?_⟩
    have hheld : Holds i (some record.filingId) (s₁.put record (some i)).claims := (holds_rely h hrely₁).take rfl
    refine safe_send_bind fun s₃ hinv₃ _ hrely₃ _ s₄ _ hexec => ?_
    have hmine := (hheld record.filingId).2 rfl
    have hstored : s₃.filings record.filingId = some record :=
      ((hrely₃ _).2 hmine).1.trans (Function.update_self ..)
    cases hexec.1 with
    | sadd =>
      exact ⟨guarantee_sadd hinv₃ hstored hok.1 ((hrely₃ _).1.2 hmine),
        safe_return ((holds_rely hheld hrely₃).release rfl)⟩

theorem safe_submitFilingTask (settings : Settings) (h : Holds i none s.claims) :
    SafeCall once i (submitFilingTask i settings) s := by
  refine safe_send_bind fun s₁ hinv₁ _ hrely₁ _ s₂ _ hexec => ?_
  have hfree₁ := holds_rely h hrely₁
  cases hexec.1 with
  | receive earlier later filingId htasks =>
    have hadded : ∀ id' ∈ s₁.tasks, Added s₁ id' := hinv₁.dispatched
    rw [htasks] at hadded
    have hrest : ∀ id' ∈ earlier ++ later, Added s₁ id' := by
      intro id' hid'
      apply hadded
      rw [List.mem_append] at hid' ⊢
      exact hid'.imp_right (List.mem_cons_of_mem _)
    refine ⟨guarantee_tasks hinv₁ hrest, ?_⟩
    show SafeCall once i (if settings.regulatoryFilingEnabled = false then _ else _) _
    split_ifs with henabled
    · exact safe_return hfree₁
    · exact safe_submitOne hfree₁ (hadded _ (List.mem_append_right _ (List.mem_cons_self ..)))

/-- The records that are read of filings in the pending set. -/
theorem mapM_get_spec (h : Holds i none s.claims) {ids : List String} (hids : ∀ id ∈ ids, Added s id) :
    Safe (filing once) (Answers once) (Orderly once) i
      (fun a s' => Holds i none s'.claims ∧ (∀ id, Added s id → Added s' id) ∧
        ∀ records, a = .ok records → ∀ r, some r ∈ records → Added s' r.filingId)
      (ids.mapM get).run s := by
  induction ids generalizing s with
  | nil =>
    refine safe_pure ⟨h, fun _ hadded => hadded, fun records hrecords r hmem => ?_⟩
    obtain rfl := Except.ok.inj hrecords
    cases hmem
  | cons id ids ih =>
    rw [List.mapM_cons]
    refine safe_get fun s₁ hinv₁ hgrow₁ hrely₁ => ?_
    have hhead : ∀ r, s₁.filings id = some r → Added s₁ r.filingId := by
      intro r hr
      rw [(hinv₁.stored id r hr).keyed]
      exact hgrow₁.added id (hids id (List.mem_cons_self ..))
    have hrest := ih (holds_rely h hrely₁) fun id' hid' =>
      hgrow₁.added id' (hids id' (List.mem_cons_of_mem _ hid'))
    refine safe_bind hrest ?_ ?_
    · intro e s₂ h₂
      refine ⟨h₂.1, fun id' hid' => h₂.2.1 id' (hgrow₁.added id' hid'), fun _ h => ?_⟩
      cases h
    · intro records s₂ h₂
      refine safe_pure ⟨h₂.1, fun id' hid' => h₂.2.1 id' (hgrow₁.added id' hid'), fun _ h r hmem => ?_⟩
      obtain rfl := Except.ok.inj h
      rcases List.mem_cons.1 hmem with hr | hmem
      · exact h₂.2.1 _ (hhead r hr.symm)
      · exact h₂.2.2 records rfl r hmem

theorem sweepPending_spec (h : Holds i none s.claims) :
    Safe (filing once) (Answers once) (Orderly once) i
      (fun a s' => Holds i none s'.claims ∧ ∀ ids, a = .ok ids → ∀ id ∈ ids, Added s' id)
      sweepPending.run s := by
  have hlist : Safe (filing once) (Answers once) (Orderly once) i
      (fun a s' => Holds i none s'.claims ∧ ∀ records, a = .ok records →
        ∀ r ∈ records, Added s' r.filingId) listPending.run s := by
    refine safe_command (c := .smembers) ?_ ?_
    · intro s₁ ids s₂ hexec
      cases hexec with
      | smembers => rfl
    · intro (ids : List String) s₁ hinv₁ _ hrely₁ hexec
      cases hexec with
      | smembers _ hperm =>
        have hids : ∀ id ∈ ids, Added s₁ id := by
          intro id hid
          cases hr : s₁.filings id with
          | none => exact absurd (hperm.mem_iff.1 hid) (hinv₁.absent id hr).1
          | some r => exact ⟨r, hr, fun _ => hperm.mem_iff.1 hid⟩
        refine safe_bind (mapM_get_spec (holds_rely h hrely₁) hids) (fun e s₂ h₂ => ⟨h₂.1, ?_⟩) ?_
        · intro _ h
          cases h
        · intro records s₂ h₂
          refine safe_pure ⟨h₂.1, fun _ h r hmem => ?_⟩
          obtain rfl := Except.ok.inj h
          rw [(List.perm_insertionSort _ _).mem_iff, List.mem_filterMap] at hmem
          obtain ⟨found, hfound, heq⟩ := hmem
          exact h₂.2.2 records rfl r (by rw [← heq]; exact hfound)
  refine safe_bind hlist (fun e s₁ h₁ => ⟨h₁.1, ?_⟩) fun records s₁ h₁ => ?_
  · intro _ h
    cases h
  · refine safe_pure ⟨h₁.1, fun _ h id hid => ?_⟩
    obtain rfl := Except.ok.inj h
    obtain ⟨r, hr, rfl⟩ := List.mem_map.1 hid
    exact h₁.2 records rfl r (List.mem_filter.1 hr).1

theorem safe_dispatches {ids : List String} {a : α} (h : Holds i none s.claims)
    (hids : ∀ id ∈ ids, Added s id) :
    SafeCall once i ((ids.forM fun id => do
      let _ ← command (.dispatch id)
      return ()) >>= fun _ => pure a) s := by
  induction ids generalizing s with
  | nil => exact safe_return h
  | cons id ids ih =>
    have hcons : (id :: ids).forM (fun id => (do
        let _ ← command (.dispatch id)
        return () : FilingM ι Unit)) = (do
          let _ ← command (.dispatch id)
          return ()) >>= fun _ => ids.forM fun id => do
            let _ ← command (.dispatch id)
            return () := rfl
    rw [hcons, bind_assoc, bind_assoc]
    refine safe_send_bind fun s₁ hinv₁ hgrow₁ hrely₁ _ s₂ _ hexec => ?_
    have hadded : ∀ id' ∈ id :: ids, Added s₁ id' := fun id' hid' => hgrow₁.added id' (hids id' hid')
    cases hexec.1 with
    | dispatch =>
      have htasks : ∀ id' ∈ s₁.tasks ++ [id], Added s₁ id' := by
        intro id' hid'
        rcases List.mem_append.1 hid' with hid' | hid'
        · exact hinv₁.dispatched id' hid'
        · rw [List.mem_singleton.1 hid']
          exact hadded id (List.mem_cons_self ..)
      exact ⟨guarantee_tasks hinv₁ htasks,
        ih (holds_rely h hrely₁) fun id' hid' => hadded id' (List.mem_cons_of_mem _ hid')⟩

theorem safe_submitPendingFilingsTask (settings : Settings) (h : Holds i none s.claims) :
    SafeCall once i (submitPendingFilingsTask settings) s := by
  unfold submitPendingFilingsTask
  split_ifs with henabled
  · exact safe_return h
  · exact safe_bind (sweepPending_spec h) (fun _ _ h₁ => h₁.1) fun ids s₁ h₁ =>
      safe_dispatches h₁.1 (h₁.2 ids rfl)

end RegEngine.RegulatoryFiling
