import RegEngine.Lib.RelyGuarantee
import RegEngine.GrievanceEscalation.Queue

/-!
# A grievance is filed once

While a claim finds a grievance PENDING_SUBMISSION, a confirmation finds it DRAFTED and a poll does not
reopen it (`Orderly`), a SUBMITTING grievance is in exactly one caller's hand, only that caller writes it
(`Relies`), and a grievance with a reference number stays SUBMITTED until it is closed for good (`Grows`).
-/

namespace RegEngine.GrievanceEscalation

open Lib Lib.Programs Lib.RelyGuarantee

variable {ι : Type}

/-- SCORES has given the grievance a reference number. -/
def Filed (r : GrievanceRecord) : Prop := r.scoresReferenceNumber ≠ none

/-- What is known of a stored grievance. -/
structure Stored (s : Store ι) (id : String) (r : GrievanceRecord) : Prop where
  keyed : r.grievanceId = id
  untried : r.status = .drafted ∨ r.status = .pendingSubmission → s.accepted id = 0
  filed : Filed r → r.status = .submitted ∨ r.status.closed = true
  claimed : s.claims id = none ↔ r.status ≠ .submitting

structure Sound (s : Store ι) : Prop where
  stored : ∀ id r, s.grievances id = some r → Stored s id r
  absent : ∀ id, s.grievances id = none → s.accepted id = 0 ∧ s.claims id = none
  accepted : ∀ id, s.accepted id ≤ 1

/-- A later record of a grievance. -/
structure Follows (r r' : GrievanceRecord) : Prop where
  closed : r.status.closed = true → r'.status = r.status
  filed : Filed r → Filed r'

theorem Follows.refl (r : GrievanceRecord) : Follows r r := ⟨fun _ => rfl, fun h => h⟩

theorem Follows.trans {r r' r'' : GrievanceRecord} (h : Follows r r') (h' : Follows r' r'') :
    Follows r r'' := by
  refine ⟨fun hclosed => ?_, fun hfiled => h'.filed (h.filed hfiled)⟩
  have hstatus := h.closed hclosed
  rw [h'.closed (by rw [hstatus]; exact hclosed), hstatus]

/-- Grievances stay and follow. -/
def Grows (s t : Store ι) : Prop :=
  ∀ id r, s.grievances id = some r → ∃ r', t.grievances id = some r' ∧ Follows r r'

theorem Grows.refl (s : Store ι) : Grows s s := fun _ r hr => ⟨r, hr, .refl r⟩

theorem Grows.trans {s t u : Store ι} (h : Grows s t) (h' : Grows t u) : Grows s u := by
  intro id r hr
  obtain ⟨r₁, hr₁, hfollows₁⟩ := h id r hr
  obtain ⟨r₂, hr₂, hfollows₂⟩ := h' id r₁ hr₁
  exact ⟨r₂, hr₂, hfollows₁.trans hfollows₂⟩

/-- Nobody else takes, writes or submits the grievances in a caller's hand. -/
def Relies (i : ι) (s t : Store ι) : Prop :=
  ∀ id, (t.claims id = some i ↔ s.claims id = some i) ∧
    (s.claims id = some i → t.grievances id = s.grievances id ∧ t.accepted id = s.accepted id)

/-- What the callers agree on. -/
def grievance : Protocol (Store ι) ι where
  inv := Sound
  grow := Grows
  rely := Relies
  done i s := ∀ id, s.claims id ≠ some i
  grow_refl := Grows.refl
  grow_trans _ _ _ := Grows.trans
  rely_refl _ _ _ := ⟨Iff.rfl, fun _ => ⟨rfl, rfl⟩⟩
  rely_trans i s t u h h' := by
    intro id
    refine ⟨(h' id).1.trans (h id).1, fun hmine => ?_⟩
    obtain ⟨hgrievances, haccepted⟩ := (h id).2 hmine
    obtain ⟨hgrievances', haccepted'⟩ := (h' id).2 ((h id).1.2 hmine)
    exact ⟨hgrievances'.trans hgrievances, haccepted'.trans haccepted⟩
  done_rely i s t hdone h := fun id hmine => hdone id ((h id).1.1 hmine)

/-- New grievances are drafts, a confirmation finds a draft, a claim a confirmed grievance, and an update
leaves the status of a closed one. -/
def Orderly (s : Store ι) : Command ι → Prop
  | .create record => record.status = .drafted ∧ record.scoresReferenceNumber = none
  | .confirm record => ∀ stored, s.grievances record.grievanceId = some stored → stored.status = .drafted
  | .mark _ record => record.status = .submitting →
      ∀ stored, s.grievances record.grievanceId = some stored → stored.status = .pendingSubmission
  | .update record => ∀ stored, s.grievances record.grievanceId = some stored →
      stored.status.closed = true → record.status = stored.status
  | _ => True

/-- A submission that raises and will be retried has not been accepted. -/
def NotLost : (c : Command ι) → Store ι → Reply c → Store ι → Prop
  | .submit record, s, r, s' => ∀ e : ScoresError, r = Except.error (α := String) e →
      e.transient = true → record.attemptCount < record.maxRetries →
      s'.accepted record.grievanceId = s.accepted record.grievanceId
  | _, _, _, _ => True

/-- What a command does when retried submissions have not been accepted. -/
def Answers (c : Command ι) (s : Store ι) (r : Reply c) (s' : Store ι) : Prop :=
  Exec c s r s' ∧ NotLost c s r s'

/-! ## Commands -/

section
variable {i : ι} {id : String} {s t : Store ι} {r : GrievanceRecord}

/-- A grievance is written that is in no other hand before or after. -/
theorem guarantee_put (hs : Sound s) {written : GrievanceRecord} {claim : Option ι}
    (huntried : written.status = .drafted ∨ written.status = .pendingSubmission →
      s.accepted written.grievanceId = 0)
    (hfiled : Filed written → written.status = .submitted ∨ written.status.closed = true)
    (hclaim : claim = none ↔ written.status ≠ .submitting)
    (hfollows : ∀ r, s.grievances written.grievanceId = some r → Follows r written)
    (hbefore : ∀ j, j ≠ i → s.claims written.grievanceId ≠ some j) (hafter : ∀ j, j ≠ i → claim ≠ some j) :
    grievance.Guarantee i s (s.put written claim) := by
  have hself : (s.put written claim).claims written.grievanceId = claim := Function.update_self ..
  have hsome : (s.put written claim).grievances written.grievanceId = some written :=
    Function.update_self ..
  have hother : ∀ id, id ≠ written.grievanceId →
      (s.put written claim).grievances id = s.grievances id ∧
        (s.put written claim).claims id = s.claims id :=
    fun id hid => ⟨Function.update_of_ne hid _ _, Function.update_of_ne hid _ _⟩
  refine ⟨⟨fun id r hr => ?_, fun id hnone => ?_, hs.accepted⟩, fun id r hr => ?_, fun j hj id => ?_⟩
  all_goals by_cases hid : id = written.grievanceId
  · subst hid
    obtain rfl := Option.some.inj (hsome.symm.trans hr)
    exact ⟨rfl, huntried, hfiled, by rw [hself]; exact hclaim⟩
  · rw [(hother id hid).1] at hr
    have h := hs.stored id r hr
    exact ⟨h.keyed, h.untried, h.filed, by rw [(hother id hid).2]; exact h.claimed⟩
  · subst hid
    rw [hsome] at hnone
    cases hnone
  · rw [(hother id hid).1] at hnone
    rw [(hother id hid).2]
    exact hs.absent id hnone
  · subst hid
    exact ⟨written, hsome, hfollows r hr⟩
  · exact ⟨r, by rw [(hother id hid).1]; exact hr, .refl r⟩
  · subst hid
    rw [hself]
    exact ⟨iff_of_false (hafter j hj) (hbefore j hj), fun h => absurd h (hbefore j hj)⟩
  · rw [(hother id hid).1, (hother id hid).2]
    exact ⟨Iff.rfl, fun _ => ⟨rfl, rfl⟩⟩

/-- The records stay as they are. -/
theorem guarantee_same (hs : Sound s) (hgrievances : t.grievances = s.grievances)
    (haccepted : t.accepted = s.accepted) (hclaims : t.claims = s.claims) :
    grievance.Guarantee i s t := by
  refine ⟨⟨fun id r hr => ?_, fun id hnone => ?_, fun id => ?_⟩, fun id r hr => ?_, fun j _ id => ?_⟩
  · rw [hgrievances] at hr
    have h := hs.stored id r hr
    exact ⟨h.keyed, by rw [haccepted]; exact h.untried, h.filed, by rw [hclaims]; exact h.claimed⟩
  · rw [hgrievances] at hnone
    rw [haccepted, hclaims]
    exact hs.absent id hnone
  · rw [haccepted]
    exact hs.accepted id
  · exact ⟨r, by rw [hgrievances]; exact hr, .refl r⟩
  · rw [hgrievances, haccepted, hclaims]
    exact ⟨Iff.rfl, fun _ => ⟨rfl, rfl⟩⟩

/-- The grievance in a caller's hand is accepted. -/
theorem guarantee_accept (hs : Sound s) (hr : s.grievances id = some r)
    (hsubmitting : r.status = .submitting) (hmine : s.claims id = some i) (haccepted : s.accepted id = 0) :
    grievance.Guarantee i s (s.accept id) := by
  have hother : ∀ id', id' ≠ id → (s.accept id).accepted id' = s.accepted id' :=
    fun id' hid => Function.update_of_ne hid _ _
  refine ⟨⟨fun id' r' hr' => ?_, fun id' hnone => ?_, fun id' => ?_⟩, Grows.refl s, fun j hj id' => ?_⟩
  all_goals by_cases hid : id' = id
  · subst hid
    obtain rfl := Option.some.inj (hr.symm.trans hr')
    have h := hs.stored id' r hr
    refine ⟨h.keyed, fun huntried => ?_, h.filed, h.claimed⟩
    rw [hsubmitting] at huntried
    rcases huntried with huntried | huntried <;> cases huntried
  · have h := hs.stored id' r' hr'
    exact ⟨h.keyed, by rw [hother id' hid]; exact h.untried, h.filed, h.claimed⟩
  · subst hid
    rw [show s.grievances id' = none from hnone] at hr
    cases hr
  · rw [hother id' hid]
    exact hs.absent id' hnone
  · subst hid
    simp [Store.accept, haccepted]
  · rw [hother id' hid]
    exact hs.accepted id'
  · subst hid
    refine ⟨Iff.rfl, fun h => ?_⟩
    rw [hmine] at h
    exact absurd (Option.some.inj h).symm hj
  · rw [hother id' hid]
    exact ⟨Iff.rfl, fun _ => ⟨rfl, rfl⟩⟩

/-! ## Steps -/

variable {held : Option String} {α β : Type}

theorem holds_rely (h : Holds i held s.claims) (hrely : Relies i s t) : Holds i held t.claims :=
  fun id => (hrely id).1.trans (h id)

/-- A grievance that a caller has marked SUBMITTING, and its record. -/
structure InHand (i : ι) (id : String) (r : GrievanceRecord) (s : Store ι) : Prop where
  held : Holds i (some id) s.claims
  stored : s.grievances id = some r
  submitting : r.status = .submitting

theorem InHand.mine (h : InHand i id r s) : s.claims id = some i := (h.held id).2 rfl

theorem InHand.rely (h : InHand i id r s) (hrely : Relies i s t) :
    InHand i id r t ∧ t.accepted id = s.accepted id := by
  obtain ⟨hgrievances, haccepted⟩ := (hrely id).2 h.mine
  exact ⟨⟨holds_rely h.held hrely, hgrievances.trans h.stored, h.submitting⟩, haccepted⟩

/-- A program that ends with nothing in hand. -/
def SafeCall (i : ι) (p : GrievanceM ι α) (s : Store ι) : Prop :=
  Safe grievance Answers Orderly i (fun _ s => Holds i none s.claims) p.run s

theorem safe_return {a : α} (h : Holds i none s.claims) : SafeCall i (pure a) s := safe_pure h

theorem safe_raise {e : GrievanceError} (h : Holds i none s.claims) :
    SafeCall i (throw e : GrievanceM ι α) s := safe_throw h

theorem SafeCall.then {p : GrievanceM ι α} {f : α → GrievanceM ι β} (hp : SafeCall i p s)
    (hf : ∀ a s, Holds i none s.claims → SafeCall i (f a) s) : SafeCall i (p >>= f) s :=
  safe_bind hp (fun _ _ h => h) hf

/-- A command that leaves the records as they are. -/
theorem safe_same {c : Command ι} {f : Reply c → GrievanceM ι β}
    {M : Except GrievanceError β → Store ι → Prop}
    (hsame : ∀ s₁ r s₂, Exec c s₁ r s₂ →
      s₂.grievances = s₁.grievances ∧ s₂.accepted = s₁.accepted ∧ s₂.claims = s₁.claims)
    (hf : ∀ r s₁ s₂, Grows s s₂ → Relies i s s₂ → Exec c s₁ r s₂ →
      Safe grievance Answers Orderly i M (f r).run s₂) :
    Safe grievance Answers Orderly i M (command c >>= f).run s := by
  refine safe_send_bind fun s₁ hinv hgrow hrely r s₂ _ hexec => ?_
  obtain ⟨hgrievances, haccepted, hclaims⟩ := hsame s₁ r s₂ hexec.1
  have hguarantee : ∀ j : ι, grievance.Guarantee j s₁ s₂ :=
    fun j => guarantee_same hinv hgrievances haccepted hclaims
  refine ⟨hguarantee i, hf r s₁ s₂ (hgrow.trans (hguarantee i).grow) ?_ hexec.1⟩
  refine grievance.rely_trans i s s₁ s₂ hrely fun id => ?_
  rw [hgrievances, haccepted, hclaims]
  exact ⟨Iff.rfl, fun _ => ⟨rfl, rfl⟩⟩

theorem safe_clock {f : Int → GrievanceM ι β} {M : Except GrievanceError β → Store ι → Prop}
    (hf : ∀ now s', Grows s s' → Relies i s s' → Safe grievance Answers Orderly i M (f now).run s') :
    Safe grievance Answers Orderly i M ((command .clock : GrievanceM ι Int) >>= f).run s := by
  refine safe_same (c := .clock) ?_ ?_
  · intro s₁ now s₂ hexec
    cases hexec with
    | clock => exact ⟨rfl, rfl, rfl⟩
  · intro now s₁ s₂ hgrow hrely _
    exact hf now s₂ hgrow hrely

/-- A member of one of the sets comes or goes. -/
theorem safe_sadd {key : SetKey} {f : Unit → GrievanceM ι β}
    {M : Except GrievanceError β → Store ι → Prop}
    (hf : ∀ s', Grows s s' → Relies i s s' → Safe grievance Answers Orderly i M (f ()).run s') :
    Safe grievance Answers Orderly i M (command (.sadd key id) >>= f).run s := by
  refine safe_same (c := .sadd key id) ?_ ?_
  · intro s₁ _ s₂ hexec
    cases hexec with
    | sadd => exact ⟨rfl, rfl, rfl⟩
  · intro _ s₁ s₂ hgrow hrely _
    exact hf s₂ hgrow hrely

theorem safe_srem {key : SetKey} {f : Unit → GrievanceM ι β}
    {M : Except GrievanceError β → Store ι → Prop}
    (hf : ∀ s', Grows s s' → Relies i s s' → Safe grievance Answers Orderly i M (f ()).run s') :
    Safe grievance Answers Orderly i M (command (.srem key id) >>= f).run s := by
  refine safe_same (c := .srem key id) ?_ ?_
  · intro s₁ _ s₂ hexec
    cases hexec with
    | srem => exact ⟨rfl, rfl, rfl⟩
  · intro _ s₁ s₂ hgrow hrely _
    exact hf s₂ hgrow hrely

theorem safe_get {f : Option GrievanceRecord → GrievanceM ι β}
    {M : Except GrievanceError β → Store ι → Prop}
    (hf : ∀ s', Sound s' → Grows s s' → Relies i s s' →
      Safe grievance Answers Orderly i M (f (s'.grievances id)).run s') :
    Safe grievance Answers Orderly i M (get id >>= f).run s := by
  refine safe_send_bind fun s₁ hinv hgrow hrely r s₂ _ hexec => ?_
  cases hexec.1 with
  | get => exact ⟨guarantee_same hinv rfl rfl rfl, hf s₁ hinv hgrow hrely⟩

theorem safe_require {f : GrievanceRecord → GrievanceM ι β}
    {M : Except GrievanceError β → Store ι → Prop}
    (hnone : ∀ e s', Grows s s' → Relies i s s' → M (.error e) s')
    (hf : ∀ r s', Sound s' → Grows s s' → Relies i s s' → s'.grievances id = some r →
      Safe grievance Answers Orderly i M (f r).run s') :
    Safe grievance Answers Orderly i M (require id >>= f).run s := by
  refine safe_bind (K := fun a s' => (∀ e, a = .error e → M (.error e) s') ∧
    ∀ r, a = .ok r → Safe grievance Answers Orderly i M (f r).run s') ?_
    (fun e s' h => h.1 e rfl) fun r s' h => h.2 r rfl
  refine safe_get fun s' hinv hgrow hrely => ?_
  cases hr : s'.grievances id with
  | none => exact safe_throw ⟨fun e h => hnone e s' hgrow hrely, fun r h => by cases h⟩
  | some r =>
    refine safe_pure ⟨(fun e h => by cases h), fun r' h => ?_⟩
    obtain rfl := Except.ok.inj h
    exact hf r s' hinv hgrow hrely hr

/-! ## Results -/

/-- A result is written. -/
theorem safe_result {written : GrievanceRecord} {f : Unit → GrievanceM ι β} (h : InHand i id r s)
    (hid : written.grievanceId = r.grievanceId) (hresult : written.status ≠ .submitting)
    (hdraft : written.status ≠ .drafted) (hretry : written.status = .pendingSubmission → s.accepted id = 0)
    (hfiled : Filed written → Filed r ∨ written.status = .submitted)
    (hf : ∀ s', Holds i none s'.claims → SafeCall i (f ()) s') :
    SafeCall i (command (.mark i written) >>= f) s := by
  refine safe_send_bind fun s₁ hinv _ hrely _ s₂ _ hexec => ?_
  obtain ⟨hin, haccepted⟩ := h.rely hrely
  have hstored := hinv.stored id r hin.stored
  obtain rfl : written.grievanceId = id := hid.trans hstored.keyed
  have hunfiled : ¬ Filed r := by
    intro hfiled
    have hstatus := hstored.filed hfiled
    rw [hin.submitting] at hstatus
    rcases hstatus with hstatus | hstatus <;> cases hstatus
  cases hexec.1 with
  | mark =>
    rw [if_neg hresult]
    refine ⟨guarantee_put hinv (fun huntried => ?_) (fun hfiled' => ?_) (by simp [hresult])
      (fun r' hr' => ?_) (fun j hj hmine => ?_) (fun j _ => by simp), hf _ (hin.held.release rfl)⟩
    · rw [haccepted]
      exact hretry (huntried.resolve_left hdraft)
    · exact .inl ((hfiled hfiled').resolve_left hunfiled)
    · obtain rfl := Option.some.inj (hin.stored.symm.trans hr')
      refine ⟨fun hclosed => ?_, fun hfiled => absurd hfiled hunfiled⟩
      rw [hin.submitting] at hclosed
      cases hclosed
    · exact hj (Option.some.inj (hmine.symm.trans hin.mine))

/-- A caller reads what it has in hand. -/
theorem safe_require_inHand {f : GrievanceRecord → GrievanceM ι β} (h : InHand i id r s)
    (hf : ∀ s', InHand i id r s' → s'.accepted id = s.accepted id → SafeCall i (f r) s') :
    SafeCall i (require id >>= f) s := by
  unfold require
  rw [bind_assoc]
  refine safe_get fun s' _ _ hrely => ?_
  obtain ⟨hin, haccepted⟩ := h.rely hrely
  rw [hin.stored]
  exact hf s' hin haccepted

theorem safe_markSubmitted (reference : String) (h : InHand i id r s) :
    SafeCall i (markSubmitted i id reference) s := by
  refine safe_require_inHand h fun s₁ h₁ _ => ?_
  refine safe_clock fun now s₂ _ hrely₂ => ?_
  refine safe_result (h₁.rely hrely₂).1 rfl (by simp) (by simp) (by simp) (fun _ => .inr rfl)
    fun s₃ hfree => ?_
  refine safe_srem fun s₄ _ hrely₄ => ?_
  refine safe_sadd fun s₅ _ hrely₅ => ?_
  exact safe_return (holds_rely (holds_rely hfree hrely₄) hrely₅)

theorem safe_markSubmissionFailed (error : String) (h : InHand i id r s) :
    SafeCall i (markSubmissionFailed i id error) s := by
  refine safe_require_inHand h fun s₁ h₁ _ => ?_
  refine safe_result h₁ rfl (by simp) (by simp) (by simp) .inl fun s₂ hfree => ?_
  exact safe_srem fun s₃ _ hrely₃ => safe_return (holds_rely hfree hrely₃)

theorem safe_markRetry (error : String) (h : InHand i id r s) (hzero : s.accepted id = 0) :
    SafeCall i (markRetry i id error) s := by
  refine safe_require_inHand h fun s₁ h₁ haccepted => ?_
  exact safe_result h₁ rfl (by simp) (by simp) (fun _ => haccepted.trans hzero) .inl
    fun s₂ hfree => safe_return hfree

/-! ## Attempts -/

theorem markSubmitting_spec (h : Holds i none s.claims) :
    Safe grievance Answers Orderly i
      (fun a s' => (∀ e, a = .error e → Holds i none s'.claims) ∧
        ∀ r, a = .ok r → InHand i id r s' ∧ s'.accepted id = 0)
      (markSubmitting i id).run s := by
  refine safe_require ?_ ?_
  · intro e s₁ _ hrely₁
    exact ⟨fun _ _ => holds_rely h hrely₁, fun r h => by cases h⟩
  · intro read s₁ hinv₁ hgrow₁ hrely₁ hread
    have hfree₁ := holds_rely h hrely₁
    refine safe_send_bind fun s₂ hinv₂ hgrow₂ hrely₂ _ s₃ hok hexec => ?_
    have hfree₂ := holds_rely hfree₁ hrely₂
    obtain ⟨stored, hstored, hfollows⟩ := hgrow₂ id read hread
    obtain rfl := (hinv₁.stored id read hread).keyed
    have hpending : stored.status = .pendingSubmission := hok rfl stored hstored
    have hnow := hinv₂.stored _ stored hstored
    have hclaims : s₂.claims read.grievanceId = none := hnow.claimed.2 (by rw [hpending]; simp)
    have hunfiled : ¬ Filed stored := by
      intro hfiled
      have hstatus := hnow.filed hfiled
      rw [hpending] at hstatus
      rcases hstatus with hstatus | hstatus <;> cases hstatus
    cases hexec.1 with
    | mark =>
      rw [if_pos rfl]
      refine ⟨guarantee_put hinv₂ (fun h => by simp at h) (fun hfiled => ?_) (by simp)
        (fun r hr => ?_) (fun j _ => by simp [hclaims]) fun j hj => by simpa using Ne.symm hj,
        safe_pure ⟨(fun e h => by cases h), fun r h => ?_⟩⟩
      · exact absurd (hfollows.filed hfiled) hunfiled
      · obtain rfl := Option.some.inj (hstored.symm.trans hr)
        refine ⟨fun hclosed => ?_, fun hfiled => absurd hfiled hunfiled⟩
        rw [hpending] at hclosed
        cases hclosed
      · obtain rfl := Except.ok.inj h
        exact ⟨⟨hfree₂.take rfl, Function.update_self .., rfl⟩, hnow.untried (.inr hpending)⟩

theorem safe_submissionFailed {e : ScoresError} (h : InHand i id r s)
    (hretry : e.transient = true → r.attemptCount < r.maxRetries → s.accepted id = 0) :
    SafeCall i (submissionFailed i r id e) s := by
  unfold submissionFailed
  split_ifs with hleft
  · exact (safe_markRetry e.text h (hretry hleft.1 hleft.2)).then fun _ _ hfree => safe_return hfree
  · exact (safe_markSubmissionFailed e.text h).then fun _ _ hfree => safe_return hfree

theorem safe_submitOne (h : Holds i none s.claims) : SafeCall i (submitOne i id) s := by
  refine safe_get fun s₁ _ _ hrely₁ => ?_
  have hfree₁ := holds_rely h hrely₁
  cases s₁.grievances id with
  | none => exact safe_return hfree₁
  | some record =>
    refine safe_bind (markSubmitting_spec hfree₁) (fun e s₂ h => h.1 e rfl) fun r s₂ hok => ?_
    obtain ⟨hin₂, hzero₂⟩ := hok.2 r rfl
    refine safe_send_bind fun s₃ hinv₃ _ hrely₃ reply s₄ _ hexec => ?_
    obtain ⟨hin₃, haccepted₃⟩ := hin₂.rely hrely₃
    have hzero₃ : s₃.accepted id = 0 := haccepted₃.trans hzero₂
    obtain rfl := (hinv₃.stored id r hin₃.stored).keyed
    have haccept : grievance.Guarantee i s₃ (s₃.accept r.grievanceId) :=
      guarantee_accept hinv₃ hin₃.stored hin₃.submitting hin₃.mine hzero₃
    have hin₄ : InHand i r.grievanceId r (s₃.accept r.grievanceId) :=
      ⟨hin₃.held, hin₃.stored, hin₃.submitting⟩
    obtain ⟨hexec, hlost⟩ := hexec
    cases hexec with
    | acknowledged _ reference =>
      exact ⟨haccept, (safe_markSubmitted reference hin₄).then fun _ s₅ hfree => safe_return hfree⟩
    | refused _ e =>
      exact ⟨guarantee_same hinv₃ rfl rfl rfl, safe_submissionFailed hin₃ fun _ _ => hzero₃⟩
    | lost _ e =>
      refine ⟨haccept, safe_submissionFailed hin₄ fun htransient hleft => ?_⟩
      exact (hlost e rfl htransient hleft).trans hzero₃

end

end RegEngine.GrievanceEscalation
