import RegEngine.Lib.RelyGuarantee
import RegEngine.RegulatoryFiling.Submission

/-!
# Filings in hand

What the callers agree on while every SET to SUBMITTING finds a PENDING filing (`Orderly`): a filing is in
somebody's hand exactly while it is SUBMITTING, or PENDING and not yet in the pending set; only that caller
writes it (`Relies`). With `once`, the bounds on attempts and submissions are kept as well.
-/

namespace RegEngine.RegulatoryFiling

open Lib Lib.Programs Lib.RelyGuarantee

variable {ι : Type}

/-- Stored, and in the pending set until its status is final. -/
def Added (s : Store ι) (id : String) : Prop :=
  ∃ r, s.filings id = some r ∧ (r.status.final = false → id ∈ s.pending)

/-- What is known of a stored filing. -/
structure Stored (once : Prop) (s : Store ι) (id : String) (r : FilingSubmissionRecord) : Prop where
  keyed : r.filingId = id
  bounded : once → (r.attemptCount : Int) ≤ r.maxRetries
  untried : once → r.status = .pending → r.attemptCount < r.maxRetries ∧ s.accepted id = 0
  submitting : r.status = .submitting → id ∈ s.pending
  claimed : s.claims id = none ↔ r.status ≠ .submitting ∧ (r.status = .pending → id ∈ s.pending)

structure Sound (once : Prop) (s : Store ι) : Prop where
  stored : ∀ id r, s.filings id = some r → Stored once s id r
  absent : ∀ id, s.filings id = none →
    id ∉ s.pending ∧ id ∉ s.tasks ∧ s.accepted id = 0 ∧ s.claims id = none
  accepted : once → ∀ id, s.accepted id ≤ 1
  dispatched : ∀ id ∈ s.tasks, Added s id

/-- A later record of a filing. -/
structure Follows (once : Prop) (r r' : FilingSubmissionRecord) : Prop where
  maxRetries : r'.maxRetries = r.maxRetries
  final : r.status.final = true → r'.status = r.status
  exhausted : once → (r.attemptCount : Int) = r.maxRetries → r'.attemptCount = r.attemptCount

theorem Follows.refl (once : Prop) (r : FilingSubmissionRecord) : Follows once r r :=
  ⟨rfl, fun _ => rfl, fun _ _ => rfl⟩

theorem Follows.trans {once : Prop} {r r' r'' : FilingSubmissionRecord} (h : Follows once r r')
    (h' : Follows once r' r'') : Follows once r r'' := by
  refine ⟨h'.maxRetries.trans h.maxRetries, fun hfinal => ?_, fun honce hmax => ?_⟩
  · have hstatus := h.final hfinal
    rw [h'.final (by rw [hstatus]; exact hfinal), hstatus]
  · have hcount := h.exhausted honce hmax
    rw [h'.exhausted honce (by rw [hcount, h.maxRetries]; exact hmax), hcount]

/-- Filings stay and follow, and stay in the pending set. -/
structure Grows (once : Prop) (s t : Store ι) : Prop where
  filings : ∀ id r, s.filings id = some r → ∃ r', t.filings id = some r' ∧ Follows once r r'
  added : ∀ id, Added s id → Added t id

theorem Grows.refl (once : Prop) (s : Store ι) : Grows once s s :=
  ⟨fun _ r hr => ⟨r, hr, .refl once r⟩, fun _ h => h⟩

theorem Grows.trans {once : Prop} {s t u : Store ι} (h : Grows once s t) (h' : Grows once t u) :
    Grows once s u := by
  refine ⟨fun id r hr => ?_, fun id hadded => h'.added id (h.added id hadded)⟩
  obtain ⟨r₁, hr₁, hfollows₁⟩ := h.filings id r hr
  obtain ⟨r₂, hr₂, hfollows₂⟩ := h'.filings id r₁ hr₁
  exact ⟨r₂, hr₂, hfollows₁.trans hfollows₂⟩

/-- Nobody else takes, writes or submits the filings in a caller's hand. -/
def Relies (i : ι) (s t : Store ι) : Prop :=
  ∀ id, (t.claims id = some i ↔ s.claims id = some i) ∧
    (s.claims id = some i → t.filings id = s.filings id ∧ t.accepted id = s.accepted id)

/-- What the callers agree on. -/
def filing (once : Prop) : Protocol (Store ι) ι where
  inv := Sound once
  grow := Grows once
  rely := Relies
  done i s := ∀ id, s.claims id ≠ some i
  grow_refl := Grows.refl once
  grow_trans _ _ _ := Grows.trans
  rely_refl _ _ _ := ⟨Iff.rfl, fun _ => ⟨rfl, rfl⟩⟩
  rely_trans i s t u h h' := by
    intro id
    refine ⟨(h' id).1.trans (h id).1, fun hmine => ?_⟩
    obtain ⟨hfilings, haccepted⟩ := (h id).2 hmine
    obtain ⟨hfilings', haccepted'⟩ := (h' id).2 ((h id).1.2 hmine)
    exact ⟨hfilings'.trans hfilings, haccepted'.trans haccepted⟩
  done_rely i s t hdone h := fun id hmine => hdone id ((h id).1.1 hmine)

/-- New filings are PENDING, and every SET to SUBMITTING finds a PENDING filing; with `once`, a new filing
has attempts left, and none was made. -/
def Orderly (once : Prop) (s : Store ι) : Command ι → Prop
  | .create _ record =>
    record.status = .pending ∧ (once → record.attemptCount = 0 ∧ 0 < record.maxRetries)
  | .save _ record => record.status = .submitting →
      ∀ stored, s.filings record.filingId = some stored → stored.status = .pending
  | _ => True

/-- A submission that raises and will be retried has not been accepted. -/
def NotLost : (c : Command ι) → Store ι → Reply c → Store ι → Prop
  | .submit record, s, r, s' => ∀ e : SubmitError, r = Except.error (α := FilingAcknowledgment) e →
      e.transient = true → record.attemptCount < record.maxRetries →
      s'.accepted record.filingId = s.accepted record.filingId
  | _, _, _, _ => True

/-- What a command does; with `once`, retried submissions have not been accepted. -/
def Answers (once : Prop) (c : Command ι) (s : Store ι) (r : Reply c) (s' : Store ι) : Prop :=
  Exec c s r s' ∧ (once → NotLost c s r s')

/-! ## Commands -/

/-- The other filings are as before. -/
structure Only (id : String) (s t : Store ι) : Prop where
  filings : ∀ id', id' ≠ id → t.filings id' = s.filings id'
  pending : ∀ id', id' ≠ id → (id' ∈ t.pending ↔ id' ∈ s.pending)
  accepted : ∀ id', id' ≠ id → t.accepted id' = s.accepted id'
  claims : ∀ id', id' ≠ id → t.claims id' = s.claims id'
  tasks : t.tasks = s.tasks

theorem Only.put {s : Store ι} {r : FilingSubmissionRecord} {claim : Option ι} :
    Only r.filingId s (s.put r claim) := by
  refine ⟨fun id' h => ?_, fun id' h => Iff.rfl, fun id' h => rfl, fun id' h => ?_, rfl⟩
  · exact Function.update_of_ne h _ _
  · exact Function.update_of_ne h _ _

theorem Only.added {id id' : String} {s t : Store ι} (h : Only id s t) (hid : id' ≠ id) :
    Added t id' ↔ Added s id' := by
  unfold Added
  rw [h.filings id' hid, h.pending id' hid]

theorem Only.stored {once : Prop} {id id' : String} {s t : Store ι} (h : Only id s t) (hid : id' ≠ id)
    {r : FilingSubmissionRecord} (hr : Stored once s id' r) : Stored once t id' r := by
  refine ⟨hr.keyed, hr.bounded, fun honce hpending => ?_, fun hsubmitting => ?_, ?_⟩
  · rw [h.accepted id' hid]
    exact hr.untried honce hpending
  · exact (h.pending id' hid).2 (hr.submitting hsubmitting)
  · rw [h.claims id' hid, h.pending id' hid]
    exact hr.claimed

section
variable {once : Prop} {i : ι} {id : String} {s t : Store ι}

/-- A command of a caller at one filing, which is in no other hand before or after. -/
theorem guarantee_of_only (hs : Sound once s) (honly : Only id s t) {r' : FilingSubmissionRecord}
    (hr' : t.filings id = some r') (hstored : Stored once t id r') (haccepted : once → t.accepted id ≤ 1)
    (hfollows : ∀ r, s.filings id = some r → Follows once r r') (hadded : Added s id → Added t id)
    (hbefore : ∀ j, j ≠ i → s.claims id ≠ some j) (hafter : ∀ j, j ≠ i → t.claims id ≠ some j) :
    (filing once).Guarantee i s t := by
  refine ⟨⟨fun id' r hr => ?_, fun id' hnone => ?_, fun honce id' => ?_, fun id' htask => ?_⟩,
    ⟨fun id' r hr => ?_, fun id' hadded' => ?_⟩, fun j hj id' => ?_⟩
  all_goals by_cases hid : id' = id
  · subst hid
    obtain rfl := Option.some.inj (hr'.symm.trans hr)
    exact hstored
  · exact honly.stored hid (hs.stored id' r (by rw [← honly.filings id' hid]; exact hr))
  · subst hid
    rw [hr'] at hnone
    cases hnone
  · rw [honly.filings id' hid] at hnone
    rw [honly.pending id' hid, honly.tasks, honly.accepted id' hid, honly.claims id' hid]
    exact hs.absent id' hnone
  · subst hid
    exact haccepted honce
  · rw [honly.accepted id' hid]
    exact hs.accepted honce id'
  · subst hid
    exact hadded (hs.dispatched id' (by rw [← honly.tasks]; exact htask))
  · rw [honly.added hid]
    exact hs.dispatched id' (by rw [← honly.tasks]; exact htask)
  · subst hid
    exact ⟨r', hr', hfollows r hr⟩
  · exact ⟨r, by rw [honly.filings id' hid]; exact hr, .refl once r⟩
  · subst hid
    exact hadded hadded'
  · rw [honly.added hid]
    exact hadded'
  · subst hid
    exact ⟨iff_of_false (hafter j hj) (hbefore j hj), fun h => absurd h (hbefore j hj)⟩
  · rw [honly.claims id' hid, honly.filings id' hid, honly.accepted id' hid]
    exact ⟨Iff.rfl, fun _ => ⟨rfl, rfl⟩⟩

/-- Tasks of filings that are in the pending set. -/
theorem guarantee_tasks (hs : Sound once s) {tasks : List String}
    (htasks : ∀ id ∈ tasks, Added s id) : (filing once).Guarantee i s { s with tasks := tasks } := by
  refine ⟨⟨fun id r hr => ?_, fun id hnone => ?_, hs.accepted, htasks⟩, ?_, fun j _ id => ?_⟩
  · have h := hs.stored id r hr
    exact ⟨h.keyed, h.bounded, h.untried, h.submitting, h.claimed⟩
  · obtain ⟨hpending, _, haccepted, hclaims⟩ := hs.absent id hnone
    refine ⟨hpending, fun htask => ?_, haccepted, hclaims⟩
    obtain ⟨r, hr, _⟩ := htasks id htask
    rw [show s.filings id = none from hnone] at hr
    cases hr
  · exact ⟨fun id r hr => ⟨r, hr, .refl once r⟩, fun id h => h⟩
  · exact ⟨Iff.rfl, fun _ => ⟨rfl, rfl⟩⟩

theorem guarantee_refl (hs : Sound once s) : (filing once).Guarantee i s s :=
  ⟨hs, .refl once s, fun j _ => (filing once).rely_refl j s⟩

/-- A new filing, in the hand of who has created it. -/
theorem guarantee_create {record : FilingSubmissionRecord} (hs : Sound once s)
    (hnone : s.filings record.filingId = none) (hpending : record.status = .pending)
    (hnew : once → record.attemptCount = 0 ∧ 0 < record.maxRetries) :
    (filing once).Guarantee i s (s.put record (some i)) := by
  obtain ⟨habsent, _, haccepted, hclaims⟩ := hs.absent _ hnone
  refine guarantee_of_only hs .put (Function.update_self ..) ⟨rfl, fun honce => ?_, fun honce _ => ?_,
    fun h => ?_, ?_⟩ (fun _ => by simp [Store.put, haccepted]) (fun r hr => ?_) (fun hadded => ?_)
    (fun j _ => by simp [hclaims]) fun j hj => ?_
  · have := hnew honce
    omega
  · have := hnew honce
    exact ⟨by omega, haccepted⟩
  · rw [hpending] at h
    cases h
  · simp [Store.put, hpending, habsent]
  · rw [hnone] at hr
    cases hr
  · obtain ⟨r, hr, _⟩ := hadded
    rw [hnone] at hr
    cases hr
  · simpa [Store.put] using Ne.symm hj

/-- The filing that a caller has created is added to the pending set. -/
theorem guarantee_sadd (hs : Sound once s) {r : FilingSubmissionRecord} (hr : s.filings id = some r)
    (hpending : r.status = .pending) (hmine : s.claims id = some i) :
    (filing once).Guarantee i s { s with
      pending := s.pending.insert id
      claims := Function.update s.claims id none } := by
  have h := hs.stored id r hr
  refine guarantee_of_only hs (?_ : Only id s _) hr ⟨h.keyed, h.bounded, h.untried, fun _ => ?_, ?_⟩
    (fun honce => hs.accepted honce id) (fun r' hr' => ?_) (fun _ => ⟨r, hr, fun _ => ?_⟩)
    (fun j hj => ?_) fun j hj => ?_
  · refine ⟨fun _ _ => rfl, fun id' hid => ?_, fun _ _ => rfl, fun id' hid => ?_, rfl⟩
    · simp [hid]
    · exact Function.update_of_ne hid _ _
  · simp
  · simp [hpending]
  · obtain rfl := Option.some.inj (hr.symm.trans hr')
    exact .refl once r
  · simp
  · simpa [hmine] using Ne.symm hj
  · simp

/-- A PENDING filing is claimed. -/
theorem guarantee_claim {updated stored : FilingSubmissionRecord} (hs : Sound once s)
    (hr : s.filings updated.filingId = some stored) (hadded : Added s updated.filingId)
    (hpending : stored.status = .pending) (hsubmitting : updated.status = .submitting)
    (hmax : updated.maxRetries = stored.maxRetries)
    (hcount : once → (updated.attemptCount : Int) ≤ updated.maxRetries) :
    (filing once).Guarantee i s (s.put updated (some i)) := by
  have h := hs.stored _ stored hr
  have hmem : updated.filingId ∈ s.pending := by
    obtain ⟨r, hr', hpend⟩ := hadded
    obtain rfl := Option.some.inj (hr.symm.trans hr')
    exact hpend (by rw [hpending]; rfl)
  have hclaims : s.claims updated.filingId = none :=
    h.claimed.2 ⟨by rw [hpending]; simp, fun _ => hmem⟩
  refine guarantee_of_only hs .put (Function.update_self ..) ⟨rfl, hcount, fun _ hp => ?_, fun _ => hmem,
    ?_⟩ (fun honce => hs.accepted honce _) (fun r hr' => ?_) (fun _ => ⟨updated, ?_, fun _ => hmem⟩)
    (fun j _ => by simp [hclaims]) fun j hj => ?_
  · rw [hsubmitting] at hp
    cases hp
  · simp [Store.put, hsubmitting]
  · obtain rfl := Option.some.inj (hr.symm.trans hr')
    refine ⟨hmax, fun hfinal => ?_, fun honce hexhausted => ?_⟩
    · rw [hpending] at hfinal
      cases hfinal
    · have := (h.untried honce hpending).1
      omega
  · exact Function.update_self ..
  · simpa [Store.put] using Ne.symm hj

/-- A result is written to the filing in a caller's hand. -/
theorem guarantee_result {updated stored : FilingSubmissionRecord} (hs : Sound once s)
    (hr : s.filings updated.filingId = some stored) (hmine : s.claims updated.filingId = some i)
    (hsubmitting : stored.status = .submitting) (hresult : updated.status ≠ .submitting)
    (hmax : updated.maxRetries = stored.maxRetries) (hcount : updated.attemptCount = stored.attemptCount)
    (hretry : once → updated.status = .pending →
      stored.attemptCount < stored.maxRetries ∧ s.accepted updated.filingId = 0) :
    (filing once).Guarantee i s (s.put updated none) := by
  have h := hs.stored _ stored hr
  have hmem := h.submitting hsubmitting
  refine guarantee_of_only hs .put (Function.update_self ..) ⟨rfl, fun honce => ?_, fun honce hp => ?_,
    fun _ => hmem, ?_⟩ (fun honce => hs.accepted honce _) (fun r hr' => ?_)
    (fun _ => ⟨updated, ?_, fun _ => hmem⟩) (fun j hj => ?_) fun j hj => ?_
  · rw [hcount, hmax]
    exact h.bounded honce
  · rw [hcount, hmax]
    exact hretry honce hp
  · simp [Store.put, hresult, hmem]
  · obtain rfl := Option.some.inj (hr.symm.trans hr')
    refine ⟨hmax, fun hfinal => ?_, fun _ _ => hcount⟩
    rw [hsubmitting] at hfinal
    cases hfinal
  · exact Function.update_self ..
  · simpa [hmine] using Ne.symm hj
  · simp [Store.put]

/-- A final filing leaves the pending set. -/
theorem guarantee_srem (hs : Sound once s) {r : FilingSubmissionRecord} (hr : s.filings id = some r)
    (hfinal : r.status.final = true) :
    (filing once).Guarantee i s { s with pending := s.pending.filter (· ≠ id) } := by
  have h := hs.stored id r hr
  have hnot : r.status ≠ .submitting ∧ r.status ≠ .pending := by
    cases hstatus : r.status <;> simp_all [FilingStatus.final]
  have hclaims : s.claims id = none := h.claimed.2 ⟨hnot.1, fun hp => absurd hp hnot.2⟩
  refine guarantee_of_only hs (?_ : Only id s _) hr ⟨h.keyed, h.bounded, h.untried,
    fun hp => absurd hp hnot.1, ?_⟩ (fun honce => hs.accepted honce id) (fun r' hr' => ?_)
    (fun _ => ⟨r, hr, fun hp => ?_⟩) (fun j _ => by simp [hclaims]) fun j _ => by simp [hclaims]
  · refine ⟨fun _ _ => rfl, fun id' hid => ?_, fun _ _ => rfl, fun _ _ => rfl, rfl⟩
    simp [hid]
  · simp [hclaims, hnot]
  · obtain rfl := Option.some.inj (hr.symm.trans hr')
    exact .refl once r
  · rw [hfinal] at hp
    cases hp

/-- The filing in a caller's hand is accepted. -/
theorem guarantee_accept (hs : Sound once s) {r : FilingSubmissionRecord} (hr : s.filings id = some r)
    (hsubmitting : r.status = .submitting) (hmine : s.claims id = some i)
    (haccepted : once → s.accepted id = 0) : (filing once).Guarantee i s (s.accept id) := by
  have h := hs.stored id r hr
  refine guarantee_of_only hs (?_ : Only id s _) hr ⟨h.keyed, h.bounded, fun _ hp => ?_, h.submitting,
    h.claimed⟩ (fun honce => ?_) (fun r' hr' => ?_) (fun h => h) (fun j hj => ?_) fun j hj => ?_
  · refine ⟨fun _ _ => rfl, fun _ _ => Iff.rfl, fun id' hid => ?_, fun _ _ => rfl, rfl⟩
    exact Function.update_of_ne hid _ _
  · rw [hsubmitting] at hp
    cases hp
  · simp [Store.accept, haccepted honce]
  · obtain rfl := Option.some.inj (hr.symm.trans hr')
    exact .refl once r
  · simpa [hmine] using Ne.symm hj
  · simpa [Store.accept, hmine] using Ne.symm hj

end

end RegEngine.RegulatoryFiling
