import RegEngine.RegulatoryFiling.Proof.Tasks

/-!
# Runs of the filing queue

The callers `ι` begin an enqueue, a submit task or a sweep when they are at rest, and their commands
interleave. While every SET to SUBMITTING finds a PENDING filing and no retried submission was accepted, a
filing is made at most once (`filing_made_once`); while callers stop only with nothing in hand, a sweep finds
every filing that is left (`filing_not_stranded`).
-/

namespace RegEngine.RegulatoryFiling

open Lib Lib.Programs Lib.RelyGuarantee

inductive Call where
  | enqueue (record : FilingSubmissionRecord)
  | submitFilingTask (settings : Settings)
  | submitPendingFilingsTask (settings : Settings)

section
variable {ι : Type}

def Call.program (i : ι) : Call → Prog (Command ι) Reply (Except FilingError Unit)
  | .enqueue record => (RegulatoryFiling.enqueue i record).run
  | .submitFilingTask settings => (RegulatoryFiling.submitFilingTask i settings).run
  | .submitPendingFilingsTask settings => (do
      let _ ← RegulatoryFiling.submitPendingFilingsTask settings
      return () : FilingM ι Unit).run

/-- A caller begins one of the calls. -/
def Begins (i : ι) (p : Prog (Command ι) Reply (Except FilingError Unit)) : Prop :=
  ∃ call : Call, p = call.program i

abbrev RunState (ι : Type) : Type := State (Command ι) Reply (Except FilingError Unit) (Store ι) ι

/-- No filing, and every caller at rest. -/
def start (ι : Type) : RunState ι :=
  ⟨⟨fun _ => none, [], [], fun _ => 0, fun _ => none⟩, fun _ => .ret (.ok ())⟩

/-- A caller that stops is neither between a claim and the SET of its result, nor between the SET and the
SADD of an enqueue. -/
def NothingInHand (S : RunState ι) (i : ι) : Prop := ∀ id, S.store.claims id ≠ some i

variable [DecidableEq ι]

/-- Every run of commands that do what `Exec'` says and meet `Ok`, with callers that stop where `Stops` says. -/
def FilingRun (Exec' : (c : Command ι) → Store ι → Reply c → Store ι → Prop)
    (Ok : Store ι → Command ι → Prop) (Stops : RunState ι → ι → Prop) : RunState ι → RunState ι → Prop :=
  Relation.ReflTransGen (Serves Exec' Ok Begins Stops (.ok ()))

/-- Every run of commands that are `Orderly`. -/
def OrderlyRun (once : Prop) : RunState ι → RunState ι → Prop :=
  FilingRun (Answers once) (Orderly once) NothingInHand

end

section
variable {ι : Type} {once : Prop} {i : ι} {s : Store ι}

theorem safe_program (call : Call) (h : Holds i none s.claims) :
    Safe (filing once) (Answers once) (Orderly once) i (fun _ s => Holds i none s.claims) (call.program i) s := by
  cases call with
  | enqueue record => exact safe_enqueue record h
  | submitFilingTask settings => exact safe_submitFilingTask settings h
  | submitPendingFilingsTask settings =>
    exact (safe_submitPendingFilingsTask settings h).then fun _ _ hfree => safe_return hfree

theorem global_start : Global (filing once) (Answers once) (Orderly once) (start ι) := by
  refine ⟨⟨fun id r hr => ?_, fun id _ => ?_, fun _ id => Nat.zero_le 1, fun id hid => ?_⟩,
    fun i id hmine => ?_⟩
  · cases hr
  · simp [start]
  · cases hid
  · cases hmine

/-! ## Sweeps -/

/-- What a sweep that runs alone returns. -/
theorem sweepPending_returns (hkeyed : ∀ id r, s.filings id = some r → r.filingId = id)
    {a : Except FilingError (List String)} {s' : Store ι} (h : Runs Exec sweepPending.run s a s') :
    ∃ ids, a = .ok ids ∧
      ∀ id, id ∈ ids ↔ id ∈ s.pending ∧ ∃ r, s.filings id = some r ∧ r.status = .pending := by
  have hget : ∀ id b t, Runs Exec (get id : FilingM ι _).run s b t ↔ b = .ok (s.filings id) ∧ t = s := by
    intro id b t
    constructor
    · intro h
      cases h with
      | cmd hexec hrest =>
        cases hexec with
        | get =>
          cases hrest with
          | ret => exact ⟨rfl, rfl⟩
    · rintro ⟨rfl, rfl⟩
      exact .cmd (.get id) .ret
  obtain ⟨found, t, hlist, hrest⟩ := runs_bind_iff.1 h
  obtain ⟨ids, t', hexec, hlist⟩ := Proc.runs_send_bind_iff.1 hlist
  cases hexec with
  | smembers ids hperm =>
    rw [Proc.runs_bind_ok_iff fun _ _ => Proc.runs_mapM_iff hget ids] at hlist
    obtain ⟨rfl, rfl⟩ := Proc.runs_pure_iff.1 hlist
    obtain ⟨rfl, _⟩ := Proc.runs_pure_iff.1 hrest
    refine ⟨_, rfl, fun id => ?_⟩
    simp only [List.mem_map, List.mem_filter, (List.perm_insertionSort _ _).mem_iff, List.mem_filterMap,
      decide_eq_true_eq]
    constructor
    · rintro ⟨r, ⟨⟨_, hfound, rfl⟩, hpending⟩, rfl⟩
      obtain ⟨id', hid', hr⟩ := List.mem_map.1 hfound
      obtain rfl := hkeyed id' r hr
      exact ⟨hperm.mem_iff.1 hid', r, hr, hpending⟩
    · rintro ⟨hmem, r, hr, hpending⟩
      exact ⟨r, ⟨⟨_, List.mem_map.2 ⟨id, hperm.mem_iff.2 hmem, rfl⟩, hr⟩, hpending⟩, hkeyed id r hr⟩

/-- Every caller is at rest, or has still to add another filing to the pending set. -/
def AtRest (S : RunState ι) (id : String) : Prop :=
  ∀ i, (∃ a, S.prog i = .ret a) ∨
    ∃ id' a, id' ≠ id ∧ S.prog i = .cmd (.sadd id') fun _ : Unit => .ret a

/-- Final, or found by the next sweep. -/
def NotStranded (s : Store ι) (id : String) (r : FilingSubmissionRecord) : Prop :=
  r.status.final = true ∨ ∀ a s', Runs Exec sweepPending.run s a s' → ∃ ids, a = .ok ids ∧ id ∈ ids

/-- Callers at rest have nothing in hand. -/
theorem AtRest.unclaimed {S : RunState ι} {id : String}
    (hS : Global (filing once) (Answers once) (Orderly once) S) (h : AtRest S id) : S.store.claims id = none := by
  cases hclaim : S.store.claims id with
  | none => rfl
  | some i =>
    have hsafe := hS.safe i
    rcases h i with ⟨a, hprog⟩ | ⟨id', a, hid, hprog⟩
    · rw [hprog] at hsafe
      exact absurd hclaim (hsafe id)
    · rw [hprog] at hsafe
      have hexec : Answers once (.sadd id') S.store () _ := ⟨.sadd id', fun _ => trivial⟩
      have hdone := (hsafe S.store hS.inv (Grows.refl once _) ((filing once).rely_refl i _) () _ trivial
        hexec).2 id
      have hsame : Function.update S.store.claims id' none id = S.store.claims id :=
        Function.update_of_ne (Ne.symm hid) _ _
      exact absurd (hsame.trans hclaim) hdone

/-! ## Runs -/

variable [DecidableEq ι] {S S' : RunState ι}

theorem OrderlyRun.keeps (hS : Global (filing once) (Answers once) (Orderly once) S)
    (h : OrderlyRun once S S') :
    Global (filing once) (Answers once) (Orderly once) S' ∧ Grows once S.store S'.store := by
  refine safe_serving hS ?_ (fun S i hstops => hstops) h
  rintro i p s ⟨call, rfl⟩ hdone
  exact (safe_program call (holds_none_iff.2 hdone)).imp fun _ _ hfree => holds_none_iff.1 hfree

/-- Accepted at most once, no more attempts than allowed, and a final status stays. -/
def MadeOnce (s s' : Store ι) (id : String) : Prop :=
  s.accepted id ≤ 1 ∧ ∀ r, s.filings id = some r →
    (r.attemptCount : Int) ≤ r.maxRetries ∧
      (r.status.final = true → ∃ r', s'.filings id = some r' ∧ r'.status = r.status)

theorem filing_made_once (h : OrderlyRun True (start ι) S) (h' : OrderlyRun True S S') (id : String) :
    MadeOnce S.store S'.store id := by
  obtain ⟨hglobal, _⟩ := OrderlyRun.keeps global_start h
  obtain ⟨_, hgrows⟩ := OrderlyRun.keeps hglobal h'
  refine ⟨hglobal.inv.accepted trivial id, fun r hr => ⟨?_, fun hfinal => ?_⟩⟩
  · exact (hglobal.inv.stored id r hr).bounded trivial
  · obtain ⟨r', hr', hfollows⟩ := hgrows.filings id r hr
    exact ⟨r', hr', hfollows.final hfinal⟩

theorem filing_not_stranded (h : OrderlyRun False (start ι) S) {id : String} (hrest : AtRest S id)
    {r : FilingSubmissionRecord} (hr : S.store.filings id = some r) : NotStranded S.store id r := by
  obtain ⟨hglobal, _⟩ := OrderlyRun.keeps global_start h
  have hstored := hglobal.inv.stored id r hr
  obtain ⟨hsubmitting, hpending⟩ := hstored.claimed.1 (hrest.unclaimed hglobal)
  cases hstatus : r.status with
  | acknowledged => exact .inl (by rw [hstatus]; rfl)
  | failed => exact .inl (by rw [hstatus]; rfl)
  | submitting => exact absurd hstatus hsubmitting
  | pending =>
    refine .inr fun a s' hrun => ?_
    obtain ⟨ids, rfl, hids⟩ := sweepPending_returns (fun id r hr => (hglobal.inv.stored id r hr).keyed) hrun
    exact ⟨ids, rfl, (hids id).2 ⟨hpending hstatus, r, hr, hstatus⟩⟩

end

/-! ## Samples -/

def sampleFiling : FilingSubmissionRecord where
  filingId := "f1"
  filingType := .dailyCollateral
  target := "SEBI"
  channel := .portalApi
  filename := "daily_collateral.xml"
  contentType := "application/xml"
  status := .pending
  attemptCount := 0
  maxRetries := 5
  lastError := none
  submittedAt := none
  acknowledgment := none
  createdAt := 0

def claimedFiling : FilingSubmissionRecord := { sampleFiling with status := .submitting, attemptCount := 1 }

def sampleAcknowledgment : FilingAcknowledgment := ⟨"ACK-1", 0, none⟩

/-- One caller enqueues a filing, sweeps, and submits it. -/
theorem filing_made_once_acknowledged : ∃ S : RunState Unit, OrderlyRun True (start Unit) S ∧
    (S.store.filings "f1").map FilingSubmissionRecord.status = some .acknowledged ∧
      MadeOnce S.store S.store "f1" := by
  have henqueue : OrderlyRun True (start Unit) _ := serves_of_advances (i := ()) rfl
    ⟨.enqueue sampleFiling, rfl⟩
    (.cmd ⟨⟨rfl, fun _ => by decide⟩, .create () sampleFiling rfl, fun _ => trivial⟩
      (.cmd ⟨trivial, .sadd "f1", fun _ => trivial⟩ .refl))
  have hsweep := henqueue.trans (serves_of_advances (i := ()) rfl
    ⟨.submitPendingFilingsTask ⟨true⟩, rfl⟩
    (.cmd ⟨trivial, .smembers ["f1"] (.refl _), fun _ => trivial⟩
      (.cmd ⟨trivial, .get "f1", fun _ => trivial⟩
        (.cmd ⟨trivial, .dispatch "f1", fun _ => trivial⟩ .refl))))
  have htask := hsweep.trans (serves_of_advances (i := ()) rfl
    ⟨.submitFilingTask ⟨true⟩, rfl⟩
    (.cmd ⟨trivial, .receive [] [] "f1" rfl, fun _ => trivial⟩
      (.cmd ⟨trivial, .get "f1", fun _ => trivial⟩
        (.cmd ⟨trivial, .get "f1", fun _ => trivial⟩
          (.cmd ⟨(fun _ stored hstored => by rw [← Option.some.inj hstored]; rfl),
              .save () claimedFiling, fun _ => trivial⟩
            (.cmd ⟨trivial, .acknowledged claimedFiling sampleAcknowledgment,
                (fun _ _ h => by cases h)⟩
              (.cmd ⟨trivial, .get "f1", fun _ => trivial⟩
                (.cmd ⟨trivial, .clock 0, fun _ => trivial⟩
                  (.cmd ⟨(fun h => by cases h), .save () _, fun _ => trivial⟩
                    (.cmd ⟨trivial, .srem "f1", fun _ => trivial⟩ .refl))))))))))
  exact ⟨_, htask, rfl, filing_made_once htask .refl "f1"⟩

/-- Two sweeps dispatch the filing before the first task runs, and both tasks submit it. -/
theorem not_forall_filing_made_once :
    ¬ ∀ S S' : RunState (Fin 2),
      FilingRun Exec (fun _ _ => True) (fun _ _ => False) (start (Fin 2)) S →
      FilingRun Exec (fun _ _ => True) (fun _ _ => False) S S' →
      ∀ id, MadeOnce S.store S'.store id := by
  intro h
  have henqueue : FilingRun Exec (fun _ _ => True) (fun _ _ => False) (start (Fin 2)) _ :=
    serves_of_advances (i := 0) rfl ⟨.enqueue sampleFiling, rfl⟩
      (.cmd ⟨trivial, .create 0 sampleFiling rfl⟩ (.cmd ⟨trivial, .sadd "f1"⟩ .refl))
  have hsweep := henqueue.trans (serves_of_advances (i := 0) rfl ⟨.submitPendingFilingsTask ⟨true⟩, rfl⟩
    (.cmd ⟨trivial, .smembers ["f1"] (.refl _)⟩
      (.cmd ⟨trivial, .get "f1"⟩ (.cmd ⟨trivial, .dispatch "f1"⟩ .refl))))
  have hagain := hsweep.trans (serves_of_advances (i := 0) rfl ⟨.submitPendingFilingsTask ⟨true⟩, rfl⟩
    (.cmd ⟨trivial, .smembers ["f1"] (.refl _)⟩
      (.cmd ⟨trivial, .get "f1"⟩ (.cmd ⟨trivial, .dispatch "f1"⟩ .refl))))
  have hfirst := hagain.trans (serves_of_advances (i := 0) rfl ⟨.submitFilingTask ⟨true⟩, rfl⟩
    (.cmd ⟨trivial, .receive [] ["f1"] "f1" rfl⟩ (.cmd ⟨trivial, .get "f1"⟩ (.cmd ⟨trivial, .get "f1"⟩
      (.cmd ⟨trivial, .save 0 claimedFiling⟩
        (.cmd ⟨trivial, .acknowledged claimedFiling sampleAcknowledgment⟩ .refl))))))
  have hsecond := hfirst.trans (serves_of_advances (i := 1) rfl ⟨.submitFilingTask ⟨true⟩, rfl⟩
    (.cmd ⟨trivial, .receive [] [] "f1" rfl⟩ (.cmd ⟨trivial, .get "f1"⟩ (.cmd ⟨trivial, .get "f1"⟩
      (.cmd ⟨trivial, .save 1 { claimedFiling with attemptCount := 2 }⟩
        (.cmd ⟨trivial, .acknowledged { claimedFiling with attemptCount := 2 } sampleAcknowledgment⟩
          .refl))))))
  exact absurd (h _ _ hsecond .refl "f1").1 (by decide)

theorem filing_not_stranded_enqueued : ∃ S : RunState Unit, OrderlyRun False (start Unit) S ∧
    S.store.filings "f1" = some sampleFiling ∧ NotStranded S.store "f1" sampleFiling := by
  have henqueue : OrderlyRun False (start Unit) _ := serves_of_advances (i := ()) rfl
    ⟨.enqueue sampleFiling, rfl⟩
    (.cmd ⟨⟨rfl, fun h => h.elim⟩, .create () sampleFiling rfl, fun _ => trivial⟩
      (.cmd ⟨trivial, .sadd "f1", fun _ => trivial⟩ .refl))
  exact ⟨_, henqueue, rfl, filing_not_stranded henqueue (fun _ => .inl ⟨_, rfl⟩) rfl⟩

/-- A worker claims the filing and stops before it submits. -/
theorem not_forall_filing_not_stranded :
    ¬ ∀ S : RunState Unit, FilingRun Exec (fun _ _ => True) (fun _ _ => True) (start Unit) S →
      S.store.tasks = [] → ∀ id r, AtRest S id → S.store.filings id = some r →
        NotStranded S.store id r := by
  intro h
  have henqueue : FilingRun Exec (fun _ _ => True) (fun _ _ => True) (start Unit) _ :=
    serves_of_advances (i := ()) rfl ⟨.enqueue sampleFiling, rfl⟩
      (.cmd ⟨trivial, .create () sampleFiling rfl⟩ (.cmd ⟨trivial, .sadd "f1"⟩ .refl))
  have hsweep := henqueue.trans (serves_of_advances (i := ()) rfl ⟨.submitPendingFilingsTask ⟨true⟩, rfl⟩
    (.cmd ⟨trivial, .smembers ["f1"] (.refl _)⟩
      (.cmd ⟨trivial, .get "f1"⟩ (.cmd ⟨trivial, .dispatch "f1"⟩ .refl))))
  have hclaim := hsweep.trans (serves_of_advances (i := ()) rfl ⟨.submitFilingTask ⟨true⟩, rfl⟩
    (.cmd ⟨trivial, .receive [] [] "f1" rfl⟩ (.cmd ⟨trivial, .get "f1"⟩ (.cmd ⟨trivial, .get "f1"⟩
      (.cmd ⟨trivial, .save () claimedFiling⟩ .refl)))))
  have hstop := hclaim.tail (.stops () trivial)
  rcases h _ hstop rfl "f1" claimedFiling (fun _ => .inl ⟨.ok (), rfl⟩) rfl with hfinal | hswept
  · cases hfinal
  · obtain ⟨ids, hids, hmem⟩ := hswept (.ok []) _
      (.cmd (.smembers ["f1"] (.refl _)) (.cmd (.get "f1") .ret))
    obtain rfl := Except.ok.inj hids
    cases hmem

end RegEngine.RegulatoryFiling
