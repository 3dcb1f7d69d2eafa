import RegEngine.Lib.JsonText
import RegEngine.Negotiation.ArbitrationStore

/-!
# What the seal of a transcript covers

* `canonicalStr_eq_iff`: the hashed text determines the ids, the outcome, the number of rounds and the
  verdict, and nothing else.
* `tamperEvident_iff`: which copies `get_transcript` returns although they are not the saved one.
-/

namespace RegEngine.Negotiation

open Lib Lib.Calendar Lib.Python Lib.Sha256

/-! ## The hashed text -/

theorem AgentRole.value_inj {a b : AgentRole} (h : a.value = b.value) : a = b := by
  cases a <;> cases b <;> first | rfl | (revert h; decide)

theorem ArbitrationOutcome.value_inj {a b : ArbitrationOutcome} (h : a.value = b.value) : a = b := by
  cases a <;> cases b <;> first | rfl | (revert h; decide)

theorem sortKeys_dumpText (s : Option String) : (dumpText s).sortKeys = dumpText s := by
  cases s <;> rfl

theorem dumpText_inj {s t : Option String} (h : dumpText s = dumpText t) : s = t := by
  cases s <;> cases t <;> simp_all [dumpText]

theorem sortKeys_dumpTexts (l : List String) : (dumpTexts l).sortKeys = dumpTexts l := by
  rw [dumpTexts, Json.sortKeys, Json.sortItems_eq_map, List.map_map]
  rfl

theorem dumpTexts_inj {l m : List String} (h : dumpTexts l = dumpTexts m) : l = m :=
  List.map_injective_iff.2 (fun _ _ => Json.str.inj) (Json.arr.inj h)

theorem ModelAttribution.modelDump_inj {a b : ModelAttribution}
    (h : a.modelDump.sortKeys = b.modelDump.sortKeys) : a = b := by
  have field : ∀ k, (a.modelDump.get? k).map Json.sortKeys = (b.modelDump.get? k).map Json.sortKeys :=
    Json.field_of_sortKeys_eq (by simp) (by simp) h
  apply ModelAttribution.ext
  · exact AgentRole.value_inj (by simpa [modelDump, Json.get?, Json.sortKeys] using field "agent_role")
  · simpa [modelDump, Json.get?, Json.sortKeys] using field "provider_type"
  · simpa [modelDump, Json.get?, Json.sortKeys] using field "model_name"
  · apply dumpText_inj
    simpa [modelDump, Json.get?, sortKeys_dumpText] using field "checkpoint_id"
  · apply Subtype.ext
    simpa [modelDump, Json.get?, Json.sortKeys] using field "temperature"

theorem CanonicalFactClaim.modelDump_inj {f g : CanonicalFactClaim}
    (h : f.modelDump.sortKeys = g.modelDump.sortKeys) : f = g := by
  have field : ∀ k, (f.modelDump.get? k).map Json.sortKeys = (g.modelDump.get? k).map Json.sortKeys :=
    Json.field_of_sortKeys_eq (by simp) (by simp) h
  apply CanonicalFactClaim.ext
  · simpa [modelDump, Json.get?, Json.sortKeys] using field "metric"
  · apply dumpText_inj
    simpa [modelDump, Json.get?, sortKeys_dumpText] using field "canonical_fact"
  · simpa [modelDump, Json.get?, Json.sortKeys] using field "operator"
  · simpa [modelDump, Json.get?, Json.sortKeys] using field "value"
  · simpa [modelDump, Json.get?, Json.sortKeys] using field "unit"
  · simpa [modelDump, Json.get?, Json.sortKeys] using field "verbatim_evidence"

/-- Lists of values that are each determined by what is written of them. -/
theorem sortKeys_arr_inj {α : Type} {dump : α → Json} {l m : List α}
    (hinj : ∀ a b, (dump a).sortKeys = (dump b).sortKeys → a = b)
    (h : (Json.arr (l.map dump)).sortKeys = (Json.arr (m.map dump)).sortKeys) : l = m := by
  rw [Json.sortKeys, Json.sortKeys, Json.sortItems_eq_map, Json.sortItems_eq_map, List.map_map,
    List.map_map] at h
  exact List.map_injective_iff.2 hinj (Json.arr.inj h)

theorem RejectedClaim.fields_inj {r s : RejectedClaim}
    (h : r.fields.sortKeys = s.fields.sortKeys) : r = s :=
  RejectedClaim.ext (by rw [← r.ordered, h, s.ordered])

theorem ArbiterVerdict.modelDump_inj {v w : ArbiterVerdict}
    (h : v.modelDump.sortKeys = w.modelDump.sortKeys) : v = w := by
  have field : ∀ k, (v.modelDump.get? k).map Json.sortKeys = (w.modelDump.get? k).map Json.sortKeys :=
    Json.field_of_sortKeys_eq (by simp) (by simp) h
  apply ArbiterVerdict.ext
  · simpa [modelDump, Json.get?, Json.sortKeys] using field "verdict_id"
  · exact ArbitrationOutcome.value_inj
      (by simpa [modelDump, Json.get?, Json.sortKeys] using field "outcome")
  · apply dumpText_inj
    simpa [modelDump, Json.get?, sortKeys_dumpText] using field "chosen_interpretation"
  · apply sortKeys_arr_inj (fun _ _ => CanonicalFactClaim.modelDump_inj)
    simpa [modelDump, Json.get?] using field "accepted_canonical_facts"
  · apply sortKeys_arr_inj (fun _ _ => RejectedClaim.fields_inj)
    simpa [modelDump, Json.get?] using field "rejected_claims"
  · apply Subtype.ext
    simpa [modelDump, Json.get?, Json.sortKeys] using field "confidence"
  · simpa [modelDump, Json.get?, Json.sortKeys] using field "justification"
  · apply ModelAttribution.modelDump_inj
    simpa [modelDump, Json.get?] using field "attribution"
  · apply dumpText_inj
    simpa [modelDump, Json.get?, sortKeys_dumpText] using field "hitl_escalation_reason"
  · simpa [modelDump, Json.get?, Json.sortKeys] using field "same_model_risk"
  · apply dumpTexts_inj
    simpa [modelDump, Json.get?, sortKeys_dumpTexts] using field "security_flags"
  · apply Timestamp.text_inj
    simpa [modelDump, Json.get?, Json.sortKeys] using field "decided_at"

/-- The transcripts agree on what is hashed. -/
structure SameHashed (s t : ArbitrationTranscript) : Prop where
  sessionId : s.sessionId = t.sessionId
  tenantId : s.tenantId = t.tenantId
  circularId : s.circularId = t.circularId
  clauseId : s.clauseId = t.clauseId
  sourceDocumentSha256 : s.sourceDocumentSha256 = t.sourceDocumentSha256
  clauseSha256 : s.clauseSha256 = t.clauseSha256
  finalOutcome : s.finalOutcome = t.finalOutcome
  roundsCount : s.rounds.length = t.rounds.length
  arbiterVerdict : s.arbiterVerdict = t.arbiterVerdict

theorem dumpVerdict_inj {v w : Option ArbiterVerdict}
    (h : (dumpVerdict v).sortKeys = (dumpVerdict w).sortKeys) : v = w := by
  cases v with
  | none =>
    cases w with
    | none => rfl
    | some w => simp [dumpVerdict, ArbiterVerdict.modelDump, Json.sortKeys] at h
  | some v =>
    cases w with
    | none => simp [dumpVerdict, ArbiterVerdict.modelDump, Json.sortKeys] at h
    | some w => exact congrArg some (ArbiterVerdict.modelDump_inj h)

/-- **The hashed text covers nine things.** -/
theorem canonicalStr_eq_iff {s t : ArbitrationTranscript} :
    s.canonicalStr = t.canonicalStr ↔ SameHashed s t := by
  constructor
  · intro h
    have field : ∀ k, (s.data.get? k).map Json.sortKeys = (t.data.get? k).map Json.sortKeys :=
      Json.field_of_sortKeys_eq (by simp) (by simp) (Json.dumps_eq_iff.1 h)
    constructor
    · simpa [ArbitrationTranscript.data, Json.get?, Json.sortKeys] using field "session_id"
    · simpa [ArbitrationTranscript.data, Json.get?, Json.sortKeys] using field "tenant_id"
    · simpa [ArbitrationTranscript.data, Json.get?, Json.sortKeys] using field "circular_id"
    · simpa [ArbitrationTranscript.data, Json.get?, Json.sortKeys] using field "clause_id"
    · simpa [ArbitrationTranscript.data, Json.get?, Json.sortKeys] using
        field "source_document_sha256"
    · simpa [ArbitrationTranscript.data, Json.get?, Json.sortKeys] using field "clause_sha256"
    · apply ArbitrationOutcome.value_inj
      simpa [ArbitrationTranscript.data, Json.get?, Json.sortKeys] using field "final_outcome"
    · simpa [ArbitrationTranscript.data, Json.get?, Json.sortKeys] using field "rounds_count"
    · apply dumpVerdict_inj
      simpa [ArbitrationTranscript.data, Json.get?] using field "verdict"
  · rintro ⟨h1, h2, h3, h4, h5, h6, h7, h8, h9⟩
    unfold ArbitrationTranscript.canonicalStr ArbitrationTranscript.data
    rw [h1, h2, h3, h4, h5, h6, h7, h8, h9]

/-! ## What a read returns -/

/-- What pydantic reads in the stored copy. -/
def StoredCopy (J : TranscriptJson) (answer : RedisAnswer) (store : ArbitrationTranscriptStore)
    (tenantId sessionId : String) (loaded : ArbitrationTranscript) : Prop :=
  ∃ raw, store.rawJson answer tenantId sessionId = some raw ∧
    J.modelValidateJson raw = some loaded

theorem getTranscript_eq_some_iff {J : TranscriptJson} {answer : RedisAnswer}
    {store : ArbitrationTranscriptStore} {tenantId sessionId : String}
    {loaded : ArbitrationTranscript} :
    store.getTranscript J answer tenantId sessionId = .ok (some loaded) ↔
      strip tenantId ≠ "" ∧ StoredCopy J answer store tenantId sessionId loaded ∧
        loaded.tenantId = tenantId ∧ loaded.computeHash = loaded.transcriptSha256 := by
  unfold ArbitrationTranscriptStore.getTranscript StoredCopy
  by_cases hblank : strip tenantId = ""
  · simp [hblank]
  rw [if_neg hblank]
  cases hraw : store.rawJson answer tenantId sessionId with
  | none => simp
  | some raw =>
    cases hload : J.modelValidateJson raw with
    | none => simp [hload]
    | some transcript =>
      simp only [hload, Option.some.injEq, exists_eq_left', ne_eq, hblank, not_false_eq_true,
        true_and]
      by_cases htenant : transcript.tenantId = tenantId
      · rw [if_neg (not_not.2 htenant)]
        by_cases hseal : transcript.computeHash = transcript.transcriptSha256
        · rw [if_neg (not_not.2 hseal)]
          constructor
          · rintro ⟨⟩
            exact ⟨rfl, htenant, hseal⟩
          · rintro ⟨rfl, -, -⟩
            rfl
        · rw [if_pos hseal]
          constructor
          · rintro ⟨⟩
          · rintro ⟨rfl, -, hsealed⟩
            exact absurd hsealed hseal
      · rw [if_pos htenant]
        constructor
        · rintro ⟨⟩
        · rintro ⟨rfl, hsame, -⟩
          exact absurd hsame htenant

/-- A read that Redis answers like the write finds the text that was written. -/
theorem rawJson_write (store : ArbitrationTranscriptStore) (answer : RedisAnswer)
    (tenantId sessionId payload : String) :
    (store.write answer (store.transcriptKey tenantId sessionId) payload).rawJson answer tenantId
      sessionId = some payload := by
  obtain ⟨pre, redis, memory⟩ := store
  cases redis <;> cases answer <;> exact Function.update_self ..

theorem saveTranscript_eq_ok_iff {J : TranscriptJson} {answer : RedisAnswer}
    {store : ArbitrationTranscriptStore} {t : ArbitrationTranscript}
    {result : ArbitrationTranscript × ArbitrationTranscriptStore} :
    store.saveTranscript J answer t = .ok result ↔ strip t.tenantId ≠ "" ∧
      result = (t.sealed, store.write answer (store.transcriptKey t.tenantId t.sessionId)
        (J.modelDumpJson t.sealed)) := by
  unfold ArbitrationTranscriptStore.saveTranscript
  by_cases hblank : strip t.tenantId = ""
  · simp [hblank]
  · rw [if_neg hblank]
    constructor
    · rintro ⟨⟩
      exact ⟨hblank, rfl⟩
    · rintro ⟨-, rfl⟩
      rfl

/-- The seal of a transcript is its own hash. -/
theorem computeHash_sealed (t : ArbitrationTranscript) :
    t.sealed.computeHash = t.sealed.transcriptSha256 := rfl

/-- **A saved transcript is read back** while nobody touches the copy, when pydantic reads what it has
written. -/
theorem getTranscript_saveTranscript {J : TranscriptJson} {answer : RedisAnswer}
    {store store' : ArbitrationTranscriptStore} {t saved : ArbitrationTranscript}
    (hread : J.modelValidateJson (J.modelDumpJson t.sealed) = some t.sealed)
    (hsave : store.saveTranscript J answer t = .ok (saved, store')) :
    store'.getTranscript J answer saved.tenantId saved.sessionId = .ok (some saved) := by
  obtain ⟨hblank, heq⟩ := saveTranscript_eq_ok_iff.1 hsave
  obtain ⟨rfl, rfl⟩ := Prod.mk.inj heq
  exact getTranscript_eq_some_iff.2
    ⟨hblank, ⟨_, rawJson_write store answer _ _ _, hread⟩, rfl, computeHash_sealed t⟩

/-! ## Altered copies -/

/-- A read of the saved transcript fails, finds nothing or returns it. -/
def TamperEvident (J : TranscriptJson) (answer : RedisAnswer) (store : ArbitrationTranscriptStore)
    (saved : ArbitrationTranscript) : Prop :=
  ∀ loaded, store.getTranscript J answer saved.tenantId saved.sessionId = .ok (some loaded) →
    loaded = saved

/-- What gives a copy away: another tenant, a change in the hashed fields under the old digest, or a
new digest that is not its own. -/
def Exposed (saved loaded : ArbitrationTranscript) : Prop :=
  loaded.tenantId ≠ saved.tenantId ∨
    (loaded.transcriptSha256 = saved.transcriptSha256 ∧ ¬ SameHashed loaded saved) ∨
    (loaded.transcriptSha256 ≠ saved.transcriptSha256 ∧
      loaded.transcriptSha256 ≠ hexdigest loaded.canonicalStr)

/-- The texts hashed when a transcript is saved and when its copy is read. -/
def hashedTexts (J : TranscriptJson) (answer : RedisAnswer) (store : ArbitrationTranscriptStore)
    (saved : ArbitrationTranscript) : Set String :=
  {s | s = saved.canonicalStr ∨ ∃ loaded,
    StoredCopy J answer store saved.tenantId saved.sessionId loaded ∧ s = loaded.canonicalStr}

/-- **Tampering is evident** exactly when every copy that is not the saved transcript is given away by
its tenant, by a hashed field or by its digest. -/
theorem tamperEvident_iff {J : TranscriptJson} {answer answer' : RedisAnswer}
    {store store' : ArbitrationTranscriptStore} {t saved : ArbitrationTranscript}
    (hsave : store.saveTranscript J answer t = .ok (saved, store'))
    (altered : ArbitrationTranscriptStore)
    (hhash : Set.InjOn hexdigest (hashedTexts J answer' altered saved)) :
    TamperEvident J answer' altered saved ↔
      ∀ loaded, StoredCopy J answer' altered saved.tenantId saved.sessionId loaded →
        loaded = saved ∨ Exposed saved loaded := by
  obtain ⟨hblank, heq⟩ := saveTranscript_eq_ok_iff.1 hsave
  obtain ⟨rfl, -⟩ := Prod.mk.inj heq
  constructor
  · intro hevident loaded hcopy
    by_cases hsame : loaded = t.sealed
    · exact .inl hsame
    refine .inr ?_
    by_cases htenant : loaded.tenantId = t.sealed.tenantId
    · have hbroken : loaded.computeHash ≠ loaded.transcriptSha256 := fun hseal =>
        hsame (hevident loaded (getTranscript_eq_some_iff.2 ⟨hblank, hcopy, htenant, hseal⟩))
      by_cases hdigest : loaded.transcriptSha256 = t.sealed.transcriptSha256
      · refine .inr (.inl ⟨hdigest, fun hcovered => hbroken ?_⟩)
        rw [hdigest, ← computeHash_sealed, ArbitrationTranscript.computeHash,
          canonicalStr_eq_iff.2 hcovered, ArbitrationTranscript.computeHash]
      · exact .inr (.inr ⟨hdigest, hbroken.symm⟩)
    · exact .inl htenant
  · intro hexposed loaded hread
    obtain ⟨-, hcopy, htenant, hseal⟩ := getTranscript_eq_some_iff.1 hread
    rcases hexposed loaded hcopy with hsame | hother | ⟨hdigest, hcovered⟩ | ⟨-, hbroken⟩
    · exact hsame
    · exact absurd htenant hother
    · refine absurd (canonicalStr_eq_iff.1 (hhash (.inr ⟨loaded, hcopy, rfl⟩) (.inl rfl) ?_)) hcovered
      rw [← ArbitrationTranscript.computeHash, hseal, hdigest]
      rfl
    · exact absurd hseal.symm hbroken

/-! ## A copy with another source text -/

/-- The first moment of 2026. -/
def firstOf2026 : Timestamp where
  wall := 739616 * dayMicros

def marginTranscript : ArbitrationTranscript where
  sessionId := "s-1"
  tenantId := "tenant-alpha"
  circularId := "SEBI/2026/01"
  clauseId := "clause-101"
  sourceDocumentSha256 := "aaaa"
  clauseSha256 := "bbbb"
  untrustedSourceText := "Collect upfront margin of 20%."
  startedAt := firstOf2026

/-- The saved transcript, but for the text of its clause. -/
def halvedTranscript : ArbitrationTranscript :=
  { marginTranscript.sealed with untrustedSourceText := "Collect upfront margin of 10%." }

/-- The JSON text of a transcript that was not arbitrated yet. -/
def openText (t : ArbitrationTranscript) : String :=
  (Json.obj [("session_id", .str t.sessionId), ("tenant_id", .str t.tenantId),
    ("circular_id", .str t.circularId), ("clause_id", .str t.clauseId),
    ("source_document_sha256", .str t.sourceDocumentSha256),
    ("clause_sha256", .str t.clauseSha256), ("untrusted_source_text", .str t.untrustedSourceText),
    ("rounds", .arr []), ("arbiter_verdict", .null), ("final_outcome", .str t.finalOutcome.value),
    ("transcript_sha256", .str t.transcriptSha256), ("hitl_review_id", .null),
    ("started_at", .str t.startedAt.text), ("completed_at", .null),
    ("duration_seconds", .null)]).render

/-- pydantic, on the text of the altered transcript. -/
def halvedJson : TranscriptJson where
  modelDumpJson := openText
  modelValidateJson raw := if raw = openText halvedTranscript then some halvedTranscript else none

/-- An empty store in memory. -/
def emptyStore : ArbitrationTranscriptStore := {}

def savedStore : ArbitrationTranscriptStore :=
  emptyStore.write .ok (emptyStore.transcriptKey "tenant-alpha" "s-1")
    (openText marginTranscript.sealed)

def alteredStore : ArbitrationTranscriptStore :=
  emptyStore.write .ok (emptyStore.transcriptKey "tenant-alpha" "s-1") (openText halvedTranscript)

theorem save_marginTranscript : emptyStore.saveTranscript halvedJson .ok marginTranscript =
    .ok (marginTranscript.sealed, savedStore) := by
  refine saveTranscript_eq_ok_iff.2 ⟨?_, rfl⟩
  show strip "tenant-alpha" ≠ ""
  decide

theorem storedCopy_halved {loaded : ArbitrationTranscript} :
    StoredCopy halvedJson .ok alteredStore "tenant-alpha" "s-1" loaded ↔
      loaded = halvedTranscript := by
  unfold StoredCopy alteredStore
  rw [rawJson_write]
  simp [halvedJson, eq_comm]

theorem halvedTranscript_ne : halvedTranscript ≠ marginTranscript.sealed := fun h =>
  absurd (congrArg (·.untrustedSourceText) h) (by decide)

theorem sameHashed_halved : SameHashed halvedTranscript marginTranscript.sealed :=
  ⟨rfl, rfl, rfl, rfl, rfl, rfl, rfl, rfl, rfl⟩

theorem injOn_halved :
    Set.InjOn hexdigest (hashedTexts halvedJson .ok alteredStore marginTranscript.sealed) := by
  have hone : ∀ s ∈ hashedTexts halvedJson .ok alteredStore marginTranscript.sealed,
      s = marginTranscript.sealed.canonicalStr := by
    rintro s (hs | ⟨loaded, hcopy, hs⟩)
    · exact hs
    · rw [hs, storedCopy_halved.1 hcopy]
      exact canonicalStr_eq_iff.2 sameHashed_halved
  intro a ha b hb _
  rw [hone a ha, hone b hb]

/-- Another source text under the old digest is not given away. -/
theorem tamperEvident_halved :
    ¬ TamperEvident halvedJson .ok alteredStore marginTranscript.sealed := by
  intro hevident
  rcases (tamperEvident_iff save_marginTranscript alteredStore injOn_halved).1 hevident _
    (storedCopy_halved.2 rfl) with hsame | htenant | ⟨-, hcovered⟩ | ⟨hdigest, -⟩
  · exact halvedTranscript_ne hsame
  · exact htenant rfl
  · exact hcovered sameHashed_halved
  · exact hdigest rfl

/-- Not every alteration of a stored copy is found, although the hash does not collide. -/
theorem not_forall_tamperEvident :
    ¬ ∀ (J : TranscriptJson) (answer : RedisAnswer) (store store' altered : ArbitrationTranscriptStore)
      (t saved : ArbitrationTranscript), store.saveTranscript J answer t = .ok (saved, store') →
      Set.InjOn hexdigest (hashedTexts J answer altered saved) →
      TamperEvident J answer altered saved := by
  intro hall
  have hevident := hall halvedJson .ok emptyStore savedStore alteredStore marginTranscript
    marginTranscript.sealed save_marginTranscript injOn_halved
  have hread : alteredStore.getTranscript halvedJson .ok "tenant-alpha" "s-1" =
      .ok (some halvedTranscript) :=
    getTranscript_eq_some_iff.2 ⟨by decide, storedCopy_halved.2 rfl, rfl, rfl⟩
  exact halvedTranscript_ne (hevident _ hread)

end RegEngine.Negotiation
