import RegEngine.Hitl.Proof.Circular

/-!
# One circular for each document

A circular is stored under its number, the digest of its text and the digest of its file (`Circular.document`), and
nothing that happens to it later changes these, but for a file digest that is filled in.

* `distinct_eventRun`: over any run of the system no two circulars share one of the three.
* `document_again`: a document that is processed again is found again under the circular it was stored under, unless
  another circular has come to share a key with it, and then the call raises.
-/

namespace RegEngine.Hitl

open Lib Parsing

/-- What a circular is stored under. -/
def Circular.document (c : Circular) : String × String × Option String :=
  (c.circularNumber, c.rawTextDigest, c.sourceDocumentSha256)

/-- Every circular is there with the document it had. -/
structure SameDocuments (s s' : Store) : Prop where
  document : ∀ k, (s'.circulars.get? k).map Circular.document = (s.circulars.get? k).map Circular.document

section
variable {s s' s'' : Store}

theorem SameDocuments.refl (s : Store) : SameDocuments s s := ⟨fun _ => rfl⟩

theorem SameDocuments.trans (h : SameDocuments s s') (h' : SameDocuments s' s'') : SameDocuments s s'' :=
  ⟨fun k => (h'.document k).trans (h.document k)⟩

theorem sameDocuments_of_eq (h : s'.circulars = s.circulars) : SameDocuments s s' :=
  ⟨fun k => by rw [h]⟩

/-- A change of a circular that leaves its document. -/
theorem sameDocuments_update (s : Store) (k : Nat) {f : Circular → Circular}
    (transitions : List CircularStateTransition) (hf : ∀ c, (f c).document = c.document) :
    SameDocuments s { s with circulars := s.circulars.update k f, transitions := transitions } := by
  refine ⟨fun j => ?_⟩
  simp only [Table.get?_update]
  split
  · cases s.circulars.get? j with
    | none => rfl
    | some c => exact congrArg some (hf c)
  · rfl

theorem sameDocuments_transition (s : Store) (circularId : Nat) (toState : ProcessingState)
    (errorMessage : Option String) (details : Json) :
    SameDocuments s (transitionCircularState s circularId toState errorMessage details) := by
  unfold transitionCircularState
  split
  · exact .refl s
  · refine sameDocuments_update s _ _ ?_
    exact fun _ => rfl

theorem sameDocuments_foldl {α : Type} {f : Store → α → Store} (hf : ∀ s a, SameDocuments s (f s a)) :
    ∀ (l : List α) (s : Store), SameDocuments s (l.foldl f s)
  | [], s => .refl s
  | a :: l, s => (hf s a).trans (sameDocuments_foldl hf l (f s a))

theorem sameDocuments_extracted (keys : List Nat) (s : Store) (result : ClauseChunk × Extraction) :
    SameDocuments s (extracted keys s result) := by
  unfold extracted
  split <;> exact sameDocuments_of_eq rfl

theorem sameDocuments_extractionStage (c : StageCall) (s : Store) : SameDocuments s (c.extractionStage s) := by
  have hstatus : ∀ status message (s : Store) k, SameDocuments s (setClauseStatus s k status message) :=
    fun _ _ _ _ => sameDocuments_of_eq rfl
  unfold StageCall.extractionStage
  dsimp only
  refine SameDocuments.trans ?_ (sameDocuments_transition ..)
  refine SameDocuments.trans ?_ (sameDocuments_transition ..)
  refine SameDocuments.trans ?_ (sameDocuments_foldl (fun s a => sameDocuments_extracted _ s a) _ _)
  refine SameDocuments.trans ?_ (sameDocuments_transition ..)
  refine SameDocuments.trans ?_ (sameDocuments_foldl (fun s k => hstatus _ _ s k) _ _)
  exact sameDocuments_foldl (fun s k => hstatus _ _ s k) _ _

/-- The compilation of the clauses writes no circular. -/
theorem sameDocuments_compileClauses {o : Outside} {tenantId : String} {chunks : List ClauseChunk}
    {results : List (ClauseChunk × Extraction)} {completed ks : List Nat} {i : Nat}
    (h : compileClauses o tenantId chunks results completed i s ks = .ok s') : SameDocuments s s' := by
  refine ⟨fun k => ?_⟩
  have hgrows : Grows s s' (k + 1) fun _ => True := compileClauses_grows (fun _ _ => trivial) h
  rw [hgrows.circulars k (Nat.ne_of_lt (Nat.lt_succ_self k))]

theorem sameDocuments_execute (c : StageCall) (s : Store) : SameDocuments s (c.execute s).1 := by
  unfold StageCall.execute
  dsimp only
  split
  · rename_i t ht
    exact (sameDocuments_extractionStage c s).trans
      ((sameDocuments_compileClauses ht).trans (sameDocuments_transition ..))
  · exact (sameDocuments_extractionStage c s).trans (sameDocuments_transition ..)

theorem sameDocuments_settleCircular (s : Store) (k : Nat) (review : HITLReview) (officer : String) :
    SameDocuments s (settleCircular s k review officer) := by
  unfold settleCircular
  split
  · split
    · dsimp only
      split
      · refine sameDocuments_update s _ _ ?_
        exact fun _ => rfl
      · exact .refl s
    · exact .refl s
  · exact .refl s

theorem sameDocuments_failCircular (s : Store) (review : HITLReview) (officer : String) :
    SameDocuments s (failCircular s review officer) := by
  unfold failCircular
  split
  · split
    · refine sameDocuments_update s _ _ ?_
      exact fun _ => rfl
    · exact .refl s
  · exact .refl s

theorem sameDocuments_review (s : Store) (call : ReviewCall) : SameDocuments s (commit s (call.result s)) := by
  cases h : call.result s with
  | error e => exact .refl s
  | ok t =>
    obtain ⟨k, review, closed, u, -, -, -, rfl, -, -, hcirculars, -⟩ := result_decides h
    refine (sameDocuments_of_eq hcirculars).trans ?_
    cases call.verdict with
    | approve => exact sameDocuments_settleCircular ..
    | reject => exact sameDocuments_failCircular ..
    | requestRevision => exact .refl u

theorem sameDocuments_failCircularOnce (s : Store) (circularId : Nat) (message : String) :
    SameDocuments s (failCircularOnce s circularId message) := by
  rcases failCircularOnce_cases s circularId message with h | h
  · rw [h]
    exact .refl s
  · rw [h]
    exact sameDocuments_transition ..

end

/-! ## Keys -/

/-- A document shares a key with a circular. -/
def Identity.Matches (doc : Identity) (c : Circular) : Prop :=
  c.circularNumber = doc.circularNumber ∨ c.rawTextDigest = doc.rawTextDigest ∨
    c.sourceDocumentSha256 = some doc.sourceDocumentSha256

/-- No two circulars share a key. -/
def DocumentsDistinct (s : Store) : Prop :=
  ∀ i j c d, s.circulars.get? i = some c → s.circulars.get? j = some d →
    c.circularNumber = d.circularNumber ∨ c.rawTextDigest = d.rawTextDigest ∨
      (c.sourceDocumentSha256 = d.sourceDocumentSha256 ∧ c.sourceDocumentSha256 ≠ none) → i = j

section
variable {s s' : Store} {doc : Identity}

theorem mem_matchingCirculars {x : Nat × Circular} :
    x ∈ matchingCirculars s doc ↔ s.circulars.get? x.1 = some x.2 ∧ doc.Matches x.2 := by
  rw [matchingCirculars, Table.mem_select, Identity.Matches, decide_eq_true_eq]

/-- A circular that is found again has the keys it had. -/
theorem SameDocuments.back (h : SameDocuments s s') {k : Nat} {c' : Circular}
    (hc' : s'.circulars.get? k = some c') : ∃ c, s.circulars.get? k = some c ∧ c'.document = c.document := by
  have hmap := h.document k
  rw [hc', Option.map_some] at hmap
  obtain ⟨c, hc, hdoc⟩ := Option.map_eq_some_iff.1 hmap.symm
  exact ⟨c, hc, hdoc.symm⟩

theorem SameDocuments.forth (h : SameDocuments s s') {k : Nat} {c : Circular}
    (hc : s.circulars.get? k = some c) : ∃ c', s'.circulars.get? k = some c' ∧ c'.document = c.document := by
  have hmap := h.document k
  rw [hc, Option.map_some] at hmap
  obtain ⟨c', hc', hdoc⟩ := Option.map_eq_some_iff.1 hmap
  exact ⟨c', hc', hdoc⟩

theorem DocumentsDistinct.same (hs : DocumentsDistinct s) (h : SameDocuments s s') : DocumentsDistinct s' := by
  intro i j c' d' hc' hd' hshare
  obtain ⟨c, hc, hcdoc⟩ := h.back hc'
  obtain ⟨d, hd, hddoc⟩ := h.back hd'
  simp only [Circular.document, Prod.mk.injEq] at hcdoc hddoc
  obtain ⟨hc1, hc2, hc3⟩ := hcdoc
  obtain ⟨hd1, hd2, hd3⟩ := hddoc
  rw [hc1, hc2, hc3, hd1, hd2, hd3] at hshare
  exact hs i j c d hc hd hshare

/-- What a document that is stored finds or inserts. -/
theorem persistCircular_document {nfkc : String → String} {decode : List UInt8 → String} {parsed : ParseResult}
    {fileBytes : List UInt8} {k : Nat} (h : persistCircular nfkc decode s parsed fileBytes = .ok (k, s')) :
    let doc := identityOf nfkc decode parsed fileBytes
    (∃ c, matchingCirculars s doc = [(k, c)] ∧ s.circulars.get? k = some c ∧
      s'.circulars = s.circulars.update k (fillSource doc)) ∨
    (matchingCirculars s doc = [] ∧ k = s.circulars.next ∧
      s'.circulars = s.circulars.insert
        { circularNumber := doc.circularNumber
          sourceDocumentSha256 := some doc.sourceDocumentSha256
          rawTextDigest := doc.rawTextDigest }) := by
  unfold persistCircular at h
  dsimp only at h ⊢
  split at h
  · rename_i c hc
    obtain ⟨rfl, rfl⟩ := Prod.mk.inj (Except.ok.inj h)
    exact .inl ⟨c.2, hc, (Table.get?_of_select_eq hc).1, rfl⟩
  · rename_i hnone
    unfold insertCircular at h
    split at h
    · cases h
    · split at h
      · cases h
      · obtain ⟨rfl, rfl⟩ := Prod.mk.inj (Except.ok.inj h)
        exact .inr ⟨hnone, rfl, rfl⟩
  · cases h

theorem fillSource_cases (doc : Identity) (c : Circular) : fillSource doc c = c ∨
    c.sourceDocumentSha256 = none ∧
      fillSource doc c = { c with sourceDocumentSha256 := some doc.sourceDocumentSha256 } := by
  unfold fillSource
  split
  · rename_i h
    exact .inr ⟨h.1, rfl⟩
  · exact .inl rfl

end

section
variable {nfkc : String → String} {decode : List UInt8 → String} {s s' s'' : Store} {k : Nat}
variable {parsed : ParseResult} {fileBytes : List UInt8}

/-- A circular after a document was found or inserted: an old one, perhaps with the file digest of the document, or a
new one with its keys. -/
theorem persisted_cases (h : persistCircular nfkc decode s parsed fileBytes = .ok (k, s')) {i : Nat} {c' : Circular}
    (hc' : s'.circulars.get? i = some c') :
    let doc := identityOf nfkc decode parsed fileBytes
    (∃ c, s.circulars.get? i = some c ∧ c'.circularNumber = c.circularNumber ∧ c'.rawTextDigest = c.rawTextDigest ∧
      (c'.sourceDocumentSha256 = c.sourceDocumentSha256 ∨
        i = k ∧ c'.sourceDocumentSha256 = some doc.sourceDocumentSha256)) ∨
    (i = k ∧ matchingCirculars s doc = [] ∧ c'.document =
      (doc.circularNumber, doc.rawTextDigest, some doc.sourceDocumentSha256)) := by
  rcases persistCircular_document h with ⟨c, -, -, heq⟩ | ⟨hnone, rfl, heq⟩
  · rw [heq] at hc'
    rcases Table.get?_update_cases hc' with ⟨rfl, d, hd, rfl⟩ | hold
    · rcases fillSource_cases (identityOf nfkc decode parsed fileBytes) d with hfill | ⟨-, hfill⟩
      · rw [hfill]
        exact .inl ⟨d, hd, rfl, rfl, .inl rfl⟩
      · rw [hfill]
        exact .inl ⟨d, hd, rfl, rfl, .inr ⟨rfl, rfl⟩⟩
    · exact .inl ⟨c', hold, rfl, rfl, .inl rfl⟩
  · rw [heq] at hc'
    rcases Table.get?_insert_cases hc' with ⟨rfl, rfl⟩ | hold
    · exact .inr ⟨rfl, hnone, rfl⟩
    · exact .inl ⟨c', hold, rfl, rfl, .inl rfl⟩

/-- **The circular a document is stored under is the only one that shares a key with it.** -/
theorem matches_unique (h : persistCircular nfkc decode s parsed fileBytes = .ok (k, s')) {j : Nat} {c' : Circular}
    (hc' : s'.circulars.get? j = some c') (hmatch : (identityOf nfkc decode parsed fileBytes).Matches c') : j = k := by
  by_contra hne
  have hold : s.circulars.get? j = some c' := by
    rcases persistCircular_document h with ⟨-, -, -, heq⟩ | ⟨-, rfl, heq⟩
    · rw [heq, Table.get?_update_of_ne _ _ hne] at hc'
      exact hc'
    · rw [heq, Table.get?_insert, if_neg hne] at hc'
      exact hc'
  have hmem : (j, c') ∈ matchingCirculars s (identityOf nfkc decode parsed fileBytes) :=
    mem_matchingCirculars.2 ⟨hold, hmatch⟩
  rcases persistCircular_document h with ⟨c, hone, -, -⟩ | ⟨hnone, -, -⟩
  · rw [hone, List.mem_singleton] at hmem
    exact hne (congrArg Prod.fst hmem)
  · rw [hnone] at hmem
    cases hmem

/-- The circular of a document shares a key with it. -/
theorem matches_persisted (h : persistCircular nfkc decode s parsed fileBytes = .ok (k, s')) :
    ∃ c', s'.circulars.get? k = some c' ∧ (identityOf nfkc decode parsed fileBytes).Matches c' := by
  rcases persistCircular_document h with ⟨c, hone, hc, heq⟩ | ⟨-, rfl, heq⟩
  · have hmatch := (mem_matchingCirculars.1 (hone ▸ List.mem_singleton_self (k, c))).2
    refine ⟨_, by rw [heq, Table.get?_update_self _ hc], ?_⟩
    rcases fillSource_cases (identityOf nfkc decode parsed fileBytes) c with hfill | ⟨-, hfill⟩
    · rw [hfill]
      exact hmatch
    · rw [hfill]
      exact .inr (.inr rfl)
  · exact ⟨_, by rw [heq, Table.get?_insert_self], .inl rfl⟩

theorem DocumentsDistinct.persist (hs : DocumentsDistinct s)
    (h : persistCircular nfkc decode s parsed fileBytes = .ok (k, s')) : DocumentsDistinct s' := by
  intro i j c' d' hc' hd' hshare
  rcases persisted_cases h hc' with ⟨c, hc, hcnumber, hctext, hcsource⟩ | ⟨rfl, -, hcdoc⟩
  · rcases persisted_cases h hd' with ⟨d, hd, hdnumber, hdtext, hdsource⟩ | ⟨rfl, -, hddoc⟩
    · rcases hshare with hnumber | htext | ⟨hsource, hsome⟩
      · exact hs i j c d hc hd (.inl (hcnumber.symm.trans (hnumber.trans hdnumber)))
      · exact hs i j c d hc hd (.inr (.inl (hctext.symm.trans (htext.trans hdtext))))
      · -- a file digest that was filled in is the document's
        rcases hcsource with hcsource | ⟨rfl, hcsource⟩
        · rcases hdsource with hdsource | ⟨rfl, hdsource⟩
          · exact hs i j c d hc hd (.inr (.inr ⟨hcsource.symm.trans (hsource.trans hdsource), hcsource ▸ hsome⟩))
          · exact matches_unique h hc' (.inr (.inr (hsource.trans hdsource)))
        · exact (matches_unique h hd' (.inr (.inr (hsource.symm.trans hcsource)))).symm
    · simp only [Circular.document, Prod.mk.injEq] at hddoc
      refine matches_unique h hc' ?_
      rcases hshare with hnumber | htext | ⟨hsource, -⟩
      · exact .inl (hnumber.trans hddoc.1)
      · exact .inr (.inl (htext.trans hddoc.2.1))
      · exact .inr (.inr (hsource.trans hddoc.2.2))
  · simp only [Circular.document, Prod.mk.injEq] at hcdoc
    refine (matches_unique h hd' ?_).symm
    rcases hshare with hnumber | htext | ⟨hsource, -⟩
    · exact .inl (hnumber.symm.trans hcdoc.1)
    · exact .inr (.inl (htext.symm.trans hcdoc.2.1))
    · exact .inr (.inr (hsource.symm.trans hcdoc.2.2))

/-- Circulars keep their number and their digests, once they have them. -/
structure KeepsDocuments (s s' : Store) : Prop where
  kept : ∀ k c, s.circulars.get? k = some c → ∃ c', s'.circulars.get? k = some c' ∧
    c'.circularNumber = c.circularNumber ∧ c'.rawTextDigest = c.rawTextDigest ∧
    ∀ hash, c.sourceDocumentSha256 = some hash → c'.sourceDocumentSha256 = some hash

theorem KeepsDocuments.trans (h : KeepsDocuments s s') (h' : KeepsDocuments s' s'') : KeepsDocuments s s'' := by
  refine ⟨fun k c hc => ?_⟩
  obtain ⟨c', hc', hnumber, htext, hsource⟩ := h.kept k c hc
  obtain ⟨c'', hc'', hnumber', htext', hsource'⟩ := h'.kept k c' hc'
  exact ⟨c'', hc'', hnumber'.trans hnumber, htext'.trans htext, fun hash hh => hsource' hash (hsource hash hh)⟩

theorem SameDocuments.keeps (h : SameDocuments s s') : KeepsDocuments s s' := by
  refine ⟨fun k c hc => ?_⟩
  obtain ⟨c', hc', hdoc⟩ := h.forth hc
  simp only [Circular.document, Prod.mk.injEq] at hdoc
  exact ⟨c', hc', hdoc.1, hdoc.2.1, fun hash hh => hdoc.2.2.trans hh⟩

theorem keeps_persistCircular (h : persistCircular nfkc decode s parsed fileBytes = .ok (k, s')) :
    KeepsDocuments s s' := by
  refine ⟨fun i c hc => ?_⟩
  rcases persistCircular_document h with ⟨-, -, -, heq⟩ | ⟨-, -, heq⟩
  · rw [heq, Table.get?_update]
    split
    · rw [hc]
      rcases fillSource_cases (identityOf nfkc decode parsed fileBytes) c with hfill | ⟨hnone, hfill⟩
      · exact ⟨c, by rw [Option.map_some, hfill], rfl, rfl, fun _ hh => hh⟩
      · refine ⟨fillSource (identityOf nfkc decode parsed fileBytes) c, rfl, ?_, ?_, fun hash hh => ?_⟩
        · rw [hfill]
        · rw [hfill]
        · rw [hnone] at hh
          cases hh
    · exact ⟨c, hc, rfl, rfl, fun _ hh => hh⟩
  · exact ⟨c, by rw [heq]; exact Table.get?_insert_of_get? _ hc, rfl, rfl, fun _ hh => hh⟩

/-- A circular that shares a key with a document goes on to share it. -/
theorem KeepsDocuments.matching (h : KeepsDocuments s s') {doc : Identity} {c : Circular}
    (hc : s.circulars.get? k = some c) (hmatch : doc.Matches c) :
    ∃ c', s'.circulars.get? k = some c' ∧ doc.Matches c' := by
  obtain ⟨c', hc', hnumber, htext, hsource⟩ := h.kept k c hc
  refine ⟨c', hc', ?_⟩
  rcases hmatch with hm | hm | hm
  · exact .inl (hnumber.trans hm)
  · exact .inr (.inl (htext.trans hm))
  · exact .inr (.inr (hsource _ hm))

/-! ## Runs -/

/-- Behind the storing of a document its event leaves the documents. -/
theorem process_documents {k : Nat} {s₁ s₂ : Store} {keys : List Nat}
    (hcircular : persistCircular nfkc decode s parsed fileBytes = .ok (k, s₁))
    (hclauses : persistClauses k s₁ parsed.chunks = .ok (keys, s₂)) (tenantId : String) (o : Outside) :
    SameDocuments s₁ ((Event.process parsed fileBytes tenantId o).step nfkc decode s) := by
  have hsame : SameDocuments s₁ s₂ := sameDocuments_of_eq (mem_persistClauses hclauses).1
  simp only [Event.step, processCircularPdf, hcircular, hclauses]
  refine hsame.trans ?_
  split
  · exact .refl s₂
  · split
    · exact .refl s₂
    · refine SameDocuments.trans ?_ (sameDocuments_execute ..)
      unfold ingested
      split
      · exact sameDocuments_transition ..
      · exact .refl s₂

/-- An event leaves the documents, or stores one and leaves the others. -/
theorem step_documents (nfkc : String → String) (decode : List UInt8 → String) (s : Store) (e : Event) :
    SameDocuments s (e.step nfkc decode s) ∨ ∃ parsed fileBytes k s₁,
      persistCircular nfkc decode s parsed fileBytes = .ok (k, s₁) ∧ SameDocuments s₁ (e.step nfkc decode s) := by
  cases e with
  | process parsed fileBytes tenantId o =>
    cases hcircular : persistCircular nfkc decode s parsed fileBytes with
    | error e =>
      simp only [Event.step, processCircularPdf, hcircular]
      exact .inl (.refl s)
    | ok x =>
      obtain ⟨k, s₁⟩ := x
      cases hclauses : persistClauses k s₁ parsed.chunks with
      | error e =>
        simp only [Event.step, processCircularPdf, hcircular, hclauses]
        exact .inl (sameDocuments_failCircularOnce ..)
      | ok x => exact .inr ⟨parsed, fileBytes, k, s₁, hcircular, process_documents hcircular hclauses tenantId o⟩
  | resume circularId tenantId o =>
    left
    simp only [Event.step, resumeCircular]
    split
    · exact .refl s
    · split
      · exact .refl s
      · exact sameDocuments_execute ..
  | review call => exact .inl (sameDocuments_review s call)

theorem DocumentsDistinct.step (hs : DocumentsDistinct s) (e : Event) :
    DocumentsDistinct (e.step nfkc decode s) := by
  rcases step_documents nfkc decode s e with h | ⟨parsed, fileBytes, k, s₁, hcircular, h⟩
  · exact hs.same h
  · exact (hs.persist hcircular).same h

theorem keeps_step (s : Store) (e : Event) : KeepsDocuments s (e.step nfkc decode s) := by
  rcases step_documents nfkc decode s e with h | ⟨parsed, fileBytes, k, s₁, hcircular, h⟩
  · exact h.keeps
  · exact (keeps_persistCircular hcircular).trans h.keeps

/-- **Over any run no two circulars share a key.** -/
theorem distinct_eventRun : ∀ (events : List Event) {s : Store}, DocumentsDistinct s →
    DocumentsDistinct (eventRun nfkc decode s events)
  | [], _, hs => hs
  | e :: events, _, hs => distinct_eventRun events (hs.step e)

theorem keeps_eventRun : ∀ (events : List Event) (s : Store), KeepsDocuments s (eventRun nfkc decode s events)
  | [], s => (SameDocuments.refl s).keeps
  | e :: events, s => (keeps_step s e).trans (keeps_eventRun events (e.step nfkc decode s))

/-- A call for a document that shares a key with circular `k` finds it, or raises because another one does too. -/
theorem persistCircular_found {c : Circular} (hc : s.circulars.get? k = some c)
    (hmatch : (identityOf nfkc decode parsed fileBytes).Matches c) :
    (∃ s', persistCircular nfkc decode s parsed fileBytes = .ok (k, s')) ∨
      persistCircular nfkc decode s parsed fileBytes = .error .multipleResultsFound ∧
        ∃ j d, j ≠ k ∧ s.circulars.get? j = some d ∧ (identityOf nfkc decode parsed fileBytes).Matches d := by
  have hmem : (k, c) ∈ matchingCirculars s (identityOf nfkc decode parsed fileBytes) :=
    mem_matchingCirculars.2 ⟨hc, hmatch⟩
  match hm : matchingCirculars s (identityOf nfkc decode parsed fileBytes) with
  | [] => rw [hm] at hmem; cases hmem
  | [x] =>
    rw [hm, List.mem_singleton] at hmem
    refine .inl ⟨{ s with
      circulars := s.circulars.update k (fillSource (identityOf nfkc decode parsed fileBytes)) }, ?_⟩
    simp only [persistCircular, hm, ← hmem]
  | x :: y :: l =>
    refine .inr ⟨by simp only [persistCircular, hm], ?_⟩
    have hnodup : ((matchingCirculars s (identityOf nfkc decode parsed fileBytes)).map (·.1)).Nodup :=
      s.circulars.nodup.sublist (List.filter_sublist.map _)
    rw [hm, List.map_cons, List.map_cons, List.nodup_cons] at hnodup
    have hx := mem_matchingCirculars.1 (hm ▸ List.mem_cons_self :
      x ∈ matchingCirculars s (identityOf nfkc decode parsed fileBytes))
    have hy := mem_matchingCirculars.1 (hm ▸ List.mem_cons_of_mem _ List.mem_cons_self :
      y ∈ matchingCirculars s (identityOf nfkc decode parsed fileBytes))
    by_cases hxk : x.1 = k
    · have hne : y.1 ≠ k := fun h => hnodup.1 (List.mem_cons.2 (.inl (hxk.trans h.symm)))
      exact ⟨y.1, y.2, hne, hy.1, hy.2⟩
    · exact ⟨x.1, x.2, hxk, hx.1, hx.2⟩

/-- **A document that is processed again.** After any earlier and any later run, a document that was stored is found
under the circular it was stored under, the only one that shared a key with it; or the call raises, because another
circular has come to share a key with it, and that does not happen to a document that was new. -/
theorem document_again (nfkc : String → String) (decode : List UInt8 → String) (s₀ : Store)
    (hs : DocumentsDistinct s₀) (earlier : List Event) (parsed : ParseResult) (fileBytes : List UInt8) (k : Nat)
    (s₁ s₂ : Store) (keys : List Nat) (tenantId : String) (o : Outside) (later : List Event)
    (hcircular : persistCircular nfkc decode (eventRun nfkc decode s₀ earlier) parsed fileBytes = .ok (k, s₁))
    (hclauses : persistClauses k s₁ parsed.chunks = .ok (keys, s₂)) :
    let s := eventRun nfkc decode s₀ earlier
    let u := eventRun nfkc decode ((Event.process parsed fileBytes tenantId o).step nfkc decode s) later
    let doc := identityOf nfkc decode parsed fileBytes
    DocumentsDistinct u ∧
      (∀ j c, s₁.circulars.get? j = some c → doc.Matches c → j = k) ∧
      ((∃ u', persistCircular nfkc decode u parsed fileBytes = .ok (k, u')) ∨
        persistCircular nfkc decode u parsed fileBytes = .error .multipleResultsFound ∧
          (s.circulars.get? k).isSome = true ∧
          ∃ j d, j ≠ k ∧ u.circulars.get? j = some d ∧ doc.Matches d) := by
  intro s u doc
  have hdistinct : DocumentsDistinct s := distinct_eventRun earlier hs
  have hu : DocumentsDistinct u := distinct_eventRun later (hdistinct.step _)
  refine ⟨hu, fun j c hc hm => matches_unique hcircular hc hm, ?_⟩
  -- the circular is still there, and shares the key it shared
  have hkeeps : KeepsDocuments s₁ u :=
    (process_documents hcircular hclauses tenantId o).keeps.trans (keeps_eventRun later _)
  obtain ⟨c₁, hc₁, hm₁⟩ := matches_persisted hcircular
  obtain ⟨c, hc, hm⟩ := hkeeps.matching hc₁ hm₁
  rcases persistCircular_found hc hm with hok | ⟨herror, j, d, hj, hd, hmd⟩
  · exact .inl hok
  · refine .inr ⟨herror, ?_, j, d, hj, hd, hmd⟩
    by_contra hnew
    rw [Bool.not_eq_true, Option.isSome_eq_false_iff, Option.isNone_iff_eq_none] at hnew
    -- a new circular has all three keys of the document, and keeps them
    rcases persisted_cases hcircular hc₁ with ⟨c₀, hc₀, -⟩ | ⟨-, -, hdoc⟩
    · rw [hnew] at hc₀
      cases hc₀
    · simp only [Circular.document, Prod.mk.injEq] at hdoc
      obtain ⟨c', hc', hnumber, htext, hsource⟩ := hkeeps.kept k c₁ hc₁
      obtain rfl : c = c' := Option.some.inj (hc.symm.trans hc')
      have hsource' := hsource _ hdoc.2.2
      refine hj (hu j k d c hd hc ?_)
      rcases hmd with hmd | hmd | hmd
      · exact .inl (hmd.trans (hnumber.trans hdoc.1).symm)
      · exact .inr (.inl (hmd.trans (htext.trans hdoc.2.1).symm))
      · exact .inr (.inr ⟨hmd.trans hsource'.symm, by rw [hmd]; exact Option.some_ne_none _⟩)

end

/-- The document with the table in an empty database, and twice again. -/
theorem document_again_table :
    let event := Event.process (tableDocument (some "SEBI/HO/1")) [] "sebi_baseline"
      (sampleOutside fun _ => .ok (approvedRule "Broker"))
    let s := eventRun id (fun _ => "") noRows []
    let u := eventRun id (fun _ => "") (event.step id (fun _ => "") s) [event]
    DocumentsDistinct u ∧
      ((∃ u', persistCircular id (fun _ => "") u (tableDocument (some "SEBI/HO/1")) [] = .ok (1, u')) ∨
        persistCircular id (fun _ => "") u (tableDocument (some "SEBI/HO/1")) [] = .error .multipleResultsFound ∧
          (s.circulars.get? 1).isSome = true ∧ ∃ j d, j ≠ 1 ∧ u.circulars.get? j = some d ∧
            (identityOf id (fun _ => "") (tableDocument (some "SEBI/HO/1")) []).Matches d) := by
  have hdistinct : DocumentsDistinct noRows := fun i j c d hc _ _ => by simp [noRows] at hc
  have hclauses : persistClauses 1
      { noRows with circulars := Table.empty.insert (tableCircular (some "SEBI/HO/1")) }
      (tableDocument (some "SEBI/HO/1")).chunks = .ok ([1], tableStored (some "SEBI/HO/1")) := rfl
  have hagain := document_again id (fun _ => "") noRows hdistinct [] (tableDocument (some "SEBI/HO/1")) [] 1 _ _ [1]
    "sebi_baseline" (sampleOutside fun _ => .ok (approvedRule "Broker"))
    [.process (tableDocument (some "SEBI/HO/1")) [] "sebi_baseline"
      (sampleOutside fun _ => .ok (approvedRule "Broker"))]
    (persist_tableDocument (some "SEBI/HO/1") fun _ => "") hclauses
  exact ⟨hagain.1, hagain.2.2⟩

end RegEngine.Hitl
