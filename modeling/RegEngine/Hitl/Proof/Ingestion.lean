import Mathlib.Data.List.SplitBy
import RegEngine.Hitl.Ingestion
import RegEngine.Ledger.Proof.Provenance

/-!
# Clause digests and what is stored beside them

The chunker digests a clause with the circular number found in the document, and the verification
recomputes the digest from the number of the stored circular and the stored text.

* `clausePayload_inj`: the digested text determines the circular number and the normalised text.
* `mem_persistClauses`: the rows `persist_clauses` writes are those of the chunks whose digest is new.
* `clauses_verify_iff`: the rows written for a document verify exactly when it is stored under the
  number it was digested with, and with the texts.
-/

namespace RegEngine.Hitl

open Lib Lib.Python Lib.Sha256 Ledger Ledger.Provenance Parsing

/-! ## The digested text -/

theorem splitSpaces_mem {s : List Char} {w : String} (hw : w ∈ splitSpaces s) :
    ∀ c ∈ w.toList, isSpace c = false := by
  obtain ⟨l, hl, rfl⟩ := List.mem_map.1 hw
  obtain ⟨hmem, hword⟩ := List.mem_filter.1 hl
  rw [String.toList_ofList]
  -- neighbours in a run are both white space or both not
  have hpair : l.Pairwise fun a b => isSpace a = isSpace b := by
    have h := List.isChain_of_mem_splitBy hmem
    simp only [beq_iff_eq] at h
    have : IsTrans Char fun a b => isSpace a = isSpace b := ⟨fun _ _ _ => Eq.trans⟩
    exact List.isChain_iff_pairwise.1 h
  have hall : ∀ a ∈ l, ∀ b ∈ l, isSpace a = isSpace b := by
    have : Std.Symm fun a b => isSpace a = isSpace b := ⟨fun _ _ => Eq.symm⟩
    intro a ha b hb
    exact List.Pairwise.forall_of_forall (R := fun a b => isSpace a = isSpace b) (fun _ _ => rfl)
      hpair ha hb
  intro c hc
  by_contra hspace
  rw [Bool.not_eq_false] at hspace
  have hspaces : l.all isSpace = true := List.all_eq_true.2 fun b hb => (hall b hb c hc).trans hspace
  simp [hspaces] at hword

theorem isSpace_intercalate : ∀ {ws : List String}, (∀ w ∈ ws, ∀ c ∈ w.toList, isSpace c = false) →
    ∀ c ∈ (" ".intercalate ws).toList, isSpace c = true → c = ' '
  | [], _, c, hc, _ => by simp at hc
  | [w], h, c, hc, hspace => by
    rw [String.intercalate_singleton] at hc
    simp [h w List.mem_cons_self c hc] at hspace
  | w :: w' :: ws, h, c, hc, hspace => by
    rw [String.intercalate_cons_cons, String.toList_append, String.toList_append, List.mem_append,
      List.mem_append] at hc
    rcases hc with (hc | hc) | hc
    · simp [h w List.mem_cons_self c hc] at hspace
    · exact List.mem_singleton.1 hc
    · exact isSpace_intercalate (fun v hv => h v (List.mem_cons_of_mem _ hv)) c hc hspace

/-- The separator of the digested text is white space, so a normalised text does not hold it. -/
theorem separator_notMem_canonicalize (nfkc : String → String) (text : String) :
    '\x1f' ∉ (canonicalize nfkc text).toList := by
  intro h
  have := isSpace_intercalate (fun w hw => splitSpaces_mem hw) '\x1f' h (by decide)
  exact absurd this (by decide)

/-- The text that `sha256_of_clause` digests. -/
def clausePayload (nfkc : String → String) (circularNumber : String) (clauseNumber : Option String)
    (text : String) : String :=
  "\x1f".intercalate [circularNumber, orText clauseNumber "", canonicalize nfkc text]

theorem toList_clausePayload (nfkc : String → String) (number : String) (clause : Option String)
    (text : String) :
    (clausePayload nfkc number clause text).toList =
      (number.toList ++ '\x1f' :: (orText clause "").toList) ++
        '\x1f' :: (canonicalize nfkc text).toList := by
  simp [clausePayload, String.intercalate_cons_cons, String.toList_append]

theorem clausePayload_inj {nfkc : String → String} {number number' : String}
    {clause : Option String} {text text' : String} :
    clausePayload nfkc number clause text = clausePayload nfkc number' clause text' ↔
      number = number' ∧ canonicalize nfkc text = canonicalize nfkc text' := by
  constructor
  · intro h
    have hlist := congrArg String.toList h
    rw [toList_clausePayload, toList_clausePayload] at hlist
    obtain ⟨hhead, htext⟩ := Text.append_sep_inj_last (separator_notMem_canonicalize nfkc text)
      (separator_notMem_canonicalize nfkc text') hlist
    exact ⟨String.toList_injective (List.append_cancel_right hhead), String.toList_injective htext⟩
  · rintro ⟨rfl, htext⟩
    rw [clausePayload, clausePayload, htext]

/-- **Two digests of a clause agree** when they are of one circular number and one normalised text, or
by a collision. -/
theorem sha256OfClause_eq_iff {nfkc : String → String} {number number' : String}
    {clause : Option String} {text text' : String} :
    sha256OfClause nfkc number clause text = sha256OfClause nfkc number' clause text' ↔
      (number = number' ∧ canonicalize nfkc text = canonicalize nfkc text') ∨
        Collision (clausePayload nfkc number clause text)
          (clausePayload nfkc number' clause text') := by
  have hinj := @clausePayload_inj nfkc number number' clause text text'
  rw [← hinj, Collision]
  change hexdigest (clausePayload nfkc number clause text) =
    hexdigest (clausePayload nfkc number' clause text') ↔ _
  by_cases h : clausePayload nfkc number clause text = clausePayload nfkc number' clause text'
  · simp [h]
  · simp [h]

/-! ## The rows that are written -/

/-- The digests stored in a circular. -/
def storedDigests (s : Store) (circularId : Nat) : List String :=
  (s.clauses.select fun c => c.circularId = circularId).map (·.2.sha256)

/-- The first chunk of each digest that is not among these. -/
def freshChunks : List String → List ClauseChunk → List ClauseChunk
  | _, [] => []
  | seen, c :: cs =>
    if chunkDigest c ∈ seen then freshChunks seen cs
    else c :: freshChunks (seen ++ [chunkDigest c]) cs

theorem mem_of_mem_freshChunks {chunk : ClauseChunk} : ∀ {chunks : List ClauseChunk}
    {seen : List String}, chunk ∈ freshChunks seen chunks → chunk ∈ chunks
  | [], _, h => by cases h
  | c :: cs, seen, h => by
    rw [freshChunks] at h
    split at h
    · exact List.mem_cons_of_mem _ (mem_of_mem_freshChunks h)
    · rcases List.mem_cons.1 h with rfl | h
      · exact List.mem_cons_self
      · exact List.mem_cons_of_mem _ (mem_of_mem_freshChunks h)

section
variable {s s' : Store} {circularId : Nat}

theorem persistClause_ok {chunk : ClauseChunk} {k : Nat}
    (h : persistClause s circularId chunk = .ok (k, s')) :
    (chunkDigest chunk ∈ storedDigests s circularId ∧ s' = s) ∨
      (chunkDigest chunk ∉ storedDigests s circularId ∧
        s' = { s with clauses := s.clauses.insert (clauseOf circularId chunk) }) := by
  unfold persistClause at h
  split at h
  · rename_i c hc
    obtain ⟨rfl, rfl⟩ := Prod.mk.inj (Except.ok.inj h)
    obtain ⟨hget, hmatch⟩ := Table.get?_of_select_eq hc
    simp only [decide_eq_true_eq] at hmatch
    refine .inl ⟨List.mem_map.2 ⟨c, Table.mem_select.2 ⟨hget, by simpa using hmatch.1⟩, hmatch.2⟩, rfl⟩
  · rename_i hnone
    obtain ⟨rfl, rfl⟩ := Prod.mk.inj (Except.ok.inj h)
    refine .inr ⟨fun hmem => ?_, rfl⟩
    obtain ⟨c, hc, hsha⟩ := List.mem_map.1 hmem
    obtain ⟨hget, hcirc⟩ := Table.mem_select.1 hc
    have hsel : c ∈ s.clauses.select fun c =>
        c.circularId = circularId ∧ c.sha256 = chunkDigest chunk :=
      Table.mem_select.2 ⟨hget, by simpa [hsha] using hcirc⟩
    rw [hnone] at hsel
    cases hsel
  · cases h

theorem storedDigests_insert (chunk : ClauseChunk) :
    storedDigests { s with clauses := s.clauses.insert (clauseOf circularId chunk) } circularId =
      storedDigests s circularId ++ [chunkDigest chunk] := by
  simp [storedDigests, Table.select, Table.insert, clauseOf]

/-- **The rows written for the chunks of a document**: the old rows stay, and the new ones are those
of the fresh chunks. -/
theorem mem_persistClauses : ∀ {chunks : List ClauseChunk} {s s' : Store} {ks : List Nat},
    persistClauses circularId s chunks = .ok (ks, s') →
      s'.circulars = s.circulars ∧
      (∀ k, k < s.clauses.next → s'.clauses.get? k = s.clauses.get? k) ∧
      ∀ clause, (∃ k, s.clauses.next ≤ k ∧ s'.clauses.get? k = some clause) ↔
        ∃ chunk ∈ freshChunks (storedDigests s circularId) chunks,
          clause = clauseOf circularId chunk
  | [], s, s', ks, h => by
    obtain ⟨-, rfl⟩ := Prod.mk.inj (Except.ok.inj h)
    refine ⟨rfl, fun _ _ => rfl, fun clause => ?_⟩
    simp only [freshChunks, List.not_mem_nil, false_and, exists_false, iff_false, not_exists, not_and]
    intro k hk hget
    exact absurd (Table.lt_next_of_get? hget) (Nat.not_lt.2 hk)
  | chunk :: chunks, s, s', ks, h => by
    obtain ⟨⟨k, t⟩, hone, h⟩ := Lib.Except.bind_ok_iff.1 h
    obtain ⟨⟨ks', u⟩, hrest, h⟩ := Lib.Except.bind_ok_iff.1 h
    obtain ⟨-, rfl⟩ := Prod.mk.inj (Except.ok.inj h)
    obtain ⟨hcirc, hold, hnew⟩ := mem_persistClauses hrest
    rcases persistClause_ok hone with ⟨hseen, rfl⟩ | ⟨hfresh, rfl⟩
    · refine ⟨hcirc, hold, fun clause => ?_⟩
      rw [freshChunks, if_pos hseen]
      exact hnew clause
    · rw [storedDigests_insert] at hnew
      refine ⟨hcirc, fun i hi => ?_, fun clause => ?_⟩
      · rw [hold i (Nat.lt_succ_of_lt hi)]
        simp [Table.get?_insert, Nat.ne_of_lt hi]
      · rw [freshChunks, if_neg hfresh]
        simp only [List.mem_cons, exists_eq_or_imp, ← hnew clause]
        -- the row under the next key is that of the chunk
        have hrow : u.clauses.get? s.clauses.next = some (clauseOf circularId chunk) := by
          rw [hold _ (Nat.lt_succ_self _)]
          simp [Table.get?_insert]
        constructor
        · rintro ⟨i, hi, hget⟩
          rcases Nat.eq_or_lt_of_le hi with rfl | hlt
          · rw [hrow, Option.some.injEq] at hget
            exact .inl hget.symm
          · exact .inr ⟨i, hlt, hget⟩
        · rintro (rfl | ⟨i, hi, hget⟩)
          · exact ⟨_, Nat.le_refl _, hrow⟩
          · exact ⟨i, Nat.le_of_succ_le hi, hget⟩

/-- The keys are those of clauses of the circular. -/
theorem persistClauses_keys : ∀ {chunks : List ClauseChunk} {s s' : Store} {ks : List Nat},
    persistClauses circularId s chunks = .ok (ks, s') →
      ∀ k ∈ ks, ∃ clause, s'.clauses.get? k = some clause ∧ clause.circularId = circularId
  | [], _, _, _, h => by
    obtain ⟨rfl, -⟩ := Prod.mk.inj (Except.ok.inj h)
    simp
  | chunk :: chunks, s, s', ks, h => by
    obtain ⟨⟨k, t⟩, hone, h⟩ := Lib.Except.bind_ok_iff.1 h
    obtain ⟨⟨ks', u⟩, hrest, h⟩ := Lib.Except.bind_ok_iff.1 h
    obtain ⟨rfl, rfl⟩ := Prod.mk.inj (Except.ok.inj h)
    have hk : ∃ clause, t.clauses.get? k = some clause ∧ clause.circularId = circularId := by
      unfold persistClause at hone
      split at hone
      · rename_i c hc
        obtain ⟨rfl, rfl⟩ := Prod.mk.inj (Except.ok.inj hone)
        obtain ⟨hget, hmatch⟩ := Table.get?_of_select_eq hc
        simp only [decide_eq_true_eq] at hmatch
        exact ⟨c.2, hget, hmatch.1⟩
      · obtain ⟨rfl, rfl⟩ := Prod.mk.inj (Except.ok.inj hone)
        exact ⟨_, by rw [Table.get?_insert, if_pos rfl], rfl⟩
      · cases hone
    intro j hj
    rcases List.mem_cons.1 hj with rfl | hj
    · obtain ⟨clause, hget, hcirc⟩ := hk
      refine ⟨clause, ?_, hcirc⟩
      rw [(mem_persistClauses hrest).2.1 _ (Table.lt_next_of_get? hget), hget]
    · exact persistClauses_keys hrest j hj

end

/-! ## The circular -/

/-- The number of the circular that a document is stored under. -/
def storedNumber (s : Store) (doc : Identity) : String :=
  match matchingCirculars s doc with
  | [c] => c.2.circularNumber
  | _ => doc.circularNumber

theorem fillSource_number (doc : Identity) (c : Circular) :
    (fillSource doc c).circularNumber = c.circularNumber := by
  unfold fillSource
  split <;> rfl

/-- A document is stored under the circular that is found, or under a new one. -/
theorem persistCircular_cases {nfkc : String → String} {decode : List UInt8 → String} {s s' : Store}
    {parsed : ParseResult} {fileBytes : List UInt8} {k : Nat}
    (h : persistCircular nfkc decode s parsed fileBytes = .ok (k, s')) :
    let doc := identityOf nfkc decode parsed fileBytes
    (∃ c, matchingCirculars s doc = [c] ∧ k = c.1 ∧ s.circulars.get? c.1 = some c.2 ∧
      s' = { s with circulars := s.circulars.update c.1 (fillSource doc) }) ∨
    (matchingCirculars s doc = [] ∧ k = s.circulars.next ∧ ∃ circular : Circular,
      circular.circularNumber = doc.circularNumber ∧
      s' = { s with circulars := s.circulars.insert circular }) := by
  unfold persistCircular at h
  dsimp only at h ⊢
  split at h
  · rename_i c hc
    obtain ⟨rfl, rfl⟩ := Prod.mk.inj (Except.ok.inj h)
    exact .inl ⟨c, hc, rfl, (Table.get?_of_select_eq hc).1, rfl⟩
  · rename_i hnone
    unfold insertCircular at h
    split at h
    · cases h
    · split at h
      · cases h
      · obtain ⟨rfl, rfl⟩ := Prod.mk.inj (Except.ok.inj h)
        exact .inr ⟨hnone, rfl, _, rfl, rfl⟩
  · cases h

theorem persistCircular_ok {nfkc : String → String} {decode : List UInt8 → String} {s s' : Store}
    {parsed : ParseResult} {fileBytes : List UInt8} {k : Nat}
    (h : persistCircular nfkc decode s parsed fileBytes = .ok (k, s')) :
    s'.clauses = s.clauses ∧ ∃ circular, s'.circulars.get? k = some circular ∧
      circular.circularNumber = storedNumber s (identityOf nfkc decode parsed fileBytes) := by
  rcases persistCircular_cases h with ⟨c, hc, rfl, hget, rfl⟩ | ⟨hnone, rfl, circular, hnumber, rfl⟩
  · refine ⟨rfl, fillSource (identityOf nfkc decode parsed fileBytes) c.2, ?_, ?_⟩
    · rw [Table.get?_update, if_pos rfl, hget, Option.map_some]
    · rw [fillSource_number, storedNumber, hc]
  · refine ⟨rfl, circular, by rw [Table.get?_insert, if_pos rfl], ?_⟩
    rw [hnumber, storedNumber, hnone]

/-! ## The chunks -/

/-- A chunk is digested with the circular number found in its document. -/
def Digested (nfkc : String → String) (metadata : CircularMetadata) (c : ClauseChunk) : Prop :=
  c.sha256 = sha256OfClause nfkc (orText metadata.circularNumber "") c.clauseNumber c.text

theorem groupChunks_digested {nfkc : String → String} {metadata : CircularMetadata}
    {settings : Settings} {ids : Nat → String} {group : List DocumentElement}
    {chunks : List ClauseChunk} (h : groupChunks nfkc metadata settings ids group = .ok chunks) :
    ∀ c ∈ chunks, Digested nfkc metadata c := by
  unfold groupChunks at h
  dsimp only at h
  split at h
  · obtain rfl := Except.ok.inj h
    simp
  · split at h
    · obtain rfl := Except.ok.inj h
      simp
    · obtain ⟨fragments, -, h⟩ := Lib.Except.bind_ok_iff.1 h
      obtain rfl := Except.ok.inj h
      intro c hc
      obtain ⟨f, -, rfl⟩ := List.mem_map.1 hc
      rfl

theorem chunkElements_digested {nfkc : String → String} {metadata : CircularMetadata}
    {settings : Settings} {ids : Nat → Nat → String} {elements : List DocumentElement}
    {chunks : List ClauseChunk}
    (h : chunkElements nfkc metadata settings ids elements = .ok chunks) :
    ∀ c ∈ chunks, Digested nfkc metadata c := by
  unfold chunkElements at h
  split at h
  · cases h
  · obtain ⟨groups, hgroups, h⟩ := Lib.Except.bind_ok_iff.1 h
    split at h
    · cases h
    · obtain rfl := Except.ok.inj h
      intro c hc
      obtain ⟨g, hg, hc⟩ := List.mem_flatten.1 hc
      obtain ⟨x, hx, rfl⟩ := Lib.Except.exists_zip_right hgroups hg
      exact groupChunks_digested ((Lib.Except.zip_mapM_ok hgroups).1 x hx) c hc

/-- A digested chunk keeps its digest in the table. -/
theorem Digested.chunkDigest {nfkc : String → String} {metadata : CircularMetadata}
    {c : ClauseChunk} (h : Digested nfkc metadata c) (text : String) :
    chunkDigest { c with text := text } = c.sha256 := by
  unfold Hitl.chunkDigest
  rw [if_pos]
  dsimp only
  rw [h]
  exact length_hexdigest _

/-! ## The verification -/

/-- The clause passes stage 3 of the verification of every decision that names its digest. -/
def Verifies (nfkc : String → String) (s : Store) (k : Nat) (clause : Clause) : Prop :=
  ∃ circular, s.circulars.get? clause.circularId = some circular ∧
    ∀ row : LedgerRow, row.clauseHash = clause.sha256 →
      verifyClause nfkc {} row
        { id := clause.circularId
          circularNumber := circular.circularNumber
          sourceDocumentSha256 := circular.sourceDocumentSha256
          rawTextDigest := circular.rawTextDigest }
        { id := k
          circularId := clause.circularId
          clauseNumber := clause.clauseNumber
          text := clause.text
          sha256 := clause.sha256 } = []

/-- Some decision that names a digest. -/
theorem exists_row (hash : String) : ∃ row : LedgerRow, row.clauseHash = hash :=
  ⟨{ brokerId := ""
     transactionId := ""
     evaluatedAt := .ofInstant 0 (by decide)
     circularId := ""
     clauseHash := hash
     sectionReference := ""
     ruleId := ""
     evaluationResult := .pass
     hitlReviewId := none
     details := .null
     id := 1
     sequenceNum := 1
     payloadDigest := ""
     previousHash := ""
     currentHash := ""
     createdAt := .ofInstant 0 (by decide) }, rfl⟩

theorem verifies_iff {nfkc : String → String} {s : Store} {k : Nat} {clause : Clause}
    {circular : Circular} (hc : s.circulars.get? clause.circularId = some circular) :
    Verifies nfkc s k clause ↔
      sha256OfClause nfkc circular.circularNumber clause.clauseNumber clause.text = clause.sha256 := by
  constructor
  · rintro ⟨circular', hc', h⟩
    obtain rfl : circular = circular' := Option.some.inj (hc.symm.trans hc')
    obtain ⟨row, hrow⟩ := exists_row clause.sha256
    by_contra hne
    simpa [verifyClause, breakIf, hne] using h row hrow
  · intro h
    refine ⟨circular, hc, fun row hrow => ?_⟩
    simp [verifyClause, breakIf, h, hrow]

/-- The number that the chunk was digested with is the stored one, and its normalised text too; or
the two digested texts collide. -/
def StoredAsDigested (nfkc : String → String) (number : String) (metadata : CircularMetadata)
    (translate : ClauseChunk → Option String) (c : ClauseChunk) : Prop :=
  (number = orText metadata.circularNumber "" ∧
    canonicalize nfkc ((translate c).getD c.text) = canonicalize nfkc c.text) ∨
  Collision (clausePayload nfkc number c.clauseNumber ((translate c).getD c.text))
    (clausePayload nfkc (orText metadata.circularNumber "") c.clauseNumber c.text)

/-- **The clauses written for a document verify exactly when** each chunk that is new to its circular
is stored under the number it was digested with and with the text that was digested, collisions
apart. -/
theorem clauses_verify_iff (nfkc : String → String) (decode : List UInt8 → String)
    (settings : Settings) (ids : Nat → Nat → String) (translate : ClauseChunk → Option String)
    (fileBytes : List UInt8) (metadata : CircularMetadata) (elements : List DocumentElement)
    (chunks : List ClauseChunk) (parsed : ParseResult) (s s₁ s₂ : Store) (circularId : Nat)
    (keys : List Nat)
    (hchunks : chunkElements nfkc metadata settings ids elements = .ok chunks)
    (hparse : parsePdfBytes nfkc settings ids translate fileBytes (metadata, elements) = .ok parsed)
    (hcircular : persistCircular nfkc decode s parsed fileBytes = .ok (circularId, s₁))
    (hclauses : persistClauses circularId s₁ parsed.chunks = .ok (keys, s₂)) :
    (∀ k clause, s.clauses.get? k = none → s₂.clauses.get? k = some clause →
      Verifies nfkc s₂ k clause) ↔
    ∀ c ∈ chunks, { c with text := (translate c).getD c.text } ∈
        freshChunks (storedDigests s circularId) parsed.chunks →
      StoredAsDigested nfkc (storedNumber s (identityOf nfkc decode parsed fileBytes)) metadata
        translate c := by
  have hlocal : parsed.chunks = localizeChunks translate chunks := by
    obtain ⟨cs, hcs, h⟩ := Lib.Except.bind_ok_iff.1 hparse
    obtain rfl : chunks = cs := Except.ok.inj (hchunks.symm.trans hcs)
    rw [← Except.ok.inj h]
  obtain ⟨hsame, circular, hget, hnumber⟩ := persistCircular_ok hcircular
  obtain ⟨hcirculars, hold, hnew⟩ := mem_persistClauses hclauses
  have hdigests : storedDigests s₁ circularId = storedDigests s circularId := by
    rw [storedDigests, hsame, storedDigests]
  rw [hdigests] at hnew
  -- one row and its chunk
  have hone : ∀ c ∈ chunks, ∀ k, Verifies nfkc s₂ k
      (clauseOf circularId { c with text := (translate c).getD c.text }) ↔
        StoredAsDigested nfkc (storedNumber s (identityOf nfkc decode parsed fileBytes)) metadata
          translate c := by
    intro c hc k
    have hdigested := chunkElements_digested hchunks c hc
    rw [verifies_iff (show s₂.circulars.get? circularId = some circular by rwa [hcirculars]),
      hnumber, clauseOf, hdigested.chunkDigest, hdigested, sha256OfClause_eq_iff, StoredAsDigested]
  constructor
  · intro h c hc hfresh
    obtain ⟨k, hk, hrow⟩ := (hnew _).2 ⟨_, hfresh, rfl⟩
    refine (hone c hc k).1 (h k _ ?_ hrow)
    rw [← hsame]
    exact Option.eq_none_iff_forall_ne_some.2 fun a ha =>
      absurd (Table.lt_next_of_get? ha) (Nat.not_lt.2 hk)
  · intro h k clause hk hrow
    have hnext : s₁.clauses.next ≤ k := by
      by_contra hlt
      rw [hold k (Nat.not_le.1 hlt), hsame, hk] at hrow
      cases hrow
    obtain ⟨lc, hfresh, rfl⟩ := (hnew clause).1 ⟨k, hnext, hrow⟩
    have hmem : lc ∈ localizeChunks translate chunks := hlocal ▸ mem_of_mem_freshChunks hfresh
    obtain ⟨c, hc, rfl⟩ := List.mem_map.1 hmem
    exact (hone c hc k).2 (h c hc hfresh)

/-! ## A document with one table -/

/-- A clause that is a table, as it is read from a page. -/
def tableElement : DocumentElement where
  kind := .table
  text := "Margin 20"
  clauseNumber := some "1"

/-- What is parsed from a document with the table and this circular number. -/
def tableDocument (number : Option String) : ParseResult where
  metadata := { circularNumber := number }
  chunks := [chunkOf id { circularNumber := number } [tableElement] tableElement "chk-1" 0
    "[TABLE]\nMargin 20\n[/TABLE]"]
  sourceDocumentSha256 := some (sha256OfBytes [])
  extractedTextSha256 := some (sha256OfExtractedText id "[TABLE]\nMargin 20\n[/TABLE]")

theorem groupToChunkText_table :
    groupToChunkText [tableElement] = ("[TABLE]\nMargin 20\n[/TABLE]", [], true) := by
  decide +kernel

theorem chunk_tableDocument (number : Option String) :
    chunkElements id { circularNumber := number } {} (fun _ _ => "chk-1") [tableElement] =
      .ok (tableDocument number).chunks := by
  have hstrip : strip "[TABLE]\nMargin 20\n[/TABLE]" = "[TABLE]\nMargin 20\n[/TABLE]" := by
    decide +kernel
  have hsplit : splitLongText "[TABLE]\nMargin 20\n[/TABLE]" 2400 200 =
      .ok ["[TABLE]\nMargin 20\n[/TABLE]"] := by
    unfold splitLongText
    rw [if_pos (by decide +kernel)]
    rfl
  have hgroup : groupChunks id { circularNumber := number } {} (fun _ => "chk-1") [tableElement] =
      .ok (tableDocument number).chunks := by
    unfold groupChunks
    rw [groupToChunkText_table]
    dsimp only
    rw [hstrip, if_neg (by simp)]
    have hanchor : ([tableElement].find? fun e => truthy e.clauseNumber) = some tableElement := by
      rfl
    rw [hanchor, Option.some_or]
    dsimp only
    rw [hsplit]
    rfl
  have hgroups : groupByClause [tableElement] = [[tableElement]] := rfl
  unfold chunkElements
  rw [if_neg (by simp), hgroups]
  simp [hgroup, bind, Except.bind, pure, Except.pure]
  simp [tableDocument]

theorem parse_tableDocument (number : Option String) :
    parsePdfBytes id {} (fun _ _ => "chk-1") (fun _ => none) []
      ({ circularNumber := number }, [tableElement]) = .ok (tableDocument number) := by
  unfold parsePdfBytes
  rw [chunk_tableDocument]
  rfl

/-- A database without rows. -/
def noRows : Store where
  circulars := Table.empty
  clauses := Table.empty
  rules := Table.empty
  reviews := Table.empty
  transitions := []

/-- The first circular of a database, of a document with the table. -/
def tableCircular (number : Option String) : Circular where
  circularNumber := orText number ("SEBI/CIR/" ++ String.ofList
    (((sha256OfExtractedText id "[TABLE]\nMargin 20\n[/TABLE]").toList.take 10).map Char.toUpper))
  sourceDocumentSha256 := some (sha256OfBytes [])
  rawTextDigest := sha256OfExtractedText id "[TABLE]\nMargin 20\n[/TABLE]"

theorem identityOf_tableDocument (number : Option String) (decode : List UInt8 → String) :
    identityOf id decode (tableDocument number) [] =
      { circularNumber := (tableCircular number).circularNumber
        rawTextDigest := (tableCircular number).rawTextDigest
        sourceDocumentSha256 := sha256OfBytes [] } := by
  have hsource : sha256OfBytes [] ≠ "" := by decide +kernel
  have hdigest : sha256OfExtractedText id "[TABLE]\nMargin 20\n[/TABLE]" ≠ "" := by decide +kernel
  simp only [identityOf, tableDocument, tableCircular, orText, hsource, hdigest, if_false]

/-- The database after the document with the table. -/
def tableStored (number : Option String) : Store :=
  { noRows with
    circulars := Table.empty.insert (tableCircular number)
    clauses := Table.empty.insert (clauseOf 1 (chunkOf id { circularNumber := number } [tableElement]
      tableElement "chk-1" 0 "[TABLE]\nMargin 20\n[/TABLE]")) }

theorem persist_tableDocument (number : Option String) (decode : List UInt8 → String) :
    persistCircular id decode noRows (tableDocument number) [] =
      .ok (1, { noRows with circulars := Table.empty.insert (tableCircular number) }) := by
  have hsource : (sha256OfBytes []).toList.length = 64 := by decide +kernel
  have hdigest : (tableCircular number).rawTextDigest.toList.length = 64 := length_hexdigest _
  have hinsert : insertCircular noRows (tableCircular number) =
      .ok (1, { noRows with circulars := Table.empty.insert (tableCircular number) }) := by
    unfold insertCircular
    rw [if_neg (not_not.2 hdigest), if_neg (by simp [tableCircular, hsource])]
    rfl
  unfold persistCircular
  rw [identityOf_tableDocument]
  exact hinsert

/-- A document whose number is found: its clause verifies. -/
theorem clauses_verify_table : ∃ s₁ keys,
    persistCircular id (fun _ => "") noRows (tableDocument (some "SEBI/HO/1")) [] = .ok (1, s₁) ∧
    persistClauses 1 s₁ (tableDocument (some "SEBI/HO/1")).chunks =
      .ok (keys, tableStored (some "SEBI/HO/1")) ∧
    (tableStored (some "SEBI/HO/1")).clauses.rows.length = 1 ∧
    ∀ k clause, (tableStored (some "SEBI/HO/1")).clauses.get? k = some clause →
      Verifies id (tableStored (some "SEBI/HO/1")) k clause := by
  have hcircular := persist_tableDocument (some "SEBI/HO/1") fun _ => ""
  refine ⟨_, _, hcircular, rfl, rfl, fun k clause hrow => ?_⟩
  refine (clauses_verify_iff id (fun _ => "") {} (fun _ _ => "chk-1") (fun _ => none) [] _ _ _ _ noRows
    _ _ 1 _ (chunk_tableDocument _) (parse_tableDocument _) hcircular rfl).2 ?_ k clause rfl hrow
  intro c _ _
  refine .inl ⟨?_, rfl⟩
  rw [identityOf_tableDocument]
  rfl

/-- **A document whose number is not found** is stored under a number made of its digest, and its
clause does not verify. -/
theorem unnumbered_clause_breaks : ∃ s₁ keys clause,
    parsePdfBytes id {} (fun _ _ => "chk-1") (fun _ => none) []
      ({ circularNumber := none }, [tableElement]) = .ok (tableDocument none) ∧
    persistCircular id (fun _ => "") noRows (tableDocument none) [] = .ok (1, s₁) ∧
    persistClauses 1 s₁ (tableDocument none).chunks = .ok (keys, tableStored none) ∧
    (tableStored none).clauses.get? 1 = some clause ∧ ¬ Verifies id (tableStored none) 1 clause := by
  have hcircular := persist_tableDocument none fun _ => ""
  refine ⟨_, _, _, parse_tableDocument none, hcircular, rfl, rfl, ?_⟩
  rw [verifies_iff (show (tableStored none).circulars.get? 1 = some (tableCircular none) from rfl)]
  decide +kernel

end RegEngine.Hitl
