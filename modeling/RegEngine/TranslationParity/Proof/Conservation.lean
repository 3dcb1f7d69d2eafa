import RegEngine.TranslationParity.Alignment

/-!
# Clauses that an alignment loses

The embedding tier takes no clause twice and gives back the others (`perm_alignByEmbedding`). The tier before
it keeps one clause of each number that both sides have, and leaves out every other clause of the number
(`perm_matched_iff`).
-/

namespace RegEngine.TranslationParity

open Lib

variable {similarity : String → String → Rat} {english hindi : List ClauseChunk}

/-- The clause that a discrepancy reports missing in the other language. -/
def ClauseDiscrepancy.missing (t : DiscrepancyType) (number excerpt : ClauseDiscrepancy → Option String)
    (d : ClauseDiscrepancy) : Option ClauseRef :=
  if d.discrepancyType = t then (excerpt d).map fun text => ⟨number d, text⟩ else none

/-- Every clause, as often as it occurs, is in one alignment, and is verified with a counterpart or reported. -/
structure LosesNothing (english hindi : List ClauseChunk) : Prop where
  englishAligned : ∀ similarity,
    ((alignClauses similarity english hindi).filterMap (·.englishClause)).Perm (english.map toRef)
  hindiAligned : ∀ similarity, ((alignClauses similarity english hindi).filterMap (·.hindiClause)).Perm (hindi.map toRef)
  reportedEnglish : ∀ similarity threshold verify, let report := check similarity threshold verify english hindi
    (report.verified.map (·.1) ++ report.discrepancies.filterMap (ClauseDiscrepancy.missing .missingClauseInHindi
      (·.englishClauseNumber) (·.englishExcerpt))).Perm (english.map toRef)
  reportedHindi : ∀ similarity threshold verify, let report := check similarity threshold verify english hindi
    (report.verified.map (·.2) ++ report.discrepancies.filterMap (ClauseDiscrepancy.missing .missingClauseInEnglish
      (·.hindiClauseNumber) (·.hindiExcerpt))).Perm (hindi.map toRef)

/-- The numbers of some clauses, as often as they occur. -/
def numbers (clauses : List ClauseChunk) : List String := (numbered clauses).map (·.1)

/-- No number of both sides is repeated on one. -/
def Unrepeated (english hindi : List ClauseChunk) : Prop :=
  ∀ n ∈ numbers english, n ∈ numbers hindi → (numbers english).count n = 1 ∧ (numbers hindi).count n = 1

/-! ## The embedding tier -/

theorem mem_scored {s : Scored} (h : s ∈ scored similarity english hindi) :
    s.english ∈ english.zipIdx ∧ s.hindi ∈ hindi.zipIdx := by
  unfold scored at h
  rw [List.mem_insertionSort] at h
  obtain ⟨en, hen, h⟩ := List.mem_flatMap.1 h
  obtain ⟨hi, hhi, rfl⟩ := List.mem_map.1 h
  exact ⟨hen, hhi⟩

/-- One side of the pairs that are taken, and the rest of its clauses. -/
theorem perm_side (similarity : String → String → Rat) (english hindi : List ClauseChunk) {clauses : List ClauseChunk}
    (side : Scored → ClauseChunk × Nat)
    (hnodup : ((taken similarity english hindi).map fun s => (side s).2).Nodup)
    (hmem : ∀ s ∈ scored similarity english hindi, side s ∈ clauses.zipIdx) :
    ((taken similarity english hindi).map (fun s => (side s).1) ++ (clauses.zipIdx.filter fun c =>
      c.2 ∉ (taken similarity english hindi).map fun s => (side s).2).map (·.1)).Perm clauses := by
  have hpicked : (((taken similarity english hindi).map side).map Prod.snd) =
      (taken similarity english hindi).map fun s => (side s).2 := List.map_map
  have hindices : (clauses.zipIdx.map Prod.snd).Nodup := by
    rw [List.zipIdx_map_snd]
    exact List.nodup_range' 1
  have hperm := perm_append_rest hindices (hpicked ▸ hnodup) fun c hc => by
    obtain ⟨s, hs, rfl⟩ := List.mem_map.1 hc
    exact hmem s (mem_of_mem_greedy hs).1
  rw [hpicked] at hperm
  have hclauses := hperm.map Prod.fst
  rwa [List.map_append, List.map_map, List.zipIdx_map_fst] at hclauses

/-! ## The tier of numbers -/

/-- The clauses of some numbers, with their numbers. -/
def withNumbers (ns : List String) (clauses : List ClauseChunk) : List (String × ClauseChunk) :=
  (numbered clauses).filter fun p => p.1 ∈ ns

theorem map_snd_withNumbers {ns : List String} (hns : "" ∉ ns) (clauses : List ClauseChunk) :
    (withNumbers ns clauses).map (·.2) = clauses.filter fun c => c.clauseNumber.any fun n => n ∈ ns := by
  induction clauses with
  | nil => rfl
  | cons c clauses ih =>
    unfold withNumbers numbered at ih ⊢
    cases hn : c.clauseNumber with
    | none =>
      have hone : underNumber c = none := by rw [underNumber, hn]; rfl
      rw [List.filterMap_cons_none hone, ih, List.filter_cons_of_neg (by simp [hn])]
    | some n =>
      by_cases hempty : n = ""
      · have hone : underNumber c = none := by simp [underNumber, hn, hempty]
        rw [List.filterMap_cons_none hone, ih, List.filter_cons_of_neg (by simp [hn, hempty, hns])]
      · have hone : underNumber c = some (n, c) := by simp [underNumber, hn, hempty]
        rw [List.filterMap_cons_some hone]
        by_cases hmem : n ∈ ns
        · rw [List.filter_cons_of_pos (by simpa using hmem), List.map_cons, ih,
            List.filter_cons_of_pos (by simpa [hn] using hmem)]
        · rw [List.filter_cons_of_neg (by simpa using hmem), ih,
            List.filter_cons_of_neg (by simpa [hn] using hmem)]

theorem mem_numbered {clauses : List ClauseChunk} {p : String × ClauseChunk} (h : p ∈ numbered clauses) :
    p.1 ≠ "" ∧ p.2.clauseNumber = some p.1 := by
  obtain ⟨c, -, hc⟩ := List.mem_filterMap.1 h
  obtain ⟨n, hn, rfl⟩ := Option.map_eq_some_iff.1 hc
  obtain ⟨hn, hne⟩ := Option.filter_eq_some_iff.1 hn
  exact ⟨by simpa using hne, hn⟩

section
variable {ns : List String} {clauses : List ClauseChunk}

theorem subset_withNumbers (hsub : ∀ n ∈ ns, n ∈ numbers clauses) :
    ns ⊆ (withNumbers ns clauses).map (·.1) := by
  intro n hn
  obtain ⟨p, hp, rfl⟩ := List.mem_map.1 (hsub n hn)
  exact List.mem_map_of_mem (List.mem_filter.2 ⟨hp, by simpa using hn⟩)

theorem count_withNumbers {n : String} (hn : n ∈ ns) :
    ((withNumbers ns clauses).map (·.1)).count n = (numbers clauses).count n := by
  have hfilter : (withNumbers ns clauses).map (·.1) = (numbers clauses).filter fun n => n ∈ ns := by
    unfold withNumbers numbers
    rw [List.filter_map]
    rfl
  rw [hfilter, List.count_filter (by simpa using hn)]

/-- **One clause of each number** is all that there is just when no number is repeated. -/
theorem perm_matched_iff (hnodup : ns.Nodup) (hsub : ∀ n ∈ ns, n ∈ numbers clauses) (hns : "" ∉ ns) :
    ((ns.filterMap (byClauseNumber clauses)).map toRef).Perm
        ((clauses.filter fun c => c.clauseNumber.any fun n => n ∈ ns).map toRef) ↔
      ∀ n ∈ ns, (numbers clauses).count n = 1 := by
  rw [← map_snd_withNumbers hns]
  have hsubset := subset_withNumbers hsub
  have hfound : ∀ n ∈ ns, ∃ c, byClauseNumber clauses n = some c := by
    intro n hn
    obtain ⟨p, hp, rfl⟩ := List.mem_map.1 (hsub n hn)
    exact Query.exists_dict_eq_some hp
  have hlength : (ns.filterMap (byClauseNumber clauses)).length = ns.length := by
    rw [List.length_filterMap_eq_countP, List.countP_eq_length]
    intro n hn
    obtain ⟨c, hc⟩ := hfound n hn
    rw [hc]
    rfl
  constructor
  · intro hperm n hn
    have hle : ((withNumbers ns clauses).map (·.1)).length ≤ ns.length := by
      have h := hperm.length_eq
      rw [List.length_map, List.length_map, List.length_map, hlength] at h
      rw [List.length_map, h]
    have hkeys := ((List.subperm_of_subset hnodup hsubset).perm_of_length_le hle)
    rw [← count_withNumbers hn, ← hkeys.count_eq, List.count_eq_one_of_mem hnodup hn]
  · intro hone
    have hkeysNodup : ((withNumbers ns clauses).map (·.1)).Nodup := by
      rw [List.nodup_iff_count_le_one]
      intro n
      by_cases hn : n ∈ ns
      · rw [count_withNumbers hn, hone n hn]
      · rw [List.count_eq_zero_of_not_mem]
        · exact Nat.zero_le 1
        · intro hmem
          obtain ⟨p, hp, rfl⟩ := List.mem_map.1 hmem
          exact hn (by simpa using (List.mem_filter.1 hp).2)
    have hkeys : ns.Perm ((withNumbers ns clauses).map (·.1)) := by
      refine (List.perm_ext_iff_of_nodup hnodup hkeysNodup).2 fun n => ⟨fun hn => hsubset hn, fun hn => ?_⟩
      obtain ⟨p, hp, rfl⟩ := List.mem_map.1 hn
      simpa using (List.mem_filter.1 hp).2
    have hvalues : ((withNumbers ns clauses).map (·.1)).filterMap (byClauseNumber clauses) =
        (withNumbers ns clauses).map (·.2) := by
      rw [List.filterMap_map, ← List.filterMap_eq_map]
      refine List.filterMap_congr fun p hp => ?_
      obtain ⟨hp, hn⟩ := List.mem_filter.1 hp
      refine Query.dict_eq_some hp fun q hq heq => ?_
      have hcount : (numbers clauses).count p.1 = 1 := hone p.1 (by simpa using hn)
      have hpair : (numbered clauses).filter (fun q => q.1 = p.1) = [p] := by
        have hlen : ((numbered clauses).filter fun q => q.1 = p.1).length = 1 := by
          rw [← List.countP_eq_length_filter, ← hcount, numbers, List.count, List.countP_map]
          exact List.countP_congr fun q _ => by simp
        obtain ⟨r, hr⟩ := List.length_eq_one_iff.1 hlen
        have hmem : p ∈ (numbered clauses).filter fun q => q.1 = p.1 := List.mem_filter.2 ⟨hp, by simp⟩
        rw [hr] at hmem ⊢
        rw [List.mem_singleton.1 hmem]
      have hq' : q ∈ (numbered clauses).filter fun q => q.1 = p.1 := List.mem_filter.2 ⟨hq, by simpa using heq⟩
      rw [hpair, List.mem_singleton] at hq'
      rw [hq']
    exact ((hkeys.filterMap _).trans (hvalues ▸ .refl _)).map toRef

end

/-! ## Both tiers -/

/-- What is left of a side is accounted for, so the clauses with matched numbers decide. -/
theorem perm_append_iff {clauses : List ClauseChunk} (p : ClauseChunk → Bool) {refs rest : List ClauseRef}
    (hrest : rest.Perm ((clauses.filter fun c => !p c).map toRef)) :
    (refs ++ rest).Perm (clauses.map toRef) ↔ refs.Perm ((clauses.filter p).map toRef) := by
  have hsplit : ((clauses.filter p).map toRef ++ (clauses.filter fun c => !p c).map toRef).Perm
      (clauses.map toRef) := by
    rw [← List.map_append]
    exact (List.filter_append_perm p clauses).map toRef
  constructor
  · intro h
    exact (List.perm_append_right_iff _).1 ((h.trans hsplit.symm).trans (hrest.symm.append_left _))
  · intro h
    exact (h.append hrest).trans hsplit

theorem mem_matchedNumbers {n : String} :
    n ∈ matchedNumbers english hindi ↔ n ∈ numbers english ∧ n ∈ numbers hindi := by
  unfold matchedNumbers numbers
  rw [List.mem_insertionSort, List.mem_filter, List.mem_dedup]
  simp

theorem nodup_matchedNumbers : (matchedNumbers english hindi).Nodup := by
  unfold matchedNumbers
  exact (List.perm_insertionSort _ _).nodup_iff.2 ((List.nodup_dedup _).filter _)

theorem empty_notMem_matchedNumbers : "" ∉ matchedNumbers english hindi := by
  intro h
  obtain ⟨p, hp, heq⟩ := List.mem_map.1 (mem_matchedNumbers.1 h).1
  exact (mem_numbered hp).1 heq

/-- One clause of each number in the alignments by number. -/
theorem filterMap_byNumber (clause : ClauseAlignment → Option ClauseRef) (clauses : List ClauseChunk)
    (ns : List String) (mk : String → ClauseAlignment)
    (h : ∀ n, clause (mk n) = (byClauseNumber clauses n).map toRef) :
    (ns.map mk).filterMap clause = (ns.filterMap (byClauseNumber clauses)).map toRef := by
  rw [List.filterMap_map, List.map_filterMap]
  exact List.filterMap_congr fun n _ => h n

/-- The alignments that each come from a clause, or from none. -/
theorem filterMap_of_clause {ι : Type} (clause : ClauseAlignment → Option ClauseRef) (l : List ι)
    (mk : ι → ClauseAlignment) (chunk : ι → ClauseChunk) (h : ∀ i, clause (mk i) = some (toRef (chunk i))) :
    (l.map mk).filterMap clause = (l.map chunk).map toRef := by
  rw [List.filterMap_map, List.map_map, ← List.filterMap_eq_map]
  exact List.filterMap_congr fun i _ => h i

theorem filterMap_of_none {ι : Type} (clause : ClauseAlignment → Option ClauseRef) (l : List ι)
    (mk : ι → ClauseAlignment) (h : ∀ i, clause (mk i) = none) : (l.map mk).filterMap clause = [] := by
  rw [List.filterMap_map, List.filterMap_eq_nil_iff]
  exact fun i _ => h i

/-- The English clauses in the alignments. -/
theorem perm_english_iff (similarity : String → String → Rat) :
    ((alignClauses similarity english hindi).filterMap (·.englishClause)).Perm (english.map toRef) ↔
      ∀ n ∈ matchedNumbers english hindi, (numbers english).count n = 1 := by
  have hrest := (perm_side similarity (english.filter fun c => !isMatched english hindi c)
    (hindi.filter fun c => !isMatched english hindi c) Scored.english
    (nodup_greedy_left _) fun s hs => (mem_scored hs).1).map toRef
  unfold alignClauses alignByEmbedding
  dsimp only
  rw [List.filterMap_append, List.filterMap_append, List.filterMap_append,
    filterMap_byNumber _ english _ _ fun n => rfl,
    filterMap_of_clause _ _ Scored.alignment (fun s => s.english.1) fun s => rfl,
    filterMap_of_clause _ _ _ id fun c => rfl, filterMap_of_none _ _ _ fun c => rfl, List.append_nil, List.map_id,
    List.append_assoc, ← List.map_append, perm_append_iff (isMatched english hindi) hrest]
  exact perm_matched_iff nodup_matchedNumbers (fun n hn => (mem_matchedNumbers.1 hn).1) empty_notMem_matchedNumbers

/-- The Hindi clauses in the alignments. -/
theorem perm_hindi_iff (similarity : String → String → Rat) :
    ((alignClauses similarity english hindi).filterMap (·.hindiClause)).Perm (hindi.map toRef) ↔
      ∀ n ∈ matchedNumbers english hindi, (numbers hindi).count n = 1 := by
  have hrest := (perm_side similarity (english.filter fun c => !isMatched english hindi c)
    (hindi.filter fun c => !isMatched english hindi c) Scored.hindi
    (nodup_greedy_right _) fun s hs => (mem_scored hs).2).map toRef
  unfold alignClauses alignByEmbedding
  dsimp only
  rw [List.filterMap_append, List.filterMap_append, List.filterMap_append,
    filterMap_byNumber _ hindi _ _ fun n => rfl,
    filterMap_of_clause _ _ Scored.alignment (fun s => s.hindi.1) fun s => rfl,
    filterMap_of_none _ _ _ fun c => rfl, filterMap_of_clause _ _ _ id fun c => rfl, List.append_nil, List.map_id,
    List.append_assoc, ← List.map_append, perm_append_iff (isMatched english hindi) hrest]
  exact perm_matched_iff nodup_matchedNumbers (fun n hn => (mem_matchedNumbers.1 hn).2) empty_notMem_matchedNumbers

/-! ## What is reported -/

theorem missing_pairDiscrepancies {t : DiscrepancyType}
    (ht : t = .missingClauseInHindi ∨ t = .missingClauseInEnglish) (number excerpt : ClauseDiscrepancy → Option String)
    (threshold : Rat) (v : Verification) (en hi : ClauseRef) :
    (pairDiscrepancies threshold v en hi).filterMap (ClauseDiscrepancy.missing t number excerpt) = [] := by
  rw [List.filterMap_eq_nil_iff]
  intro d hd
  have htype : d.discrepancyType = .numericMismatch ∨ d.discrepancyType = .semanticDrift ∨
      d.discrepancyType = .ambiguousTranslation := by
    unfold pairDiscrepancies at hd
    cases List.mem_append.1 hd with
    | inl h =>
      split at h
      · cases h
      · rw [List.mem_singleton.1 h]
        exact .inl rfl
    | inr h =>
      split at h
      · rw [List.mem_singleton.1 h]
        exact .inr (.inl rfl)
      · split at h
        · rw [List.mem_singleton.1 h]
          exact .inr (.inr rfl)
        · cases h
  unfold ClauseDiscrepancy.missing
  rw [if_neg]
  rcases ht with rfl | rfl <;> rcases htype with h | h | h <;> rw [h] <;> decide

/-- A clause in an alignment is verified with a counterpart, or reported missing. -/
theorem perm_reported_english (threshold : Rat) (verify : String → String → Verification)
    (alignments : List ClauseAlignment) :
    ((alignments.filterMap ClauseAlignment.pair).map (·.1) ++
      (alignments.flatMap (ClauseAlignment.discrepancies threshold verify)).filterMap
        (ClauseDiscrepancy.missing .missingClauseInHindi (·.englishClauseNumber) (·.englishExcerpt))).Perm
      (alignments.filterMap (·.englishClause)) := by
  induction alignments with
  | nil => exact .nil
  | cons a alignments ih =>
    obtain ⟨en, hi, method, confidence⟩ := a
    rw [List.flatMap_cons, List.filterMap_append]
    cases en with
    | none =>
      have hnone : (ClauseAlignment.discrepancies threshold verify ⟨none, hi, method, confidence⟩).filterMap
          (ClauseDiscrepancy.missing .missingClauseInHindi (·.englishClauseNumber) (·.englishExcerpt)) = [] := by
        cases hi <;> rfl
      rw [hnone, List.nil_append, List.filterMap_cons_none rfl, List.filterMap_cons_none rfl]
      exact ih
    | some en =>
      have hen : ClauseAlignment.englishClause ⟨some en, hi, method, confidence⟩ = some en := rfl
      rw [List.filterMap_cons_some hen]
      cases hi with
      | none =>
        rw [List.filterMap_cons_none rfl]
        exact List.perm_middle.trans (ih.cons en)
      | some hi =>
        have hpair := missing_pairDiscrepancies (.inl rfl) (·.englishClauseNumber) (·.englishExcerpt) threshold
          (verify en.text hi.text) en hi
        have hboth : ClauseAlignment.pair ⟨some en, some hi, method, confidence⟩ = some (en, hi) := rfl
        rw [List.filterMap_cons_some hboth, ClauseAlignment.discrepancies, hpair]
        exact ih.cons en

theorem perm_reported_hindi (threshold : Rat) (verify : String → String → Verification)
    (alignments : List ClauseAlignment) :
    ((alignments.filterMap ClauseAlignment.pair).map (·.2) ++
      (alignments.flatMap (ClauseAlignment.discrepancies threshold verify)).filterMap
        (ClauseDiscrepancy.missing .missingClauseInEnglish (·.hindiClauseNumber) (·.hindiExcerpt))).Perm
      (alignments.filterMap (·.hindiClause)) := by
  induction alignments with
  | nil => exact .nil
  | cons a alignments ih =>
    obtain ⟨en, hi, method, confidence⟩ := a
    rw [List.flatMap_cons, List.filterMap_append]
    cases hi with
    | none =>
      have hnone : (ClauseAlignment.discrepancies threshold verify ⟨en, none, method, confidence⟩).filterMap
          (ClauseDiscrepancy.missing .missingClauseInEnglish (·.hindiClauseNumber) (·.hindiExcerpt)) = [] := by
        cases en <;> rfl
      have hpair : ClauseAlignment.pair ⟨en, none, method, confidence⟩ = none := by cases en <;> rfl
      rw [hnone, List.nil_append, List.filterMap_cons_none hpair, List.filterMap_cons_none rfl]
      exact ih
    | some hi =>
      have hhi : ClauseAlignment.hindiClause ⟨en, some hi, method, confidence⟩ = some hi := rfl
      rw [List.filterMap_cons_some hhi]
      cases en with
      | none =>
        rw [List.filterMap_cons_none rfl]
        exact List.perm_middle.trans (ih.cons hi)
      | some en =>
        have hpair := missing_pairDiscrepancies (.inr rfl) (·.hindiClauseNumber) (·.hindiExcerpt) threshold
          (verify en.text hi.text) en hi
        have hboth : ClauseAlignment.pair ⟨some en, some hi, method, confidence⟩ = some (en, hi) := rfl
        rw [List.filterMap_cons_some hboth, ClauseAlignment.discrepancies, hpair]
        exact ih.cons hi

/-- **An alignment loses nothing** just when no number of both sides is repeated on one. -/
theorem losesNothing_iff (english hindi : List ClauseChunk) :
    LosesNothing english hindi ↔ Unrepeated english hindi := by
  have hunrepeated : Unrepeated english hindi ↔
      (∀ n ∈ matchedNumbers english hindi, (numbers english).count n = 1) ∧
        ∀ n ∈ matchedNumbers english hindi, (numbers hindi).count n = 1 := by
    constructor
    · intro h
      refine ⟨fun n hn => ?_, fun n hn => ?_⟩
      · obtain ⟨hen, hhi⟩ := mem_matchedNumbers.1 hn
        exact (h n hen hhi).1
      · obtain ⟨hen, hhi⟩ := mem_matchedNumbers.1 hn
        exact (h n hen hhi).2
    · intro h n hen hhi
      have hn := mem_matchedNumbers.2 ⟨hen, hhi⟩
      exact ⟨h.1 n hn, h.2 n hn⟩
  rw [hunrepeated]
  constructor
  · intro h
    exact ⟨(perm_english_iff fun _ _ => 0).1 (h.englishAligned _),
      (perm_hindi_iff fun _ _ => 0).1 (h.hindiAligned _)⟩
  · intro h
    exact ⟨fun similarity => (perm_english_iff similarity).2 h.1, fun similarity => (perm_hindi_iff similarity).2 h.2,
      fun similarity threshold verify =>
        (perm_reported_english threshold verify _).trans ((perm_english_iff similarity).2 h.1),
      fun similarity threshold verify =>
        (perm_reported_hindi threshold verify _).trans ((perm_hindi_iff similarity).2 h.2)⟩

/-- Of two fragments of one clause the first is lost. -/
theorem not_forall_losesNothing : ¬ ∀ english hindi, LosesNothing english hindi := by
  intro h
  have hperm := (h [⟨some "4.2", "Collect the margin"⟩, ⟨some "4.2", "before the trade."⟩]
    [⟨some "4.2", "Margin"⟩]).englishAligned fun _ _ => 0
  have hlength := hperm.length_eq
  cases hlength

end RegEngine.TranslationParity
