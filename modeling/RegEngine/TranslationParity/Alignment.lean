import Mathlib.Data.List.Sort
import RegEngine.Lib.Binary64
import RegEngine.Lib.Matching
import RegEngine.Lib.Query

/-!
# Bilingual alignment

`app/translation_parity/alignment.py`, and `SemanticParityChecker.check` of `app/translation_parity/checker.py`.
The similarity of two texts and the verifier of a pair are parameters; the descriptions of discrepancies and
the mean similarity are left out.
-/

namespace RegEngine.TranslationParity

open Lib

/-- What the alignment reads of a `ClauseChunk`. -/
structure ClauseChunk where
  clauseNumber : Option String
  text : String
  deriving DecidableEq

structure ClauseRef where
  clauseNumber : Option String
  text : String
  deriving DecidableEq

structure ClauseAlignment where
  englishClause : Option ClauseRef
  hindiClause : Option ClauseRef
  matchMethod : String
  matchConfidence : Option Rat := none

/-- `_to_ref`, of a clause. -/
def toRef (chunk : ClauseChunk) : ClauseRef := ⟨chunk.clauseNumber, chunk.text⟩

/-- A clause under its number, if it has one. -/
def underNumber (c : ClauseChunk) : Option (String × ClauseChunk) :=
  (c.clauseNumber.filter fun n => n ≠ "").map fun n => (n, c)

def numbered (clauses : List ClauseChunk) : List (String × ClauseChunk) := clauses.filterMap underNumber

/-- `_by_clause_number`. -/
def byClauseNumber (clauses : List ClauseChunk) : String → Option ClauseChunk := Query.dict (numbered clauses)

/-- The numbers of both sides, sorted. -/
def matchedNumbers (englishClauses hindiClauses : List ClauseChunk) : List String :=
  (((numbered englishClauses).map (·.1)).dedup.filter fun n => n ∈ (numbered hindiClauses).map (·.1)).insertionSort
    fun a b => a ≤ b

/-- `_MIN_EMBEDDING_ALIGNMENT_SIMILARITY`. -/
def minEmbeddingAlignmentSimilarity : Rat := (Binary64.ofRat 0.35).toRat

/-- A pair of clauses with their positions and its similarity. -/
structure Scored where
  similarity : Rat
  english : ClauseChunk × Nat
  hindi : ClauseChunk × Nat

/-- All pairs, in descending order of similarity. -/
def scored (similarity : String → String → Rat) (englishClauses hindiClauses : List ClauseChunk) : List Scored :=
  (englishClauses.zipIdx.flatMap fun en => hindiClauses.zipIdx.map fun hi =>
    (⟨similarity en.1.text hi.1.text, en, hi⟩ : Scored)).insertionSort fun a b => b.similarity ≤ a.similarity

def Scored.alignment (s : Scored) : ClauseAlignment :=
  ⟨some (toRef s.english.1), some (toRef s.hindi.1), "embedding", some s.similarity⟩

/-- The pairs that `_align_by_embedding` takes. -/
def taken (similarity : String → String → Rat) (englishClauses hindiClauses : List ClauseChunk) : List Scored :=
  greedy (fun s => minEmbeddingAlignmentSimilarity ≤ s.similarity) (fun s => s.english.2) (fun s => s.hindi.2)
    [] [] (scored similarity englishClauses hindiClauses)

/-- `_align_by_embedding`: the alignments, and the clauses of either side that have none. -/
def alignByEmbedding (similarity : String → String → Rat) (englishClauses hindiClauses : List ClauseChunk) :
    List ClauseAlignment × List ClauseChunk × List ClauseChunk :=
  let pairs := taken similarity englishClauses hindiClauses
  let unmatchedEnglish := englishClauses.zipIdx.filter fun c => c.2 ∉ pairs.map fun s => s.english.2
  let unmatchedHindi := hindiClauses.zipIdx.filter fun c => c.2 ∉ pairs.map fun s => s.hindi.2
  (pairs.map Scored.alignment, unmatchedEnglish.map (·.1), unmatchedHindi.map (·.1))

/-- A clause whose number both sides have. -/
def isMatched (englishClauses hindiClauses : List ClauseChunk) (c : ClauseChunk) : Bool :=
  c.clauseNumber.any fun n => n ∈ matchedNumbers englishClauses hindiClauses

/-- `align_clauses`. -/
def alignClauses (similarity : String → String → Rat) (englishClauses hindiClauses : List ClauseChunk) :
    List ClauseAlignment :=
  let byNumber := (matchedNumbers englishClauses hindiClauses).map fun n =>
    (⟨(byClauseNumber englishClauses n).map toRef, (byClauseNumber hindiClauses n).map toRef, "clause_number",
      some 1⟩ : ClauseAlignment)
  let (byEmbedding, unmatchedEnglish, unmatchedHindi) := alignByEmbedding similarity
    (englishClauses.filter fun c => !isMatched englishClauses hindiClauses c)
    (hindiClauses.filter fun c => !isMatched englishClauses hindiClauses c)
  byNumber ++ byEmbedding ++ unmatchedEnglish.map (fun c => ⟨some (toRef c), none, "unmatched", none⟩) ++
    unmatchedHindi.map fun c => ⟨none, some (toRef c), "unmatched", none⟩

/-! ## `SemanticParityChecker` -/

inductive DiscrepancyType where
  | numericMismatch
  | semanticDrift
  | ambiguousTranslation
  | missingClauseInHindi
  | missingClauseInEnglish
  deriving DecidableEq

inductive DiscrepancySeverity where
  | blocking
  | advisory
  deriving DecidableEq

structure ClauseDiscrepancy where
  discrepancyType : DiscrepancyType
  severity : DiscrepancySeverity
  englishClauseNumber : Option String
  hindiClauseNumber : Option String
  englishExcerpt : Option String := none
  hindiExcerpt : Option String := none

/-- What the verifier says of two texts. -/
structure Verification where
  semanticSimilarity : Rat
  semanticSimilarityPassed : Bool
  numericPrecisionPreserved : Bool

structure TranslationParityReport where
  alignments : List ClauseAlignment
  /-- The pairs that were verified. -/
  verified : List (ClauseRef × ClauseRef)
  discrepancies : List ClauseDiscrepancy
  requiresHitlReview : Bool

/-- The discrepancies of a verified pair. -/
def pairDiscrepancies (ambiguousThreshold : Rat) (v : Verification) (english hindi : ClauseRef) :
    List ClauseDiscrepancy :=
  let found (t : DiscrepancyType) (severity : DiscrepancySeverity) : ClauseDiscrepancy :=
    ⟨t, severity, english.clauseNumber, hindi.clauseNumber, some english.text, some hindi.text⟩
  (if v.numericPrecisionPreserved then [] else [found .numericMismatch .blocking]) ++
    if !v.semanticSimilarityPassed then [found .semanticDrift .blocking]
    else if v.semanticSimilarity < ambiguousThreshold then [found .ambiguousTranslation .advisory]
    else []

/-- `_missing_clause_discrepancy`, of an alignment of one side. -/
def missingInHindi (english : ClauseRef) : ClauseDiscrepancy :=
  ⟨.missingClauseInHindi, .blocking, english.clauseNumber, none, some english.text, none⟩

def missingInEnglish (hindi : ClauseRef) : ClauseDiscrepancy :=
  ⟨.missingClauseInEnglish, .blocking, none, hindi.clauseNumber, none, some hindi.text⟩

/-- The pair that is verified for an alignment. -/
def ClauseAlignment.pair (a : ClauseAlignment) : Option (ClauseRef × ClauseRef) :=
  match a.englishClause, a.hindiClause with
  | some english, some hindi => some (english, hindi)
  | _, _ => none

/-- What is reported of an alignment; one without a clause is never made. -/
def ClauseAlignment.discrepancies (ambiguousThreshold : Rat) (verify : String → String → Verification)
    (a : ClauseAlignment) : List ClauseDiscrepancy :=
  match a.englishClause, a.hindiClause with
  | some english, some hindi =>
    pairDiscrepancies ambiguousThreshold (verify english.text hindi.text) english hindi
  | some english, none => [missingInHindi english]
  | none, some hindi => [missingInEnglish hindi]
  | none, none => []

/-- `SemanticParityChecker.check`. -/
def check (similarity : String → String → Rat) (ambiguousThreshold : Rat)
    (verify : String → String → Verification) (englishClauses hindiClauses : List ClauseChunk) :
    TranslationParityReport :=
  let alignments := alignClauses similarity englishClauses hindiClauses
  let discrepancies := alignments.flatMap (ClauseAlignment.discrepancies ambiguousThreshold verify)
  { alignments := alignments
    verified := alignments.filterMap ClauseAlignment.pair
    discrepancies := discrepancies
    requiresHitlReview := discrepancies.any fun d => d.severity = .blocking }

end RegEngine.TranslationParity
