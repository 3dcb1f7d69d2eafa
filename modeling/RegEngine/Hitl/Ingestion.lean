import RegEngine.Hitl.Models
import RegEngine.Parsing.Chunker

/-!
# Persisting a parsed document

`parse_pdf_bytes` of `app/services/pipeline.py`, `persist_circular` and `persist_clauses` of
`app/services/orchestrator.py`. What `extract_pdf` reads in a file, the translation of a chunk and the
decoding of a file are inputs; the columns of a circular's title, dates and source are left out.
-/

namespace RegEngine.Hitl

open Lib Lib.Python Lib.Sha256 Ledger.Provenance Parsing

/-! ## `parse_pdf_bytes` -/

structure ParseResult where
  metadata : CircularMetadata
  chunks : List ClauseChunk
  sourceDocumentSha256 : Option String
  extractedTextSha256 : Option String

/-- `_localize_chunks`: a chunk in a regional language gets the text of its translation and keeps its
`sha256`. -/
def localizeChunks (translate : ClauseChunk → Option String) (chunks : List ClauseChunk) :
    List ClauseChunk :=
  chunks.map fun c => { c with text := (translate c).getD c.text }

/-- `"\n\n".join(c.text for c in chunks)`. -/
def combinedText (chunks : List ClauseChunk) : String := "\n\n".intercalate (chunks.map (·.text))

def parsePdfBytes (nfkc : String → String) (settings : Settings) (ids : Nat → Nat → String)
    (translate : ClauseChunk → Option String) (fileBytes : List UInt8)
    (extracted : CircularMetadata × List DocumentElement) : Except ParsingError ParseResult := do
  let chunks ← chunkElements nfkc extracted.1 settings ids extracted.2
  let localized := localizeChunks translate chunks
  pure
    { metadata := extracted.1
      chunks := localized
      sourceDocumentSha256 := some (sha256OfBytes fileBytes)
      extractedTextSha256 := some (sha256OfExtractedText nfkc (combinedText localized)) }

/-! ## `persist_circular` -/

/-- The digests and the number a document is stored under. -/
structure Identity where
  circularNumber : String
  rawTextDigest : String
  sourceDocumentSha256 : String

/-- `decode` is `bytes.decode("utf-8", errors="ignore")`. -/
def identityOf (nfkc : String → String) (decode : List UInt8 → String) (parsed : ParseResult)
    (fileBytes : List UInt8) : Identity :=
  let text := if parsed.chunks ≠ [] then combinedText parsed.chunks else decode fileBytes
  let digest := orText parsed.extractedTextSha256 (sha256OfExtractedText nfkc text)
  { circularNumber := orText parsed.metadata.circularNumber
      ("SEBI/CIR/" ++ String.ofList ((digest.toList.take 10).map Char.toUpper))
    rawTextDigest := digest
    sourceDocumentSha256 := orText parsed.sourceDocumentSha256 (sha256OfBytes fileBytes) }

/-- The circulars with the number, the text digest or the file digest of a document. -/
def matchingCirculars (s : Store) (doc : Identity) : List (Nat × Circular) :=
  s.circulars.select fun c => c.circularNumber = doc.circularNumber ∨
    c.rawTextDigest = doc.rawTextDigest ∨ c.sourceDocumentSha256 = some doc.sourceDocumentSha256

/-- `INSERT INTO circulars`, after `matchingCirculars` found none. -/
def insertCircular (s : Store) (circular : Circular) : Except Error (Nat × Store) :=
  if circular.rawTextDigest.toList.length ≠ 64 then .error (.integrityError "raw_text_digest_len")
  else if circular.sourceDocumentSha256.any fun h => h.toList.length ≠ 64 then
    .error (.integrityError "source_document_sha256_len")
  else .ok (s.circulars.next, { s with circulars := s.circulars.insert circular })

/-- The file digest of a circular that has none. -/
def fillSource (doc : Identity) (c : Circular) : Circular :=
  if c.sourceDocumentSha256 = none ∧ doc.sourceDocumentSha256 ≠ "" then
    { c with sourceDocumentSha256 := some doc.sourceDocumentSha256 }
  else c

def persistCircular (nfkc : String → String) (decode : List UInt8 → String) (s : Store)
    (parsed : ParseResult) (fileBytes : List UInt8) : Except Error (Nat × Store) :=
  let doc := identityOf nfkc decode parsed fileBytes
  match matchingCirculars s doc with
  | [c] => .ok (c.1, { s with circulars := s.circulars.update c.1 (fillSource doc) })
  | [] =>
    insertCircular s
      { circularNumber := doc.circularNumber
        sourceDocumentSha256 := some doc.sourceDocumentSha256
        rawTextDigest := doc.rawTextDigest }
  | _ => .error .multipleResultsFound

/-! ## `persist_clauses` -/

/-- The digest of a clause row: that of the chunk, if it has the length of one. -/
def chunkDigest (chunk : ClauseChunk) : String :=
  if chunk.sha256.toList.length = 64 then chunk.sha256 else hexdigest chunk.text

/-- The row of a chunk, as it is inserted. -/
def clauseOf (circularId : Nat) (chunk : ClauseChunk) : Clause where
  circularId := circularId
  clauseNumber := chunk.clauseNumber
  text := chunk.text
  sha256 := chunkDigest chunk

/-- One clause: the row with its digest in this circular, or a new one. -/
def persistClause (s : Store) (circularId : Nat) (chunk : ClauseChunk) : Except Error (Nat × Store) :=
  match s.clauses.select fun c => c.circularId = circularId ∧ c.sha256 = chunkDigest chunk with
  | [c] => .ok (c.1, s)
  | [] => .ok (s.clauses.next, { s with clauses := s.clauses.insert (clauseOf circularId chunk) })
  | _ => .error .multipleResultsFound

/-- The keys of the clauses, in the order of the chunks. -/
def persistClauses (circularId : Nat) : Store → List ClauseChunk → Except Error (List Nat × Store)
  | s, [] => .ok ([], s)
  | s, chunk :: chunks => do
    let (k, s) ← persistClause s circularId chunk
    let (ks, s) ← persistClauses circularId s chunks
    pure (k :: ks, s)

end RegEngine.Hitl
