import RegEngine.Hitl.Models
import RegEngine.Ledger.Chain
import RegEngine.Lib.Query
import Mathlib.Data.Nat.Size

/-!
# The audit binder and the portal's checks

`build_audit_binder` of `app/reporting/audit_binder.py` with the rows of `build_audit_trail` in
`app/analytics/aggregator.py`, and `verification-portal/custody-chain.html`: the re-derivation of the ledger's block
hashes, the hashes of the files of a package, and the reader of an RSA public key. The digest of a text or of bytes is a
parameter (`VerificationPortal.Sha256` is the one the page has). The collection of the period's rule changes and
circulars, the JSON, Excel and PDF texts, the signature, sequence numbers beyond `2 ^ 53`, which `JSON.parse` rounds,
the page itself and the call of WebCrypto are left out.
-/

namespace RegEngine.VerificationPortal

open Lib Lib.Calendar Lib.Python Lib.Query Ledger

/-! ## The audit trail -/

/-- The columns of an `AuditTrailEntry` that the portal reads. -/
structure AuditTrailEntry where
  sequenceNum : Int
  evaluatedAt : String
  payloadDigest : String
  currentHash : String

/-- How `model_dump_json` spells a time of the database: `Z` where `isoformat` has `+00:00`. -/
def jsonTime (t : DateTime) : String := String.ofList (clockChars t.instant ++ ['Z'])

/-- `build_audit_trail`: the rows of the period and the tenant, all of them on one page. How JSON spells a time is a
parameter. -/
def buildAuditTrail (spell : DateTime → String) (rows : List LedgerRow) (start finish : DateTime)
    (tenantId : Option String) : List AuditTrailEntry :=
  ((rows.filter fun r => inWindow (some start) (some finish) r.evaluatedAt &&
      tenantId.all fun t => t = "" || r.brokerId = t).insertionSort
    fun r s => r.sequenceNum ≤ s.sequenceNum).map fun r =>
      { sequenceNum := r.sequenceNum
        evaluatedAt := spell r.evaluatedAt
        payloadDigest := r.payloadDigest
        currentHash := r.currentHash }

/-! ## `verifyLedgerChain` -/

inductive NodeStatus where
  | pass
  | warn
  | fail
  deriving DecidableEq, Repr

structure LedgerNode extends AuditTrailEntry where
  gap : Bool
  previousHashUsed : Option String
  recomputedHash : Option String
  hashMatches : Option Bool
  status : NodeStatus

/-- `computeBlockHash`. -/
def computeBlockHash (sha256 : String → String) (previousHash payloadDigest : String) (sequenceNum : Int)
    (evaluatedAt : String) : String :=
  sha256 (previousHash ++ "|" ++ payloadDigest ++ "|" ++ toString sequenceNum ++ "|" ++ evaluatedAt)

/-- One pass of the loop: `gap` and `previousHash` as they stand before the hash is recomputed. -/
def checkEntry (sha256 : String → String) (gap : Bool) (previousHash : Option String) (entry : AuditTrailEntry) :
    LedgerNode :=
  let recomputedHash := previousHash.map fun p =>
    computeBlockHash sha256 p entry.payloadDigest entry.sequenceNum entry.evaluatedAt
  let hashMatches := recomputedHash.map fun h => decide (h = entry.currentHash)
  { entry with
    gap := gap
    previousHashUsed := previousHash
    recomputedHash := recomputedHash
    hashMatches := hashMatches
    status :=
      if gap then .warn
      else match hashMatches with
      | none => .warn
      | some false => .fail
      | some true => .pass }

/-- The entries behind the first. -/
def checkRest (sha256 : String → String) : AuditTrailEntry → List AuditTrailEntry → List LedgerNode
  | _, [] => []
  | prior, entry :: entries =>
    checkEntry sha256 (entry.sequenceNum ≠ prior.sequenceNum + 1) (some prior.currentHash) entry ::
      checkRest sha256 entry entries

def verifyLedgerChain (sha256 : String → String) (rawEntries : List AuditTrailEntry) : List LedgerNode :=
  match rawEntries.insertionSort fun a b => a.sequenceNum ≤ b.sequenceNum with
  | [] => []
  | first :: rest =>
    checkEntry sha256 false (if first.sequenceNum = 0 then some genesisHash else none) first ::
      checkRest sha256 first rest

/-! ## The package -/

/-- The `files` of a package: a dictionary from paths to contents. -/
abbrev Package := List (String × List UInt8)

/-- `_collect_rego_files`: each rule id with the policy of the last of its rows, of any version. -/
def collectRegoFiles (rules : List Hitl.CompiledRule) (ruleIds : List String) : List (String × String) :=
  ofItems ((rules.filter fun r => r.ruleId ∈ ruleIds).filterMap fun r => r.regoPolicy.map fun rego => (r.ruleId, rego))

/-- The path of a rule: `rule_id.replace("/", "_").replace(":", "_")`. -/
def regoPath (ruleId : String) : String :=
  "rego/" ++ String.ofList (ruleId.toList.map fun c => if c = '/' ∨ c = ':' then '_' else c) ++ ".rego"

/-- A clause with the number of its circular. -/
structure ClauseRow where
  circularNumber : String
  clauseNumber : Option String
  sha256 : String

def collectClauseHashes (rows : List ClauseRow) : List (String × List (String × String)) :=
  rows.foldl (fun result row => setItem result row.circularNumber
    (setItem ((lookup result row.circularNumber).getD []) (orText row.clauseNumber "unscoped") row.sha256)) []

/-- The columns of a circular that name its file. -/
structure SourceCircular where
  circularNumber : String
  sourceFilename : Option String
  sourceUrl : Option String

/-- `_find_source_pdf`, with what the archive holds under a name. -/
def findSourcePdf (archive : String → Option (List UInt8)) (circular : SourceCircular) : Option (List UInt8) :=
  let filename :=
    if truthy circular.sourceFilename then circular.sourceFilename.getD ""
    else if truthy circular.sourceUrl then
      orText ((split '/' (circular.sourceUrl.getD "")).getLast?) (circular.circularNumber ++ ".pdf")
    else if circular.circularNumber ≠ "" then circular.circularNumber ++ ".pdf"
    else ""
  if filename = "" then none else archive filename

def pdfPath (circularNumber : String) : String :=
  "source_circulars/" ++ String.ofList (circularNumber.toList.map fun c => if c = '/' then '_' else c) ++ ".pdf"

/-- What the binder is made from: the database, the rule ids of the period's changes, the clauses and the circulars
they refer to, the archive, and the texts that are made of them. -/
structure BinderSource where
  rules : List Hitl.CompiledRule
  ruleIds : List String
  clauses : List ClauseRow
  circulars : List SourceCircular
  archive : String → Option (List UInt8)
  clauseHashesJson : List (String × List (String × String)) → List UInt8
  ledgerProof : List UInt8
  workbook : List UInt8
  binderJson : List UInt8

/-- The assignments to `files` before the manifest, in order. -/
def BinderSource.items (source : BinderSource) : List (String × List UInt8) :=
  ((collectRegoFiles source.rules source.ruleIds).map fun r => (regoPath r.1, r.2.toByteArray.data.toList)) ++
    ("source_circulars/clause_hashes.json", source.clauseHashesJson (collectClauseHashes source.clauses)) ::
      (source.circulars.filterMap fun c =>
        (findSourcePdf source.archive c).map fun content => (pdfPath c.circularNumber, content)) ++
    [("ledger_proof.json", source.ledgerProof), ("audit_binder.xlsx", source.workbook),
      ("audit_binder.json", source.binderJson)]

/-- The files of the manifest. -/
def BinderSource.evidence (source : BinderSource) : Package := ofItems source.items

structure ManifestFile where
  path : String
  sha256 : String

/-- `files` of the manifest. -/
def manifestFiles (hex : List UInt8 → String) (files : Package) : List ManifestFile :=
  (files.insertionSort fun a b => a.1 ≤ b.1).map fun f => { path := f.1, sha256 := hex f.2 }

/-- `build_audit_binder`: the evidence, its manifest, the signature of the manifest if there is a key, and the PDF. -/
def buildAuditBinder (source : BinderSource) (hex : List UInt8 → String) (manifestJson : List ManifestFile → List UInt8)
    (sign : Option (List UInt8 → List UInt8)) (summaryPdf : List UInt8) : Package :=
  let manifestBytes := manifestJson (manifestFiles hex source.evidence)
  let files := setItem source.evidence "manifest.json" manifestBytes
  let files := match sign with
    | some signManifest => setItem files "digital_signature.json" (signManifest manifestBytes)
    | none => files
  setItem files "executive_summary.pdf" summaryPdf

/-! ## The files in the portal -/

structure FileResult where
  path : String
  expected : String
  actual : Option String
  status : NodeStatus

/-- `zip.file(path)`. -/
def Package.file (zip : Package) (path : String) : Option (List UInt8) := lookup zip path

/-- The loop of `loadZipPackage` over the files of the manifest. -/
def checkFiles (hex : List UInt8 → String) (zip : Package) (manifest : List ManifestFile) : List FileResult :=
  manifest.map fun entry =>
    match zip.file entry.path with
    | none => { path := entry.path, expected := entry.sha256, actual := none, status := .fail }
    | some content =>
      { path := entry.path
        expected := entry.sha256
        actual := some (hex content)
        status := if hex content = entry.sha256 then .pass else .fail }

/-! ## The key of the signature -/

end RegEngine.VerificationPortal
