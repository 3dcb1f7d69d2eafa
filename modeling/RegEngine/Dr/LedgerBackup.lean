import RegEngine.Ledger.Chain

/-!
# The ledger backup and the check against it

`dr/ledger_backup_export.py` and `dr/validate_chain_post_failover.py`. An export is cut where it waits for
the database or the bucket: between two of its steps the ledger grows, other exports run, and an export
that is never resumed has crashed. The JSON text of a row is a parameter; the manifest's text, a bucket that cannot be
reached (as an empty one) and logging are left out.
-/

namespace RegEngine.Dr

open Lib Lib.Calendar Lib.Python Lib.Sha256 Ledger

/-! ## The bucket -/

structure Manifest where
  exporterId : String
  exportedAt : String
  startSequenceNum : Int
  lastSequenceNum : Int
  lastCurrentHash : String
  entriesObjectKey : String
  entriesSha256 : String
  rowCount : Nat

/-- Exported rows with their metadata, or a manifest. -/
inductive Body where
  | entries (text sha256 : String) (rowCount : Nat)
  | manifest (m : Manifest)

structure Object where
  key : String
  lastModified : Int
  body : Body

/-- `f"{n:012d}"`. -/
def sequenceText (n : Int) : String :=
  let sign := if n < 0 then ['-'] else []
  String.ofList (sign ++ (Nat.toDigits 10 n.natAbs).leftpad (12 - sign.length) '0')

def entriesKey (startSeq endSeq : Int) : String :=
  "entries/" ++ sequenceText startSeq ++ "-" ++ sequenceText endSeq ++ ".jsonl"

def manifestKey (timestamp : String) (endSeq : Int) : String :=
  "manifests/manifest_" ++ timestamp ++ "_" ++ sequenceText endSeq ++ ".json"

/-- The rows an export selected: at least one. -/
structure Selection where
  first : LedgerRow
  rest : List LedgerRow

namespace Selection

variable (line : LedgerRow → String)

def rows (s : Selection) : List LedgerRow := s.first :: s.rest

def last (s : Selection) : LedgerRow := s.rows.getLast (List.cons_ne_nil _ _)

def key (s : Selection) : String := entriesKey s.first.sequenceNum s.last.sequenceNum

def text (s : Selection) : String := "\n".intercalate (s.rows.map line)

def entries (s : Selection) : Body := .entries (s.text line) (hexdigest (s.text line)) s.rows.length

def manifest (s : Selection) (exporterId exportedAt : String) : Manifest where
  exporterId := exporterId
  exportedAt := exportedAt
  startSequenceNum := s.first.sequenceNum
  lastSequenceNum := s.last.sequenceNum
  lastCurrentHash := s.last.currentHash
  entriesObjectKey := s.key
  entriesSha256 := hexdigest (s.text line)
  rowCount := s.rows.length

end Selection

/-- The rows past the last exported one, in their order. -/
def selectNew (ledger : List LedgerRow) (lastSeq : Int) : List LedgerRow :=
  (ledger.filter fun r => lastSeq < r.sequenceNum).insertionSort fun r s => r.sequenceNum ≤ s.sequenceNum

/-- Where an export waits: for the rows, for the two writes to the bucket, and for the commit of its
state. -/
inductive Phase where
  | opened (lastSeq : Int)
  | selected (lastSeq : Int) (rows : Selection)
  | archived (lastSeq : Int) (rows : Selection)
  | recorded (lastSeq : Int) (rows : Selection)
  | finished
  | failed

structure Export where
  exporterId : String
  phase : Phase

/-- The clocks when an export goes on: the exporter's, as both texts, and the bucket's. -/
structure Clock where
  exportedAt : String
  timestamp : String
  lastModified : Int

/-- The region of the old primary: its ledger, the table `ledger_backup_state`, the bucket with every
version put, and the exports started so far. -/
structure Site where
  ledger : List LedgerRow := []
  backupState : String → Option Int := fun _ => none
  bucket : List Object := []
  exports : List Export := []

/-- One appended row, a new export, and a step of one. -/
inductive Event where
  | append (event : ComplianceEvaluationEvent) (stamp : Stamp)
  | start (exporterId : String)
  | resume (number : Nat) (clock : Clock)

section
variable (line : LedgerRow → String)

/-- One step of `export_new_entries`. -/
def Site.resume (site : Site) (x : Export) (clock : Clock) : Site × Phase :=
  match x.phase with
  | .opened lastSeq =>
    match selectNew site.ledger lastSeq with
    | [] => (site, .finished)
    | first :: rest => (site, .selected lastSeq ⟨first, rest⟩)
  | .selected lastSeq rows =>
    ({ site with bucket := site.bucket ++ [⟨rows.key, clock.lastModified, rows.entries line⟩] },
      .archived lastSeq rows)
  | .archived lastSeq rows =>
    ({ site with bucket := site.bucket ++ [⟨manifestKey clock.timestamp rows.last.sequenceNum, clock.lastModified,
        .manifest (rows.manifest line x.exporterId clock.exportedAt)⟩] },
      .recorded lastSeq rows)
  | .recorded lastSeq rows =>
    if 0 ≤ lastSeq then
      ({ site with backupState := fun id =>
          if id = x.exporterId then (site.backupState id).map fun _ => rows.last.sequenceNum
          else site.backupState id },
        .finished)
    -- a second insertion for one exporter is refused
    else if (site.backupState x.exporterId).isSome then (site, .failed)
    else
      ({ site with backupState := fun id =>
          if id = x.exporterId then some rows.last.sequenceNum else site.backupState id },
        .finished)
  | phase => (site, phase)

def Site.step (site : Site) : Event → Site
  | .append event stamp => { site with ledger := appendEntry site.ledger event stamp }
  | .start exporterId =>
    { site with exports := site.exports ++ [⟨exporterId, .opened ((site.backupState exporterId).getD (-1))⟩] }
  | .resume number clock =>
    match site.exports[number]? with
    | some x =>
      let (site, phase) := site.resume line x clock
      { site with exports := site.exports.set number { x with phase } }
    | none => site

def run (events : List Event) : Site := events.foldl (Site.step line) {}

end

/-! ## `validate_post_failover` -/

end RegEngine.Dr
