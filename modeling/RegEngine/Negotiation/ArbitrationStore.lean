import Mathlib.Logic.Function.Basic
import RegEngine.Lib.Json
import RegEngine.Lib.Sha256
import RegEngine.Lib.Calendar

/-!
# Data of the arbitration

`app/negotiation/arbitration_models.py`: claims, arguments, rounds, the arbiter's verdict and the
transcript, with the hash that seals it. Floats are finite.
-/

namespace RegEngine.Negotiation

open Lib Lib.Calendar Lib.Sha256

inductive AgentRole where
  | extractor
  | auditor
  | arbiter
  deriving DecidableEq, Repr

def AgentRole.value : AgentRole → String
  | extractor => "extractor"
  | auditor => "auditor"
  | arbiter => "arbiter"

inductive ArbitrationOutcome where
  | consensus
  | disagreement
  | reviewRequired
  | securityBlocked
  | timeout
  deriving DecidableEq, Repr

def ArbitrationOutcome.value : ArbitrationOutcome → String
  | consensus => "consensus"
  | disagreement => "disagreement"
  | reviewRequired => "review_required"
  | securityBlocked => "security_blocked"
  | timeout => "timeout"

/-- A float between 0 and `bound`. -/
abbrev UpTo (bound : Rat) := {d : Decimal // 0 ≤ d.toRat ∧ d.toRat ≤ bound}

theorem zero_upTo : 0 ≤ (⟨0, 0, Decimal.shortest_zero⟩ : Decimal).toRat ∧
    (⟨0, 0, Decimal.shortest_zero⟩ : Decimal).toRat ≤ 2 := by decide +kernel

@[ext]
structure ModelAttribution where
  agentRole : AgentRole
  providerType : String
  modelName : String
  checkpointId : Option String := none
  temperature : UpTo 2
  deriving DecidableEq

@[ext]
structure CanonicalFactClaim where
  metric : String
  canonicalFact : Option String := none
  operator : String
  value : Decimal
  unit : String
  verbatimEvidence : String
  deriving DecidableEq

structure AgentArgument where
  argumentId : String
  agentRole : AgentRole
  roundNumber : Nat := 1
  interpretation : String
  canonicalFacts : List CanonicalFactClaim := []
  relevantSourceText : List String := []
  sourceLocation : String
  confidence : UpTo 1
  reasoningSummary : String
  attribution : ModelAttribution
  obligationType : Option String := none
  targetEntities : List String := []
  isRebuttal : Bool := false
  createdAt : Timestamp
  roundNumber_pos : 1 ≤ roundNumber := by omega
  deriving DecidableEq

structure ArbitrationRound where
  roundNumber : Nat := 1
  extractorArgument : AgentArgument
  auditorArgument : AgentArgument
  discrepancies : List String := []
  hasMaterialDisagreement : Bool := false
  roundNumber_pos : 1 ≤ roundNumber := by omega
  deriving DecidableEq

/-- A `dict[str, Any]`: its fields in the order of their keys, at every depth. -/
@[ext]
structure RejectedClaim where
  fields : Json
  ordered : fields.sortKeys = fields

@[ext]
structure ArbiterVerdict where
  verdictId : String
  outcome : ArbitrationOutcome
  chosenInterpretation : Option String := none
  acceptedCanonicalFacts : List CanonicalFactClaim := []
  rejectedClaims : List RejectedClaim := []
  confidence : UpTo 1
  justification : String
  attribution : ModelAttribution
  hitlEscalationReason : Option String := none
  sameModelRisk : Bool := false
  securityFlags : List String := []
  decidedAt : Timestamp

structure ArbitrationTranscript where
  sessionId : String
  tenantId : String
  circularId : String
  clauseId : String
  sourceDocumentSha256 : String
  clauseSha256 : String
  untrustedSourceText : String
  rounds : List ArbitrationRound := []
  arbiterVerdict : Option ArbiterVerdict := none
  finalOutcome : ArbitrationOutcome := .reviewRequired
  transcriptSha256 : String := ""
  hitlReviewId : Option String := none
  startedAt : Timestamp
  completedAt : Option Timestamp := none
  durationSeconds : Option Decimal := none

/-! ## `model_dump(mode="json")` -/

def dumpText : Option String → Json
  | some s => .str s
  | none => .null

def dumpTexts (l : List String) : Json := .arr (l.map .str)

def ModelAttribution.modelDump (a : ModelAttribution) : Json :=
  .obj [("agent_role", .str a.agentRole.value), ("provider_type", .str a.providerType),
    ("model_name", .str a.modelName), ("checkpoint_id", dumpText a.checkpointId),
    ("temperature", .float a.temperature)]

def CanonicalFactClaim.modelDump (f : CanonicalFactClaim) : Json :=
  .obj [("metric", .str f.metric), ("canonical_fact", dumpText f.canonicalFact),
    ("operator", .str f.operator), ("value", .float f.value), ("unit", .str f.unit),
    ("verbatim_evidence", .str f.verbatimEvidence)]

def ArbiterVerdict.modelDump (v : ArbiterVerdict) : Json :=
  .obj [("verdict_id", .str v.verdictId), ("outcome", .str v.outcome.value),
    ("chosen_interpretation", dumpText v.chosenInterpretation),
    ("accepted_canonical_facts", .arr (v.acceptedCanonicalFacts.map (·.modelDump))),
    ("rejected_claims", .arr (v.rejectedClaims.map (·.fields))),
    ("confidence", .float v.confidence), ("justification", .str v.justification),
    ("attribution", v.attribution.modelDump),
    ("hitl_escalation_reason", dumpText v.hitlEscalationReason),
    ("same_model_risk", .bool v.sameModelRisk), ("security_flags", dumpTexts v.securityFlags),
    ("decided_at", .str v.decidedAt.text)]

def dumpVerdict : Option ArbiterVerdict → Json
  | some v => v.modelDump
  | none => .null

/-! ## The seal -/

namespace ArbitrationTranscript

/-- The `data` of `compute_hash`. -/
def data (t : ArbitrationTranscript) : Json :=
  .obj [("session_id", .str t.sessionId), ("tenant_id", .str t.tenantId),
    ("circular_id", .str t.circularId), ("clause_id", .str t.clauseId),
    ("source_document_sha256", .str t.sourceDocumentSha256),
    ("clause_sha256", .str t.clauseSha256), ("final_outcome", .str t.finalOutcome.value),
    ("rounds_count", .int t.rounds.length),
    ("verdict", dumpVerdict t.arbiterVerdict)]

def canonicalStr (t : ArbitrationTranscript) : String := t.data.dumps

def computeHash (t : ArbitrationTranscript) : String := hexdigest t.canonicalStr

/-- The transcript after `seal`. -/
def sealed (t : ArbitrationTranscript) : ArbitrationTranscript :=
  { t with transcriptSha256 := t.computeHash }

end ArbitrationTranscript

end RegEngine.Negotiation

/-!
## The transcript store

`app/negotiation/arbitration_store.py`: transcripts in Redis, or in memory without a client or when
Redis fails. The summaries, which nothing reads back, and the expiry of a key are left out.
-/

namespace RegEngine.Negotiation

open Lib.Python

/-- How pydantic writes a transcript as JSON text and reads one. -/
structure TranscriptJson where
  modelDumpJson : ArbitrationTranscript → String
  modelValidateJson : String → Option ArbitrationTranscript

/-- What becomes of a Redis command: it is applied and answered, fails, or is applied and raises. -/
inductive RedisAnswer where
  | ok
  | failed
  | lost
  deriving DecidableEq, Repr

inductive StoreError where
  | valueError (message : String)
  | validationError
  deriving DecidableEq, Repr

/-- Without a client there is no `redis`. -/
structure ArbitrationTranscriptStore where
  keyPrefix : String := "regengine:negotiation"
  redis : Option (String → Option String) := none
  memoryStore : String → Option String := fun _ => none

namespace ArbitrationTranscriptStore

def transcriptKey (store : ArbitrationTranscriptStore) (tenantId sessionId : String) : String :=
  store.keyPrefix ++ ":" ++ tenantId ++ ":" ++ sessionId ++ ":transcript"

/-- The store with a text written under a key. -/
def write (store : ArbitrationTranscriptStore) (answer : RedisAnswer) (key payload : String) :
    ArbitrationTranscriptStore :=
  let kept := Function.update store.memoryStore key (some payload)
  match store.redis, answer with
  | some keys, .ok => { store with redis := some (Function.update keys key (some payload)) }
  | some _, .failed => { store with memoryStore := kept }
  | some keys, .lost =>
    { store with
      redis := some (Function.update keys key (some payload))
      memoryStore := kept }
  | none, _ => { store with memoryStore := kept }

/-- `save_transcript`, with the transcript as it has sealed it. -/
def saveTranscript (J : TranscriptJson) (answer : RedisAnswer) (store : ArbitrationTranscriptStore)
    (transcript : ArbitrationTranscript) :
    Except StoreError (ArbitrationTranscript × ArbitrationTranscriptStore) :=
  if strip transcript.tenantId = "" then
    .error (.valueError
      "tenant_id is mandatory for arbitration transcript storage to enforce isolation.")
  else
    let saved := transcript.sealed
    .ok (saved, store.write answer (store.transcriptKey saved.tenantId saved.sessionId)
      (J.modelDumpJson saved))

/-- The stored copy that a read finds. -/
def rawJson (answer : RedisAnswer) (store : ArbitrationTranscriptStore)
    (tenantId sessionId : String) : Option String :=
  let key := store.transcriptKey tenantId sessionId
  match store.redis, answer with
  | some keys, .ok => keys key
  | _, _ => store.memoryStore key

/-- `get_transcript`. -/
def getTranscript (J : TranscriptJson) (answer : RedisAnswer) (store : ArbitrationTranscriptStore)
    (tenantId sessionId : String) : Except StoreError (Option ArbitrationTranscript) :=
  if strip tenantId = "" then
    .error (.valueError "tenant_id is required to retrieve arbitration transcript.")
  else
    match store.rawJson answer tenantId sessionId with
    | none => .ok none
    | some raw =>
      match J.modelValidateJson raw with
      | none => .error .validationError
      | some transcript =>
        if transcript.tenantId ≠ tenantId then .ok none
        else if transcript.computeHash ≠ transcript.transcriptSha256 then
          .error (.valueError
            ("Tamper detected: transcript digest mismatch for session " ++ sessionId))
        else .ok (some transcript)

end ArbitrationTranscriptStore

end RegEngine.Negotiation
