import RegEngine.Lib.Json

/-!
# The CDC consumer

`LegacyNormalizer.normalize_event` (`cdc/normalizer.py`), `CDCDeadLetterHandler.handle_failed_record`
(`cdc/dlq_handler.py`) and `CDCKafkaConsumerService` (`cdc/consumer.py`). A message is processed with the
answers that its requests would get (`Answers`); the loop of `run` is a step relation (`Step`), in which the
process may end between any two messages and commits, and start again at the committed offsets.

`Python` is what the model takes from outside: the decoder of JSON texts, upper case, and what the three
row normalizers make of a row.
-/

namespace RegEngine.Cdc

open Lib

/-- What a normalizer raises. -/
inductive NormalizerError where
  | legacyNormalizerError (message : String)
  | other
  deriving DecidableEq, Repr

/-- `Payload` is `TransactionPayload`. -/
structure Python (Payload : Type) where
  decode : List UInt8 → Option String
  loads : String → Option Json
  upper : String → String
  normalizeTradeTransaction : List (String × Json) → String → Except NormalizerError Payload
  normalizeClientCollateral : List (String × Json) → String → Except NormalizerError Payload
  normalizeGenericRow : List (String × Json) → String → Except NormalizerError Payload

/-- `needle in text`. -/
def contains (needle text : String) : Bool :=
  text.toList.tails.any fun rest => needle.toList.isPrefixOf rest

section
variable {Payload : Type} (python : Python Payload)

/-! ## `LegacyNormalizer` -/

/-- `a or b`. -/
def pyOr (a b : Option Json) : Option Json :=
  match a with
  | some a => if a.truthy then some a else b
  | none => b

/-- `normalize_event`; none for a delete event. -/
def normalizeEvent (rawEvent : Json) : Except NormalizerError (Option Payload) := do
  match rawEvent with
  | .obj _ =>
    let op := match rawEvent.get? "op" with
      | some op => some op
      | none => rawEvent.get? "operation"
    match op with
    | some (.str "d") => return none
    | _ =>
      let row := pyOr (pyOr (rawEvent.get? "after") (rawEvent.get? "payload")) (some rawEvent)
      let default := (rawEvent.get? "source_table").getD (.str "TBL_TRADE_TRANSACTIONS")
      let sourceTable ← match (rawEvent.get? "source").getD (.obj []) with
        | .obj sourceInfo => pure (((Json.obj sourceInfo).get? "table").getD default)
        | _ => throw .other
      match row, sourceTable with
      | some (.obj (field :: fields)), .str table =>
        let tableUpper := python.upper table
        if contains "TRADE_TRANSACTIONS" tableUpper || contains "TBL_TRADE" tableUpper then
          some <$> python.normalizeTradeTransaction (field :: fields) table
        else if contains "CLIENT_COLLATERAL" tableUpper || contains "COLLATERAL" tableUpper then
          some <$> python.normalizeClientCollateral (field :: fields) table
        else some <$> python.normalizeGenericRow (field :: fields) table
      | some (.obj (_ :: _)), _ => throw .other
      | _, _ => throw (.legacyNormalizerError "CDC event contains no valid 'after' row image.")
  | _ => throw (.legacyNormalizerError "Raw CDC event must be a JSON object dictionary.")

/-! ## Answers -/

/-- What the evaluation API answers to an attempt; `parsed` tells whether a body with status 200 is a JSON
object. -/
inductive PostReply where
  | status (code : Nat) (parsed : Bool)
  | raised
  deriving DecidableEq

inductive AlertReply where
  | status (code : Nat)
  | raised
  deriving DecidableEq

/-- What the requests about one message get: each attempt at the API, the DLQ producer's
`send_and_wait`, and the admin DLQ API. -/
structure Answers where
  post : Nat → PostReply
  published : Bool
  alert : AlertReply

structure Config where
  maxRetries : Int
  dryRun : Bool
  /-- The DLQ producer was started. -/
  hasProducer : Bool

/-! ## `CDCDeadLetterHandler` -/

/-- What became of a failed record. -/
structure DeadLetter where
  topic : String
  partition : Nat
  offset : Nat
  context : String
  published : Bool
  alerted : Bool
  deriving DecidableEq

def AlertReply.accepted : AlertReply → Bool
  | .status code => code = 200 || code = 201 || code = 202
  | .raised => false

/-- The Kafka topic first, then the operators; neither failure is passed on. -/
def handleFailedRecord (config : Config) (answers : Answers) (topic : String) (partition offset : Nat)
    (context : String) : DeadLetter where
  topic := topic
  partition := partition
  offset := offset
  context := context
  published := config.hasProducer && answers.published
  alerted := answers.alert.accepted

/-! ## `CDCKafkaConsumerService` -/

/-- The value of a record: bytes, a tombstone, or (in a dry run) a dictionary. -/
inductive RawValue where
  | bytes (value : List UInt8)
  | str (value : String)
  | dict (fields : List (String × Json))
  | none

structure Message where
  topic : String
  partition : Nat
  offset : Nat
  value : RawValue

structure Counters where
  processedCount : Nat
  evaluatedCount : Nat
  dlqCount : Nat
  deriving DecidableEq

/-- What became of a message; `answered` if the API answered an attempt with status 200. -/
inductive Outcome where
  | ignoredDelete
  | evaluated
  | deadLettered (answered : Bool) (record : DeadLetter)
  deriving DecidableEq

/-- The loop over the attempts: whether one succeeded, and whether one was answered with status 200. -/
def attempts (post : Nat → PostReply) : List Nat → Bool × Bool
  | [] => (false, false)
  | attempt :: rest =>
    match post attempt with
    | .status code parsed =>
      if code = 200 then
        if parsed then (true, true) else ((attempts post rest).1, true)
      else if code = 500 || code = 502 || code = 503 || code = 504 then attempts post rest
      else (false, false)
    | .raised => attempts post rest

/-- `_send_for_evaluation`. -/
def sendForEvaluation (config : Config) (answers : Answers) : Bool × Bool :=
  if config.dryRun then (true, true)
  else attempts answers.post ((List.range config.maxRetries.toNat).map (· + 1))

/-- The JSON of a record, or none where reading it raises. -/
def parseRecord : RawValue → Option Json
  | .bytes value => python.decode value >>= python.loads
  | .str value => python.loads value
  | .dict fields => some (.obj fields)
  | .none => none

def processSingleMessage (config : Config) (counters : Counters) (message : Message) (answers : Answers) :
    Counters × Outcome :=
  let counters := { counters with processedCount := counters.processedCount + 1 }
  let failed (context : String) (answered : Bool) : Counters × Outcome :=
    ({ counters with dlqCount := counters.dlqCount + 1 },
      .deadLettered answered
        (handleFailedRecord config answers message.topic message.partition message.offset context))
  match parseRecord python message.value with
  | none => failed "corrupted_json_parsing" false
  | some rawJson =>
    match normalizeEvent python rawJson with
    | .error _ => failed "legacy_normalization_failure" false
    | .ok none => (counters, .ignoredDelete)
    | .ok (some _) =>
      let (success, answered) := sendForEvaluation config answers
      if success then ({ counters with evaluatedCount := counters.evaluatedCount + 1 }, .evaluated)
      else failed "api_evaluation_exhausted" answered

/-! ## `run` -/

abbrev Partition : Type := String × Nat

/-- A running process: its counters, the deletes it has ignored, and what is left of the fetched data:
for each partition the messages still to be processed and the offset to be committed then. -/
structure Process where
  config : Config
  counters : Counters
  ignored : Nat
  work : List (Partition × List Message × Nat)

/-- The committed offsets, the process, and what became of each message, latest first. -/
structure State where
  committed : Partition → Nat
  process : Option Process
  history : List (Partition × Nat × Outcome)

/-- The records that are there, from the committed offset to the last one. -/
structure Fetched (log : Partition → Nat → Option RawValue) (position : Nat) (tp : Partition)
    (messages : List Message) (last : Message) : Prop where
  ends : messages.getLast? = some last
  origin : ∀ m ∈ messages, (m.topic, m.partition) = tp ∧ log tp m.offset = some m.value
  complete : ∀ offset value, log tp offset = some value → position ≤ offset → offset ≤ last.offset →
    ∃ m ∈ messages, m.offset = offset

/-- One step of the loop. All fetched partitions are committed before the next fetch, so a fetch starts
at the committed offsets; a commit that raises ends the loop. -/
inductive Step (log : Partition → Nat → Option RawValue) (Ok : Config → Answers → Prop) :
    State → State → Prop where
  | start {s : State} (config : Config) : s.process = none → config.dryRun = false →
      Step log Ok s { s with process := some ⟨config, ⟨0, 0, 0⟩, 0, []⟩ }
  | getmany {s : State} {p : Process} (data : List (Partition × List Message × Nat)) :
      s.process = some p → p.work = [] →
      (∀ item ∈ data, ∃ last, Fetched log (s.committed item.1) item.1 item.2.1 last ∧
        item.2.2 = last.offset + 1) →
      Step log Ok s { s with process := some { p with work := data } }
  | message {s : State} {p : Process} {tp : Partition} {m : Message} {messages : List Message}
      {next : Nat} {work : List (Partition × List Message × Nat)} (answers : Answers) :
      s.process = some p → p.work = (tp, m :: messages, next) :: work → Ok p.config answers →
      Step log Ok s { s with
        process := some { p with
          counters := (processSingleMessage python p.config p.counters m answers).1
          ignored := p.ignored +
            if (processSingleMessage python p.config p.counters m answers).2 = .ignoredDelete then 1 else 0
          work := (tp, messages, next) :: work }
        history := (tp, m.offset, (processSingleMessage python p.config p.counters m answers).2) ::
          s.history }
  | commit {s : State} {p : Process} {tp : Partition} {next : Nat}
      {work : List (Partition × List Message × Nat)} :
      s.process = some p → p.work = (tp, [], next) :: work →
      Step log Ok s { s with
        committed := Function.update s.committed tp next
        process := some { p with work := work } }
  | stop {s : State} : Step log Ok s { s with process := none }

end

end RegEngine.Cdc
