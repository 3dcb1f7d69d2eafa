import RegEngine.Execution.Evaluator
import RegEngine.Lib.Binary64
import RegEngine.Lib.Json

/-!
# The stream processor

`flink/stream_processor.py`: the sliding window of each key with its event-time timers, the stream in front
of it with its watermark, and the decision on each event with the help of an OPA sidecar. Amounts are exact
and are not rounded. Serialisation, checkpoints and the log are left out.
-/

namespace RegEngine.Flink

open Lib Execution

def slidingWindowSeconds : Nat := 24 * 3600

def allowedLatenessSeconds : Nat := 5

/-! ## `SlidingMarginWindowFunction` -/

/-- A trade with the time that the timestamp assigner gives it, in milliseconds, and its facts. -/
structure Trade where
  timestampMs : Int
  orderValueInr : Option Rat := none
  upfrontMarginPct : Option Rat := none

structure Entry where
  eventTimeMs : Int
  orderValue : Rat
  marginCollected : Rat
  deriving DecidableEq

def Trade.entry (trade : Trade) : Entry :=
  let orderValue := trade.orderValueInr.getD 0
  let upfrontPct := trade.upfrontMarginPct.getD 0
  ⟨trade.timestampMs, orderValue, orderValue * upfrontPct / 100⟩

structure WindowState where
  cumulativeOrderValueInr : Rat
  cumulativeMarginCollectedInr : Rat
  tradeCount : Nat
  windowSeconds : Nat
  deriving DecidableEq

/-- What Flink keeps for one key. -/
structure KeyedState where
  entries : List Entry := []
  timers : List Int := []

def windowMs (windowSeconds : Nat) : Int := windowSeconds * 1000

/-- The entries from the cutoff on. -/
def surviving (cutoffMs : Int) (entries : List Entry) : List Entry :=
  entries.filter fun e => cutoffMs ≤ e.eventTimeMs

/-- The window state of some entries. -/
def WindowState.of (windowSeconds : Nat) (entries : List Entry) : WindowState where
  cumulativeOrderValueInr := (entries.map (·.orderValue)).sum
  cumulativeMarginCollectedInr := (entries.map (·.marginCollected)).sum
  tradeCount := entries.length
  windowSeconds := windowSeconds

def processElement (windowSeconds : Nat) (trade : Trade) (s : KeyedState) : KeyedState × WindowState :=
  let cutoffMs := trade.timestampMs - windowMs windowSeconds
  let entries := surviving cutoffMs s.entries ++ [trade.entry]
  -- a timer is registered once for each moment
  let timers := s.timers.insert (trade.timestampMs + windowMs windowSeconds + 1)
  (⟨entries, timers⟩, .of windowSeconds entries)

def onTimer (windowSeconds : Nat) (timestamp : Int) (s : KeyedState) : KeyedState :=
  ⟨surviving (timestamp - windowMs windowSeconds) s.entries, s.timers.erase timestamp⟩

/-! ## The keyed stream -/

/-- The stream with the trades that came in, under their keys. -/
structure Stream where
  received : List (String × Trade) := []
  watermark : Option Int := none
  keyed : String → KeyedState := fun _ => {}

/-- The trades of one key. -/
def Stream.trades (s : Stream) (key : String) : List Trade :=
  (s.received.filter fun r => r.1 = key).map (·.2)

/-- A trade is out of order by the allowed lateness at most. -/
def Stream.InBounds (s : Stream) (trade : Trade) : Prop :=
  ∀ r ∈ s.received, r.2.timestampMs - allowedLatenessSeconds * 1000 ≤ trade.timestampMs

/-- What is emitted for a trade. -/
def Stream.emitted (windowSeconds : Nat) (s : Stream) (key : String) (trade : Trade) : WindowState :=
  (processElement windowSeconds trade (s.keyed key)).2

def Stream.element (windowSeconds : Nat) (s : Stream) (key : String) (trade : Trade) : Stream :=
  { s with
    received := s.received ++ [(key, trade)]
    keyed := Function.update s.keyed key (processElement windowSeconds trade (s.keyed key)).1 }

def Stream.fire (windowSeconds : Nat) (s : Stream) (key : String) (timestamp : Int) : Stream :=
  { s with keyed := Function.update s.keyed key (onTimer windowSeconds timestamp (s.keyed key)) }

/-- One step: a trade, a later watermark of `for_bounded_out_of_orderness`, or a timer that it passed. -/
inductive Step (windowSeconds : Nat) : Stream → Stream → Prop where
  | element {s : Stream} {key : String} {trade : Trade} (h : s.InBounds trade) :
      Step windowSeconds s (s.element windowSeconds key trade)
  | watermark {s : Stream} {w : Int} (hlater : ∀ v ∈ s.watermark, v ≤ w)
      (hbehind : ∃ r ∈ s.received, w < r.2.timestampMs - allowedLatenessSeconds * 1000) :
      Step windowSeconds s { s with watermark := some w }
  | timer {s : Stream} {key : String} {timestamp : Int} (hregistered : timestamp ∈ (s.keyed key).timers)
      (hpassed : ∃ w ∈ s.watermark, timestamp ≤ w) :
      Step windowSeconds s (s.fire windowSeconds key timestamp)

inductive Reachable (windowSeconds : Nat) : Stream → Prop where
  | start : Reachable windowSeconds {}
  | step {s s' : Stream} (h : Reachable windowSeconds s) (hstep : Step windowSeconds s s') :
      Reachable windowSeconds s'

/-! ## `OPADecisionFunction` -/

/-- What the window function emits for one trade, as far as the decision reads it. -/
structure Event where
  entityType : Option String := none
  facts : List (String × Json) := []
  windowState : List (String × Json) := []
  transactionId : Option Json := none
  brokerId : Option Json := none

/-- `d.get(key, default)`. -/
def getOr (fields : List (String × Json)) (key : String) (default : Json) : Json :=
  ((Json.obj fields).get? key).getD default

/-- `d[key] = value`. -/
def assign (fields : List (String × Json)) (key : String) (value : Json) : List (String × Json) :=
  if fields.any fun f => f.1 = key then fields.map fun f => if f.1 = key then (key, value) else f
  else fields ++ [(key, value)]

/-- What the sidecar answers; `body` is the JSON text of the response, if it is one. -/
inductive SidecarAnswer where
  | httpError
  | response (statusCode : Nat) (body : Option Json)

/-- `list` of a value of JSON; none where it raises a `TypeError`. -/
def pyList : Json → Option (List Json)
  | .arr l => some l
  | .str s => some (s.toList.map fun c => .str (String.singleton c))
  | .obj fields => some (fields.map fun f => .str f.1)
  | _ => none

/-- `list(d.get("violations", []) or [])`. -/
def violationList (fields : List (String × Json)) : Option (List Json) :=
  let violations := getOr fields "violations" (.arr [])
  if violations.truthy then pyList violations else some []

/-- `resp.json().get("result") or {}` and its violations; none where something is raised. -/
def resultViolations : Option Json → Option (List Json)
  | some (.obj body) =>
    let result := getOr body "result" .null
    if result.truthy then
      match result with
      | .obj fields => violationList fields
      | _ => none
    else some []
  | _ => none

structure StreamDecision where
  decision : Decision
  reasons : List Json

/-- The rule of the fallback; none where the comparison raises a `TypeError`. -/
def fallback (facts : List (String × Json)) : Option StreamDecision :=
  let upfrontPct := getOr facts "upfront_margin_pct" (.float ⟨2, 1, Decimal.shortest_twenty⟩)
  let segregated := getOr facts "client_funds_segregated" (.bool true)
  (upfrontPct.pyCmp (.float ⟨2, 1, Decimal.shortest_twenty⟩)).map fun order =>
    if order = .lt ∨ segregated.truthy = false then
      ⟨.deny, [.str "Upfront margin below 20% or unsegregated client funds."]⟩
    else ⟨.allow, []⟩

/-- `_query_opa`, with `_opa_offline` before and after it. -/
def queryOpa (opa : String → Json → SidecarAnswer) (offline : Bool) (entityType : String)
    (facts : List (String × Json)) : Option (StreamDecision × Bool) :=
  if offline then (fallback facts).map (·, true)
  else
    let package := "regengine/" ++ Lib.Python.lower entityType
    match opa package (.obj [("entity_type", .str entityType), ("facts", .obj facts)]) with
    | .response statusCode body =>
      if statusCode = 200 then
        (resultViolations body).map fun violations =>
          (⟨if violations ≠ [] then .deny else .allow, violations⟩, false)
      else some (⟨.flagged, [.str ("OPA server status " ++ toString statusCode)]⟩, false)
    | .httpError => (fallback facts).map (·, true)

/-- What the function emits for an event, but for the latency and the clock. -/
structure Emitted where
  transactionId : Json
  brokerId : Json
  entityType : String
  decision : Decision
  reasons : List Json
  windowState : List (String × Json)

/-- The facts that OPA is asked about. `marginPct` computes the percentage of two amounts in floats. -/
def enrichedFacts (marginPct : Json → Json → Option Json) (event : Event) :
    Option (List (String × Json)) :=
  let margin := getOr event.windowState "cumulative_margin_collected_inr" (.float ⟨0, 0, Decimal.shortest_zero⟩)
  let orderValue := getOr event.windowState "cumulative_order_value_inr" (.float ⟨0, 0, Decimal.shortest_zero⟩)
  let count := getOr event.windowState "trade_count" (.int 1)
  (marginPct margin orderValue).map fun pct =>
    let facts := assign event.facts "cumulative_margin_collected_inr" margin
    let facts := assign facts "cumulative_order_value_inr" orderValue
    let facts := assign facts "intraday_trade_count" count
    assign facts "effective_cumulative_margin_pct" pct

/-- `map`, with `_opa_offline` before and after it. -/
def mapEvent (marginPct : Json → Json → Option Json) (opa : String → Json → SidecarAnswer) (offline : Bool)
    (event : Event) : Option (Emitted × Bool) := do
  let entityType := event.entityType.getD "Stockbroker"
  let facts ← enrichedFacts marginPct event
  let (answer, offline) ← queryOpa opa offline entityType facts
  return (⟨event.transactionId.getD (.str "unknown"), event.brokerId.getD (.str "unknown"), entityType,
    answer.decision, answer.reasons, event.windowState⟩, offline)

/-- One event with the sidecar it meets. -/
structure Call where
  event : Event
  opa : String → Json → SidecarAnswer

/-- What the sidecar says to a call, should it be asked. -/
def Call.answer (marginPct : Json → Json → Option Json) (call : Call) : Option SidecarAnswer :=
  let entityType := call.event.entityType.getD "Stockbroker"
  (enrichedFacts marginPct call.event).map fun facts =>
    call.opa ("regengine/" ++ Lib.Python.lower entityType)
      (.obj [("entity_type", .str entityType), ("facts", .obj facts)])

/-- `_opa_offline` after some calls, none of which raised. -/
def offlineAfter (marginPct : Json → Json → Option Json) (history : List Call) : Option Bool :=
  history.foldlM (fun offline call => (mapEvent marginPct call.opa offline call.event).map (·.2)) false

/-! ## The same answer in `app/execution` -/

/-- `d.get(key)` as a `str | None`; none where the model refuses it. -/
def optionalText : Json → Option (Option String)
  | .null => some none
  | .str s => some (some s)
  | _ => none

/-- `d.get(key) or entry.get(key)`, as far as `d` gives it. -/
def textOr (j : Json) : Option (Option String) := if j.truthy then optionalText j else some none

/-- The decision object that a `PolicyOutcome` is made of; none where something is raised. `validInt` is
how the model reads an `int`. -/
def readDecision (validInt : Json → Option Int) (fields : List (String × Json)) : Option OPADecision := do
  let ruleVersion := getOr fields "rule_version" .null
  let violations ← (← violationList fields).mapM Json.str?
  return {
    allow := some (getOr fields "allow" (.bool false)).truthy
    violations := some violations
    circularNumber := ← optionalText (getOr fields "circular_number" .null)
    clauseNumber := ← optionalText (getOr fields "clause_number" .null)
    ruleVersion := ← if ruleVersion.truthy then (validInt ruleVersion).map some else some none
    policySha256 := ← textOr (getOr fields "policy_sha256" .null)
    canonicalFactsDigest := ← textOr (getOr fields "canonical_facts_digest" .null)
    sourceDocumentSha256 := ← optionalText (getOr fields "source_document_sha256" .null)
    extractedTextSha256 := ← optionalText (getOr fields "extracted_text_sha256" .null)
    sourceSha256 := ← optionalText (getOr fields "source_sha256" .null) }

/-- `OPAEngine.evaluate` for an answer of OPA; none where it raises anything but an `OPAEngineError`. -/
def engineReply (validInt : Json → Option Int) : SidecarAnswer → Option OPAReply
  | .httpError => some .engineError
  | .response statusCode body =>
    if statusCode = 200 then
      match body with
      | some (.obj fields) =>
        match getOr fields "result" .null with
        | .null => some .undefined
        | .obj result => (readDecision validInt result).map .result
        | _ => none
      | _ => none
    else some .engineError

end RegEngine.Flink
