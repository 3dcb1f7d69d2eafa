import RegEngine.FixGateway.FixScanner
import RegEngine.Hitl.Models
import RegEngine.Native.PackPolicy
import RegEngine.Native.PybindModule
import RegEngine.Execution.HotReload
import RegEngine.Native.FixTagScanner

/-!
# Loading a policy

`app/fix_gateway/policy_manifest.py`: a row of `compiled_rules` packed, loaded into the native extension
and given its rejection reason.
-/

namespace RegEngine.FixGateway

open Lib Lib.Python Native

def fixDerivableFields : List String := ["order_qty", "price", "notional_value"]

structure LoadedFixPolicy where
  ruleId : String
  compiledPolicy : PyCompiledPolicy
  fieldSlots : List (String × Nat)
  rejection : SebiRejectionReason

/-- What `build_loaded_policy` raises. -/
inductive LoadError where
  | unsupportedForFixGateway (message : String)
  | importError
  | packError (error : PackError)
  | bindingError (error : BindingError)
  deriving DecidableEq

/-- `f"{value}"` of an optional text. -/
def formatOption (value : Option String) : String := value.getD "None"

/-- `_build_rejection_reason`. -/
def buildRejectionReason (db : Hitl.Store) (compiledRule : Hitl.CompiledRule) (numChecks : Nat) :
    SebiRejectionReason :=
  let clause := db.clauses.get? compiledRule.clauseId
  let circular := clause.bind fun clause => db.circulars.get? clause.circularId
  let circularNumber := (circular.map Hitl.Circular.circularNumber).getD "unknown circular"
  let clauseNumber := (clause.map Hitl.Clause.clauseNumber).getD (some "unscoped")
  { ordRejReason := .orderExceedsLimit
    sebiCircularNumber := circularNumber
    sebiClauseNumber := clauseNumber
    text := "Order rejected: does not satisfy compiled rule " ++ compiledRule.ruleId ++ " (" ++
      toString numChecks ++ " threshold check(s)), Circular " ++ circularNumber ++ ", Clause " ++
      formatOption clauseNumber ++ "." }

/-- The message for fields that an order does not carry. -/
def unsupportedFieldsMessage (id : Nat) (fields : List String) : String :=
  "CompiledRule " ++ toString id ++ " references field(s) " ++
    reprList (fields.mergeSort fun a b => decide (a ≤ b)) ++ " that this FIX " ++
    "gateway cannot derive from a New Order Single alone (only " ++
    "('order_qty', 'price', 'notional_value') are supported); " ++
    "this rule needs an OMS-supplied external-facts overlay, or must run through the full " ++
    "app.execution.evaluator/OPA path instead of this fast path."

/-- `build_loaded_policy` of the row `id`; `native` says that the extension can be imported. -/
def buildLoadedPolicy (native : Bool) (db : Hitl.Store) (id : Nat) (compiledRule : Hitl.CompiledRule) :
    Except LoadError LoadedFixPolicy :=
  if native = false then .error .importError
  else
    match compiledRule.jsonlogicAst with
    | none =>
      .error (.unsupportedForFixGateway ("CompiledRule " ++ toString id ++ " (rule_id=" ++
        compiledRule.ruleId ++ ") has no jsonlogic_ast to package."))
    | some ast =>
      match hpack : packPolicy compiledRule.ruleId ast with
      | .error (.unsupportedPolicyShape message) =>
        .error (.unsupportedForFixGateway ("CompiledRule " ++ toString id ++ ": " ++ message))
      | .error error => .error (.packError error)
      | .ok (data, fieldSlots) =>
        let unsupportedFields := (fieldSlots.map (·.1)).filter fun field => field ∉ fixDerivableFields
        if unsupportedFields ≠ [] then
          .error (.unsupportedForFixGateway (unsupportedFieldsMessage id unsupportedFields))
        else
          match PyCompiledPolicy.new data fieldSlots (packPolicy_inRange hpack) with
          | .error error => .error (.bindingError error)
          | .ok compiledPolicy =>
            .ok
              { ruleId := compiledRule.ruleId
                compiledPolicy := compiledPolicy
                fieldSlots := fieldSlots
                rejection := buildRejectionReason db compiledRule compiledPolicy.compiled.checks.length }

end RegEngine.FixGateway

/-!
## Hot reload of the gateway

`app/fix_gateway/hot_reload.py`: the loaded policies of one process, by their rule, and the subscriber that
keeps them as the policy events come in. Unlike the cache of the evaluator it fetches the row of each event.
-/

namespace RegEngine.FixGateway

open Lib Execution

/-- The dictionary `_by_rule_id`, in order of insertion. -/
structure FixPolicyStore where
  policies : List LoadedFixPolicy := []
  nodup : (policies.map LoadedFixPolicy.ruleId).Nodup := by simp

namespace FixPolicyStore

def get? (store : FixPolicyStore) (ruleId : String) : Option LoadedFixPolicy :=
  store.policies.find? fun policy => policy.ruleId = ruleId

/-- A new value keeps the place of the old one. -/
def put (store : FixPolicyStore) (policy : LoadedFixPolicy) : FixPolicyStore :=
  if h : policy.ruleId ∈ store.policies.map LoadedFixPolicy.ruleId then
    { policies := store.policies.map fun p => if p.ruleId = policy.ruleId then policy else p
      nodup := by
        have hids : (store.policies.map fun p => if p.ruleId = policy.ruleId then policy else p).map
            LoadedFixPolicy.ruleId = store.policies.map LoadedFixPolicy.ruleId := by
          rw [List.map_map]
          apply List.map_congr_left
          intro p _
          show (if p.ruleId = policy.ruleId then policy else p).ruleId = p.ruleId
          split
          · rename_i heq
            exact heq.symm
          · rfl
        rw [hids]
        exact store.nodup }
  else
    { policies := store.policies ++ [policy]
      nodup := by
        rw [List.map_append, List.nodup_append]
        refine ⟨store.nodup, List.nodup_singleton _, ?_⟩
        intro a ha b hb heq
        rw [List.mem_singleton.1 hb] at heq
        exact h (heq ▸ ha) }

def remove (store : FixPolicyStore) (ruleId : String) : FixPolicyStore where
  policies := store.policies.filter fun policy => policy.ruleId ≠ ruleId
  nodup := store.nodup.sublist (List.filter_sublist.map _)

def currentPolicies (store : FixPolicyStore) : List LoadedFixPolicy := store.policies

end FixPolicyStore

/-- What an event finds: the message, none when it does not parse as a `PolicyEvent`; the database, none
when its session raises; and whether the native extension can be imported. -/
structure Delivery where
  event : Option PolicyEvent
  db : Option Hitl.Store
  native : Bool := true

/-- What becomes of an event. -/
inductive Outcome where
  | unparseable
  | revoked (ruleId : String)
  | rowMissing
  | unsupported (message : String)
  | failed
  | loaded (policy : LoadedFixPolicy)

/-- The row of an event, fetched and loaded. -/
def Delivery.load (d : Delivery) (event : PolicyEvent) : Outcome :=
  match d.db with
  | none => .failed
  | some db =>
    match db.rules.get? event.compiledRuleId with
    | none => .rowMissing
    | some compiledRule =>
      match buildLoadedPolicy d.native db event.compiledRuleId compiledRule with
      | .error (.unsupportedForFixGateway message) => .unsupported message
      | .error _ => .failed
      | .ok loaded => .loaded loaded

/-- The way of an event through the handler. -/
def Delivery.outcome (d : Delivery) : Outcome :=
  match d.event with
  | none => .unparseable
  | some event =>
    match event.eventType with
    | .revoked => .revoked event.ruleId
    | .approved | .amended => d.load event

/-- `_handle_raw_event`. -/
def handleRawEvent (store : FixPolicyStore) (d : Delivery) : FixPolicyStore :=
  match d.outcome with
  | .revoked ruleId => store.remove ruleId
  | .loaded policy => store.put policy
  -- each of the other ways returns early
  | .unparseable | .rowMissing | .unsupported _ | .failed => store

/-- The subscriber on a sequence of events. -/
def handleEvents (deliveries : List Delivery) : FixPolicyStore := deliveries.foldl handleRawEvent {}

end RegEngine.FixGateway

/-!
## Execution reports

`app/fix_gateway/execution_report.py`: the answer to an order as raw bytes, with its length and checksum.
The body is put together as a text and encoded as ASCII, which raises on any other character.
-/

namespace RegEngine.FixGateway

open Lib

/-- `int(ord_rej_reason)`. -/
def OrdRejReason.code : OrdRejReason → Nat
  | .brokerExchangeOption => 0
  | .unknownSymbol => 1
  | .exchangeClosed => 2
  | .orderExceedsLimit => 3
  | .tooLateToEnter => 4
  | .duplicateOrder => 6
  | .incorrectQuantity => 13
  | .other => 99

/-- `clause_ref`. -/
def SebiRejectionReason.clauseRef (reason : SebiRejectionReason) : String :=
  reason.sebiCircularNumber ++ ":" ++ formatOption reason.sebiClauseNumber

structure ValidationOutcome where
  accepted : Bool
  violatedReason : Option SebiRejectionReason := none

structure ExecutionReportContext where
  senderCompId : String
  sendingTime : String
  execId : String

/-- `_field`. -/
def field (tag : Nat) (value : String) : String := toString tag ++ "=" ++ value ++ "\x01"

/-- `s.encode("ascii")`: none where a character is not ASCII. -/
def encodeAscii (s : String) : Option (List UInt8) :=
  if s.toList.all fun c => c.toNat < 128 then some (Native.Fix.ascii s) else none

/-- `f"{n:03d}"`. -/
def threeDigits (n : Nat) : String :=
  String.ofList (List.replicate (3 - (Nat.toDigits 10 n).length) '0') ++ toString n

/-- `ExecType` and `OrdStatus`. -/
def statusText (outcome : ValidationOutcome) : String := if outcome.accepted then "0" else "8"

/-- The fields that only a rejection with a reason has. -/
def reasonText (outcome : ValidationOutcome) : String :=
  match outcome.accepted, outcome.violatedReason with
  | false, some reason =>
    String.join
      [field 103 (toString reason.ordRejReason.code), field 58 reason.text, field 9001 reason.clauseRef]
  | _, _ => ""

/-- `body`. -/
def reportBody (order : ParsedOrder) (outcome : ValidationOutcome) (ctx : ExecutionReportContext) :
    String :=
  String.join
    [field 35 "8",
     field 49 ctx.senderCompId,
     field 56 order.senderCompId,
     field 52 ctx.sendingTime,
     field 37 "NONE",
     field 11 order.clOrdId,
     field 17 ctx.execId,
     field 150 (statusText outcome),
     field 39 (statusText outcome),
     field 55 order.symbol,
     field 54 order.side,
     field 1 order.account,
     field 38 order.orderQtyRaw,
     field 44 order.priceRaw,
     field 14 (toString 0),
     field 151 (if outcome.accepted then order.orderQtyRaw else toString 0)] ++ reasonText outcome

/-- The bytes of the report; none where an encoding raises. -/
def buildExecutionReport (order : ParsedOrder) (outcome : ValidationOutcome)
    (ctx : ExecutionReportContext) : Option (List UInt8) := do
  let bodyBytes ← encodeAscii (reportBody order outcome ctx)
  let header ← encodeAscii (field 8 "FIX.4.4" ++ field 9 (toString bodyBytes.length))
  let messageWithoutChecksum := header ++ bodyBytes
  let checksum := (messageWithoutChecksum.map UInt8.toNat).sum % 256
  let trailer ← encodeAscii (field 10 (threeDigits checksum))
  pure (messageWithoutChecksum ++ trailer)

end RegEngine.FixGateway
