import RegEngine.Agents.Providers

/-!
# The extraction cache and the model router

`SemanticPromptCache` (`app/llm_ops/semantic_cache.py`), `ModelRouter` (`app/llm_ops/router.py`) and
`extract_clause_with_routing` (`app/llm_ops/cached_extraction.py`). A call is cut where it waits: between
two of its steps other calls and the hourly sweep may run. What the models answer is drawn when a call is
made. Cost tracking, the HTTP requests and the JSON text of a rule are left out.
-/

namespace RegEngine.LlmOps

open Lib Lib.Python RegEngine.Agents

structure Settings where
  llmCacheSimilarityThreshold : Binary64
  llmCacheTtlSeconds : Int := 30 * 24 * 3600
  llmCacheRedisKeyPrefix : String := "regengine:llm_cache"
  llmRouterCheapModel : String := "sebi-compliance-llm"
  llmRouterFrontierModel : String := "huggingface/Qwen/Qwen2.5-72B-Instruct"
  llmRouterEscalationConfidenceThreshold : Binary64

/-! ## The router -/

inductive ModelTier where
  | cacheHit
  | cheapLocal
  | frontier
  deriving DecidableEq, Repr

inductive TaskComplexity where
  | simple
  | moderate
  | complex
  deriving DecidableEq, Repr

structure RoutingDecision where
  tier : ModelTier
  modelName : String
  complexity : TaskComplexity
  reasons : List String := []

/-- What the four regular expressions find in a clause. -/
structure Markers where
  qualitative : Bool
  crossReference : Bool
  conditionalCount : Nat
  numericCount : Nat

def simpleMaxChars : Nat := 400
def moderateMaxChars : Nat := 1200

def scoreComplexity (markers : Markers) (clauseText : String) : TaskComplexity × List String :=
  let reasons :=
    (if markers.qualitative then
      ["contains qualitative/principle-based language (e.g. 'adequate', 'as deemed fit')"] else []) ++
    (if markers.crossReference then ["cross-references another clause/annexure/circular"] else []) ++
    (if 2 ≤ markers.conditionalCount then
      ["multiple nested conditionals (" ++ toString markers.conditionalCount ++ ")"] else [])
  if reasons ≠ [] then (.complex, reasons)
  else if moderateMaxChars < clauseText.length then
    (.complex, ["clause text exceeds length threshold for reliable single-pass small-model extraction"])
  else if markers.numericCount = 0 then
    (.moderate, ["no explicit numeric threshold found; ambiguous obligation shape"])
  else if markers.numericCount = 1 ∧ markers.conditionalCount = 0 ∧ clauseText.length ≤ simpleMaxChars then
    (.simple, ["single unambiguous numeric threshold, no conditionals, short text"])
  else
    (.moderate, [toString markers.numericCount ++ " numeric threshold(s), " ++
      toString markers.conditionalCount ++ " conditional(s), deterministic but non-trivial"])

/-- `ModelRouter.decide`. -/
def decide (settings : Settings) (markers : Markers) (clauseText : String) : RoutingDecision :=
  let (complexity, reasons) := scoreComplexity markers clauseText
  match complexity with
  | .simple | .moderate => ⟨.cheapLocal, settings.llmRouterCheapModel, complexity, reasons⟩
  | .complex => ⟨.frontier, settings.llmRouterFrontierModel, complexity, reasons⟩

def shouldEscalate (settings : Settings) (extractionConfidence : Option Binary64)
    (ambiguousSpans : Option (List String)) (schemaValid : Bool) : Bool × List String :=
  let threshold := settings.llmRouterEscalationConfidenceThreshold
  let reasons :=
    (if !schemaValid then ["cheap-tier output failed schema validation"] else []) ++
    (match extractionConfidence with
      | some confidence =>
        if confidence.lt threshold then
          ["extraction_confidence " ++ Number.fixed 2 confidence ++ " below threshold " ++
            Number.fixed 2 threshold]
        else []
      | none => []) ++
    (match ambiguousSpans with
      | some (span :: spans) =>
        [toString (span :: spans).length ++
          " ambiguous_span(s) flagged by the cheap-tier model itself"]
      | _ => [])
  (reasons ≠ [], reasons)

/-- What the models answer to one call, if they are asked. The cheap tier answers an instance of the
schema, or something else; either may raise. -/
structure Tiers where
  cheap : Except Failure (Option ExtractedComplianceRule)
  frontier : Except Failure ExtractedComplianceRule

/-- The part of `extract_clause_with_routing` behind a full miss. -/
def extractRouted (settings : Settings) (markers : Markers) (chunk : ClauseChunk) (tiers : Tiers) :
    Except Failure ExtractedComplianceRule := do
  if (decide settings markers chunk.text).tier = .cheapLocal then
    let parsed ← tiers.cheap
    let escalate := (shouldEscalate settings (parsed.map (·.extractionConfidence))
      (parsed.map (·.ambiguousSpans)) parsed.isSome).1
    match parsed with
    | some rule => if escalate then tiers.frontier else pure rule
    | none => tiers.frontier
  else tiers.frontier

/-! ## The cache -/

def normalizeText (text : String) : String :=
  strip (String.ofList (subRuns isSpace [' '] false text.toList))

def exactCacheKey (keyPrefix taskType text : String) : String :=
  keyPrefix ++ ":exact:" ++ taskType ++ ":" ++ Sha256.hexdigest (normalizeText text)

/-- A point of the vector collection; its vector is the embedding of `text`. -/
structure Point where
  id : String
  text : String
  taskType : String
  response : ExtractedComplianceRule
  cachedAt : Rat
  expiresAt : Rat

/-- The services behind the cache and the expressions of the router. `similarity` is the score of the
embedding of a stored text for that of a query; the vector search finds one of the points that its filter
leaves, if there is one. -/
structure Environment where
  markers : String → Markers
  uuid5 : String → String
  similarity : String → String → Binary64
  queryPoints : List Point → String → Option Point
  mem_of_query : ∀ points text point, queryPoints points text = some point → point ∈ points
  query_eq_none : ∀ points text, queryPoints points text = none → points = []

/-- What both layers hold: a response with the moment it expires under each key, and the points. -/
structure Cache where
  redis : String → Option (ExtractedComplianceRule × Rat) := fun _ => none
  points : List Point := []

namespace Cache

variable (env : Environment) (settings : Settings)

def redisGet (cache : Cache) (key : String) (now : Rat) : Option ExtractedComplianceRule :=
  ((cache.redis key).filter fun entry => now < entry.2).map (·.1)

/-- `SETEX`, which refuses a time to live that is not positive. -/
def setex (cache : Cache) (key : String) (response : ExtractedComplianceRule) (now : Rat) :
    Except Failure Cache :=
  if 0 < settings.llmCacheTtlSeconds then
    .ok { cache with redis := fun k =>
      if k = key then some (response, now + settings.llmCacheTtlSeconds) else cache.redis k }
  else .error ⟨"ResponseError", "invalid expire time in 'setex' command"⟩

/-- `_semantic_lookup`. -/
def semanticLookup (cache : Cache) (text taskType : String) (now : Rat) : Option ExtractedComplianceRule :=
  match env.queryPoints (cache.points.filter fun p => p.taskType = taskType ∧ now < p.expiresAt) text with
  | none => none
  | some top =>
    if (env.similarity top.text text).lt settings.llmCacheSimilarityThreshold then none
    else some top.response

def pointIdFor (taskType text : String) : String :=
  env.uuid5 (Sha256.hexdigest (taskType ++ ":" ++ normalizeText text))

/-- The `upsert` of `put`: a point of the same id is replaced. -/
def upsert (cache : Cache) (text taskType : String) (response : ExtractedComplianceRule) (now : Rat) :
    Cache :=
  let point : Point := {
    id := pointIdFor env taskType text
    text := text
    taskType := taskType
    response := response
    cachedAt := now
    expiresAt := now + settings.llmCacheTtlSeconds }
  { cache with points := point :: cache.points.filter fun p => p.id ≠ point.id }

def purgeExpired (cache : Cache) (now : Rat) : Cache :=
  { cache with points := cache.points.filter fun p => ¬ p.expiresAt < now }

end Cache

/-! ## Calls over one cache -/

/-- Where a call waits: for the exact layer, the vector search, the write that keeps a semantic hit under
the exact key, the models, and the two writes of `put`. -/
inductive Phase where
  | exact
  | semantic
  | backfill (response : ExtractedComplianceRule)
  | models
  | put (extracted : ExtractedComplianceRule)
  | index (extracted : ExtractedComplianceRule)
  | returned (extracted : ExtractedComplianceRule)
  | raised (failure : Failure)

structure Call where
  chunk : ClauseChunk
  tiers : Tiers
  phase : Phase := .exact

section
variable (env : Environment) (settings : Settings)

def Call.key (call : Call) : String :=
  exactCacheKey settings.llmCacheRedisKeyPrefix "extraction" call.chunk.text

/-- One step of `extract_clause_with_routing`, at this time. -/
def Call.resume (cache : Cache) (call : Call) (now : Rat) : Cache × Phase :=
  match call.phase with
  | .exact =>
    match cache.redisGet (call.key settings) now with
    | some response => (cache, .returned response)
    | none => (cache, .semantic)
  | .semantic =>
    match cache.semanticLookup env settings call.chunk.text "extraction" now with
    | some response => (cache, .backfill response)
    | none => (cache, .models)
  | .backfill response =>
    match cache.setex settings (call.key settings) response now with
    | .ok cache => (cache, .returned response)
    | .error failure => (cache, .raised failure)
  | .models =>
    match extractRouted settings (env.markers call.chunk.text) call.chunk call.tiers with
    | .ok extracted => (cache, .put extracted)
    | .error failure => (cache, .raised failure)
  | .put extracted =>
    match cache.setex settings (call.key settings) extracted now with
    | .ok cache => (cache, .index extracted)
    | .error failure => (cache, .raised failure)
  | .index extracted =>
    (cache.upsert env settings call.chunk.text "extraction" extracted now, .returned extracted)
  | phase => (cache, phase)

/-- A new call, a step of one of the calls made so far, and `purge_expired_cache_entries_task`. -/
inductive Event where
  | call (chunk : ClauseChunk) (tiers : Tiers)
  | resume (number : Nat) (now : Rat)
  | purge (now : Rat)

structure System where
  cache : Cache := {}
  calls : List Call := []

def System.step (sys : System) : Event → System
  | .call chunk tiers => { sys with calls := sys.calls ++ [⟨chunk, tiers, .exact⟩] }
  | .resume number now =>
    match sys.calls[number]? with
    | some call =>
      let (cache, phase) := call.resume env settings sys.cache now
      { cache, calls := sys.calls.set number { call with phase } }
    | none => sys
  | .purge now => { sys with cache := sys.cache.purgeExpired now }

/-- The system after these events, from an empty cache. -/
def run (events : List Event) : System :=
  events.foldl (System.step env settings) {}

end

end RegEngine.LlmOps
