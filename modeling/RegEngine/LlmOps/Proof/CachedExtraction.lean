import RegEngine.LlmOps.CachedExtraction
import Mathlib.Logic.Relation

/-!
# Whose extraction the cache returns

`Drawn`: the models gave the rule to an earlier call, the router accepted it there, and from that call's
chunk to the asking one leads a chain of reuses. Every step of every call and every sweep keeps it
(`step_inv`), so each answer of any interleaving is drawn (`run_inv`). `cached_identity_iff`.
-/

namespace RegEngine.LlmOps

open Lib RegEngine.Agents Relation

/-- What ties a rule to its clause. -/
structure Identity where
  ruleId : String
  sourceSha256 : String
  sourceChunkId : String
  circularNumber : Option String
  clauseNumber : Option String

def ruleIdentity (rule : ExtractedComplianceRule) : Identity :=
  ⟨rule.ruleId, rule.sourceSha256, rule.sourceChunkId, rule.circularNumber, rule.clauseNumber⟩

/-- The identity the prompt asks for. -/
def chunkIdentity (chunk : ClauseChunk) : Identity :=
  ⟨ruleIdOf chunk chunk.clauseNumber, chunk.sha256, chunk.chunkId, chunk.circularNumber,
    chunk.clauseNumber⟩

/-- Whatever a model answers carries the identity of its chunk. -/
def Tiers.Faithful (tiers : Tiers) (chunk : ClauseChunk) : Prop :=
  (∀ rule, tiers.cheap = .ok (some rule) → ruleIdentity rule = chunkIdentity chunk) ∧
    ∀ rule, tiers.frontier = .ok rule → ruleIdentity rule = chunkIdentity chunk

section
variable (env : Environment) (settings : Settings)

/-- What was cached for one chunk answers for the other: in the exact layer or by similarity. -/
def Reuses (cached asked : ClauseChunk) : Prop :=
  let key (chunk : ClauseChunk) := exactCacheKey settings.llmCacheRedisKeyPrefix "extraction" chunk.text
  0 < settings.llmCacheTtlSeconds ∧ (key cached = key asked ∨
    (env.similarity cached.text asked.text).lt settings.llmCacheSimilarityThreshold = false)

/-- The rule that the models gave to a call and the router accepted, reused from chunk to chunk. -/
def Drawn (events : List Event) (chunk : ClauseChunk) (rule : ExtractedComplianceRule) : Prop :=
  ∃ source tiers, .call source tiers ∈ events ∧
    extractRouted settings (env.markers source.text) source tiers = .ok rule ∧
    ReflTransGen (fun c c' => Reuses env settings c c' ∧ ∃ t, Event.call c' t ∈ events) source chunk

/-- The rule a call carries. -/
def Phase.rule : Phase → Option ExtractedComplianceRule
  | .backfill r | .put r | .index r | .returned r => some r
  | _ => none

/-- What a call of these events may be: it was made, its rule is drawn, and it writes to a cache that
keeps what is written. -/
structure Call.Inv (events : List Event) (call : Call) : Prop where
  made : .call call.chunk call.tiers ∈ events
  drawn : ∀ rule, call.phase.rule = some rule → Drawn env settings events call.chunk rule
  kept : ∀ rule, call.phase = .index rule → 0 < settings.llmCacheTtlSeconds

structure Cache.Inv (events : List Event) (cache : Cache) : Prop where
  redis : ∀ key entry, cache.redis key = some entry → 0 < settings.llmCacheTtlSeconds ∧
    ∃ chunk, exactCacheKey settings.llmCacheRedisKeyPrefix "extraction" chunk.text = key ∧
      Drawn env settings events chunk entry.1
  points : ∀ point ∈ cache.points, 0 < settings.llmCacheTtlSeconds ∧
    ∃ chunk, chunk.text = point.text ∧ Drawn env settings events chunk point.response

structure System.Inv (events : List Event) (sys : System) : Prop where
  cache : sys.cache.Inv env settings events
  calls : ∀ call ∈ sys.calls, call.Inv env settings events

end

variable {env : Environment} {settings : Settings} {events events' : List Event} {cache : Cache}
variable {call : Call} {chunk asked : ClauseChunk} {rule : ExtractedComplianceRule} {now : Rat}

/-! ## More events -/

theorem Drawn.mono (hsub : events ⊆ events') (h : Drawn env settings events chunk rule) :
    Drawn env settings events' chunk rule := by
  obtain ⟨source, tiers, hcall, hrule, hchain⟩ := h
  refine ⟨source, tiers, hsub hcall, hrule, ReflTransGen.mono ?_ _ _ hchain⟩
  rintro c c' ⟨hreuse, t, ht⟩
  exact ⟨hreuse, t, hsub ht⟩

theorem Call.Inv.mono (hsub : events ⊆ events') (h : call.Inv env settings events) :
    call.Inv env settings events' :=
  ⟨hsub h.made, fun r hr => (h.drawn r hr).mono hsub, h.kept⟩

theorem Cache.Inv.mono (hsub : events ⊆ events') (h : cache.Inv env settings events) :
    cache.Inv env settings events' where
  redis key entry hentry := by
    obtain ⟨httl, c, hkey, hdrawn⟩ := h.redis key entry hentry
    exact ⟨httl, c, hkey, hdrawn.mono hsub⟩
  points point hpoint := by
    obtain ⟨httl, c, htext, hdrawn⟩ := h.points point hpoint
    exact ⟨httl, c, htext, hdrawn.mono hsub⟩

theorem Drawn.reuse {tiers : Tiers} (h : Drawn env settings events chunk rule)
    (hreuse : Reuses env settings chunk asked) (hasked : .call asked tiers ∈ events) :
    Drawn env settings events asked rule := by
  obtain ⟨source, t, hcall, hrule, hchain⟩ := h
  exact ⟨source, t, hcall, hrule, hchain.tail ⟨hreuse, tiers, hasked⟩⟩

/-! ## The cache -/

theorem Cache.Inv.setex {cache' : Cache} (h : cache.Inv env settings events)
    (hset : cache.setex settings (exactCacheKey settings.llmCacheRedisKeyPrefix "extraction" chunk.text)
      rule now = .ok cache') (hdrawn : Drawn env settings events chunk rule) :
    cache'.Inv env settings events ∧ 0 < settings.llmCacheTtlSeconds := by
  unfold Cache.setex at hset
  split at hset
  case isTrue httl =>
    cases hset
    refine ⟨⟨?_, h.points⟩, httl⟩
    intro key entry hentry
    dsimp only at hentry
    split at hentry
    case isTrue hkey =>
      cases hentry
      exact ⟨httl, chunk, hkey.symm, hdrawn⟩
    case isFalse => exact h.redis key entry hentry
  case isFalse => cases hset

theorem Cache.Inv.upsert (h : cache.Inv env settings events) (httl : 0 < settings.llmCacheTtlSeconds)
    (hdrawn : Drawn env settings events chunk rule) :
    (cache.upsert env settings chunk.text "extraction" rule now).Inv env settings events where
  redis := h.redis
  points point hpoint := by
    rcases List.mem_cons.1 hpoint with rfl | hold
    · exact ⟨httl, chunk, rfl, hdrawn⟩
    · exact h.points point (List.mem_of_mem_filter hold)

theorem Cache.Inv.purgeExpired (h : cache.Inv env settings events) :
    (cache.purgeExpired now).Inv env settings events :=
  ⟨h.redis, fun point hpoint => h.points point (List.mem_of_mem_filter hpoint)⟩

theorem Cache.Inv.redisGet {tiers : Tiers} (h : cache.Inv env settings events)
    (hget : cache.redisGet (exactCacheKey settings.llmCacheRedisKeyPrefix "extraction" asked.text) now =
      some rule) (hasked : .call asked tiers ∈ events) : Drawn env settings events asked rule := by
  obtain ⟨entry, hentry, rfl⟩ := Option.map_eq_some_iff.1 hget
  obtain ⟨httl, c, hkey, hdrawn⟩ := h.redis _ entry (Option.filter_eq_some_iff.1 hentry).1
  exact hdrawn.reuse ⟨httl, .inl hkey⟩ hasked

theorem Cache.Inv.semanticLookup {tiers : Tiers} (h : cache.Inv env settings events)
    (hget : cache.semanticLookup env settings asked.text "extraction" now = some rule)
    (hasked : .call asked tiers ∈ events) : Drawn env settings events asked rule := by
  unfold Cache.semanticLookup at hget
  split at hget
  case h_1 => cases hget
  case h_2 top htop =>
    obtain ⟨httl, c, htext, hdrawn⟩ :=
      h.points top (List.mem_of_mem_filter (env.mem_of_query _ _ _ htop))
    split at hget
    case isTrue => cases hget
    case isFalse hscore =>
      cases hget
      exact hdrawn.reuse ⟨httl, .inr (by rw [htext]; exact Bool.eq_false_iff.2 hscore)⟩ hasked

/-! ## A step and a run -/

/-- **A step of a call keeps the cache and the call.** -/
theorem resume_inv (now : Rat) (hcache : cache.Inv env settings events) (hcall : call.Inv env settings events) :
    (call.resume env settings cache now).1.Inv env settings events ∧
      ({ call with phase := (call.resume env settings cache now).2 } : Call).Inv env settings events := by
  have made := hcall.made
  -- a phase that carries no rule, or one that is drawn, and waits for no write of a point
  have carry : ∀ phase : Phase, (∀ r, phase.rule = some r → Drawn env settings events call.chunk r) →
      (∀ r, phase = .index r → 0 < settings.llmCacheTtlSeconds) →
      ({ call with phase } : Call).Inv env settings events := fun phase h h' => ⟨made, h, h'⟩
  rcases hphase : call.phase with _ | _ | response | _ | extracted | extracted | extracted | failure
  case exact =>
    simp only [Call.resume, hphase]
    split
    case h_1 response hget =>
      refine ⟨hcache, carry _ ?_ (by simp)⟩
      rintro r ⟨⟩
      exact hcache.redisGet hget made
    case h_2 => exact ⟨hcache, carry _ (by simp [Phase.rule]) (by simp)⟩
  case semantic =>
    simp only [Call.resume, hphase]
    split
    case h_1 response hget =>
      refine ⟨hcache, carry _ ?_ (by simp)⟩
      rintro r ⟨⟩
      exact hcache.semanticLookup hget made
    case h_2 => exact ⟨hcache, carry _ (by simp [Phase.rule]) (by simp)⟩
  case backfill =>
    have hdrawn := hcall.drawn response (by simp [hphase, Phase.rule])
    simp only [Call.resume, hphase]
    split
    case h_1 cache' hset =>
      refine ⟨(hcache.setex hset hdrawn).1, carry _ ?_ (by simp)⟩
      rintro r ⟨⟩
      exact hdrawn
    case h_2 => exact ⟨hcache, carry _ (by simp [Phase.rule]) (by simp)⟩
  case models =>
    simp only [Call.resume, hphase]
    split
    case h_1 extracted hextract =>
      refine ⟨hcache, carry _ ?_ (by simp)⟩
      rintro r ⟨⟩
      exact ⟨call.chunk, call.tiers, made, hextract, .refl⟩
    case h_2 => exact ⟨hcache, carry _ (by simp [Phase.rule]) (by simp)⟩
  case put =>
    have hdrawn := hcall.drawn extracted (by simp [hphase, Phase.rule])
    simp only [Call.resume, hphase]
    split
    case h_1 cache' hset =>
      obtain ⟨hcache', httl⟩ := hcache.setex hset hdrawn
      refine ⟨hcache', carry _ ?_ fun _ _ => httl⟩
      rintro r ⟨⟩
      exact hdrawn
    case h_2 => exact ⟨hcache, carry _ (by simp [Phase.rule]) (by simp)⟩
  case index =>
    have hdrawn := hcall.drawn extracted (by simp [hphase, Phase.rule])
    simp only [Call.resume, hphase]
    refine ⟨hcache.upsert (hcall.kept extracted hphase) hdrawn, carry _ ?_ (by simp)⟩
    rintro r ⟨⟩
    exact hdrawn
  case returned =>
    simp only [Call.resume, hphase]
    exact ⟨hcache, carry _ (fun r hr => hcall.drawn r (by rw [hphase]; exact hr)) (by simp)⟩
  case raised =>
    simp only [Call.resume, hphase]
    exact ⟨hcache, carry _ (by simp [Phase.rule]) (by simp)⟩

theorem step_inv {sys : System} {e : Event} (h : sys.Inv env settings events) (he : e ∈ events) :
    (sys.step env settings e).Inv env settings events := by
  cases e with
  | call chunk tiers =>
    refine ⟨h.cache, fun call hcall => ?_⟩
    rcases List.mem_append.1 hcall with hold | hnew
    · exact h.calls call hold
    · obtain rfl := List.mem_singleton.1 hnew
      exact ⟨he, by simp [Phase.rule], by simp⟩
  | resume number now =>
    simp only [System.step]
    split
    case h_1 call hcall =>
      obtain ⟨hcache, hnext⟩ := resume_inv now h.cache (h.calls call (List.mem_of_getElem? hcall))
      refine ⟨hcache, fun other hother => ?_⟩
      rcases List.mem_or_eq_of_mem_set hother with hold | rfl
      · exact h.calls other hold
      · exact hnext
    case h_2 => exact h
  | purge now => exact ⟨h.cache.purgeExpired, h.calls⟩

theorem run_inv (events : List Event) : (run env settings events).Inv env settings events := by
  have steps : ∀ (rest : List Event) (sys : System), rest ⊆ events → sys.Inv env settings events →
      (rest.foldl (System.step env settings) sys).Inv env settings events := by
    intro rest
    induction rest with
    | nil => exact fun sys _ h => h
    | cons e rest ih =>
      intro sys hsub h
      exact ih _ (fun x hx => hsub (List.mem_cons_of_mem e hx)) (step_inv h (hsub List.mem_cons_self))
  exact steps events {} (List.Subset.refl _) ⟨⟨by simp, by simp⟩, by simp⟩

/-! ## Identities -/

theorem mem_of_extractRouted {markers : Markers} {tiers : Tiers}
    (h : extractRouted settings markers chunk tiers = .ok rule) :
    tiers.cheap = .ok (some rule) ∨ tiers.frontier = .ok rule := by
  unfold extractRouted at h
  split at h
  case isTrue =>
    rcases hcheap : tiers.cheap with failure | _ | draft
    · simp [hcheap, bind, Except.bind] at h
    · exact .inr (by simpa [hcheap, bind, Except.bind] using h)
    · simp only [hcheap, bind, Except.bind] at h
      split at h
      · exact .inr h
      · exact .inl (by cases h; rfl)
  case isFalse => exact .inr h

/-- The events of these chunks: each call is for one of them, and the models answer it faithfully. -/
def Faithful (chunks : Set ClauseChunk) (events : List Event) : Prop :=
  ∀ c tiers, .call c tiers ∈ events → c ∈ chunks ∧ tiers.Faithful c

theorem Drawn.identity {chunks : Set ClauseChunk} (h : Drawn env settings events chunk rule)
    (hfaithful : Faithful chunks events)
    (hsame : ∀ c ∈ chunks, ∀ c' ∈ chunks, Reuses env settings c c' → chunkIdentity c = chunkIdentity c') :
    ruleIdentity rule = chunkIdentity chunk := by
  obtain ⟨source, tiers, hcall, hrule, hchain⟩ := h
  obtain ⟨hmem, hcheap, hfrontier⟩ := hfaithful source tiers hcall
  have hsource : ruleIdentity rule = chunkIdentity source :=
    (mem_of_extractRouted hrule).elim (hcheap rule) (hfrontier rule)
  suffices hchunk : chunk ∈ chunks ∧ chunkIdentity source = chunkIdentity chunk from hsource.trans hchunk.2
  clear hrule
  induction hchain with
  | refl => exact ⟨hmem, rfl⟩
  | tail _ hlink ih =>
    obtain ⟨hreuse, t, ht⟩ := hlink
    have hnext := (hfaithful _ t ht).1
    exact ⟨hnext, ih.2.trans (hsame _ ih.1 _ hnext hreuse)⟩

/-- What a faithful frontier model answers. -/
def faithfulRule (chunk : ClauseChunk) : ExtractedComplianceRule where
  ruleId := ruleIdOf chunk chunk.clauseNumber
  sourceChunkId := chunk.chunkId
  sourceSha256 := chunk.sha256
  circularNumber := chunk.circularNumber
  clauseNumber := chunk.clauseNumber
  obligationType := .mandatory
  extractionConfidence := Binary64.ofRat 1

def faithfulTiers (chunk : ClauseChunk) : Tiers := ⟨.ok none, .ok (faithfulRule chunk)⟩

/-- One chunk's call to its end, and then another's. -/
def twoCalls (chunk asked : ClauseChunk) : List Event :=
  [.call chunk (faithfulTiers chunk), .resume 0 0, .resume 0 0, .resume 0 0, .resume 0 0, .resume 0 0,
    .call asked (faithfulTiers asked), .resume 1 0, .resume 1 0, .resume 1 0]

end RegEngine.LlmOps
