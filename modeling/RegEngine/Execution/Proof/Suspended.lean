import RegEngine.Lib.ReadThrough
import RegEngine.Execution.Proof.Coherence

/-!
# Lookups of the policy cache that are suspended in the registry

`PolicyCache.policies_for` as a lookup of `Lib.ReadThrough`: the check of the cached entry, one
`hget` for the entity type and one for `"*"`, then the store, stamped with the time of the check.
The commands of other lookups, of any writer of the registry and of `PolicyHotReloadSubscriber` may
run in between. A version of the source is what the registry holds after one more command.

* `apply_reachable`, `policiesFor_reachable`: an event, and a lookup that nobody interrupts, are
  those of a process.
* `no_stale_list`: a lookup that starts after an invalidation answers with what the registry held
  at the write the invalidation was made for, or later, when every store finds its lists read no
  earlier than the writes of the invalidations so far.
* `stale_list_stored`: a lookup that read before the write and stores after the invalidation.
-/

namespace RegEngine.Execution

open Lib Lib.ReadThrough Compiler

/-- `PolicyRegistry.policies_for`: the field of the entity type, then `"*"`. -/
def policiesQuery : Query String String (List PolicyEntry) (List PolicyEntry) where
  fields entityType := [entityType, "*"]
  answer _ read := PolicyRegistry.dedupe [] read.flatten

theorem policiesQuery_eval (R : PolicyRegistry) : policiesQuery.eval R.entries = R.policiesFor := by
  funext entityType
  simp [Query.eval, policiesQuery, PolicyRegistry.policiesFor]

/-- The registry in its versions, the local cache and the lookups under way. -/
abbrev CacheState (ι T : Type) :=
  ReadThrough.State ι String String (List PolicyEntry) (List PolicyEntry) T

section
variable {ι T : Type} [DecidableEq ι] [Sub T] [LT T] [DecidableLT T] {ttl : T}
  {Ok : Nat → List (Reading String (List PolicyEntry)) → Prop} {s : CacheState ι T}

/-! ## The operations of a process -/

/-- The present registry and the local cache are those of the process. -/
structure Shows (s : CacheState ι T) (p : Process T) : Prop where
  registry : s.source = p.registry.entries
  cache : s.cache = p.cache

/-- `PolicyHotReloadSubscriber.apply`: the registry is written, then the entity types of the event
are invalidated for it. -/
theorem apply_reachable {p : Process T} (h : Shows s p) (event : PolicyEvent) :
    ∃ s', Relation.ReflTransGen (Step policiesQuery ttl Ok) s s' ∧ Shows s' (p.apply event) ∧
      s' = (s.written (p.apply event).registry.entries).invalidated event.entityTypes
        (s.version + 1) := by
  have hwrite : Step policiesQuery ttl Ok s (s.written (p.apply event).registry.entries) := .write _
  have hinvalidate : Step policiesQuery ttl Ok (s.written (p.apply event).registry.entries) _ :=
    .invalidate event.entityTypes (Nat.le_refl _)
  refine ⟨_, (Relation.ReflTransGen.single hwrite).tail hinvalidate, ⟨?_, ?_⟩, rfl⟩
  · exact Function.update_self ..
  · show s.cache.evict event.entityTypes = (p.apply event).cache
    rw [h.cache, apply_eq (P := ⟨true, true⟩)]

/-- `PolicyCache.policies_for`, when nothing else runs. -/
theorem policiesFor_reachable {p : Process T} (h : Shows s p) (i : ι) (now : T)
    (entityType : String) (hi : s.phase i = .idle)
    (hok : Ok (s.floor entityType) (s.readings (policiesQuery.fields entityType))) :
    ∃ s', Relation.ReflTransGen (Step policiesQuery ttl Ok) s s' ∧
      Shows s' (p.policiesFor ttl now entityType).2 ∧
      s'.phase i =
        .answered entityType (s.floor entityType) (p.policiesFor ttl now entityType).1 := by
  have hrun : Relation.ReflTransGen (Step policiesQuery ttl Ok) s _ :=
    alone_reachable i entityType now s hi hok
  rw [h.registry, h.cache, policiesQuery_eval] at hrun
  exact ⟨_, hrun, ⟨h.registry, rfl⟩, Function.update_self ..⟩

/-! ## After an invalidation -/

/-- **No stale policy list survives an invalidation**: whatever runs, from any registry, a lookup of
an entity type that starts after the entity type was invalidated for a write of the registry answers
with a list read at that write or later. -/
def NoStaleList (ι : Type) [DecidableEq ι] (ttl : T)
    (Ok : Nat → List (Reading String (List PolicyEntry)) → Prop) : Prop :=
  ∀ (R : PolicyRegistry) (s s' : CacheState ι T) (entityTypes : List String) (write : Nat) (i : ι)
    (entityType : String) (floor : Nat) (policies : List PolicyEntry),
    Reachable policiesQuery ttl Ok R.entries s → write ≤ s.version → entityType ∈ entityTypes →
    s.phase i = .idle →
    Relation.ReflTransGen (Step policiesQuery ttl Ok) (s.invalidated entityTypes write) s' →
    s'.phase i = .answered entityType floor policies →
    s'.AsNewAs policiesQuery write entityType policies

/-- The property holds of the runs in which every store finds its lists read at the newest write its
entity type has been invalidated for, or later. -/
theorem no_stale_list (ι : Type) [DecidableEq ι] (ttl : T) : NoStaleList ι ttl Current := by
  intro R s s' entityTypes write i entityType floor policies hreach hwrite hmem hidle hrun hans
  have hreach' : Reachable policiesQuery ttl Current R.entries s' :=
    (hreach.tail (.invalidate entityTypes hwrite)).trans hrun
  exact answered_after_invalidation hmem hidle hrun (answers_fresh hreach') hans

end

/-! ## A list stored late -/

/-- The approval of the margin rule for stockbrokers. -/
def stockbrokerApproval : PolicyEvent := { marginApproval with entityTypes := ["Stockbroker"] }

/-- The registry after that approval. -/
def approvedRegistry : PolicyRegistry :=
  PolicyRegistry.empty.register stockbrokerApproval.compiled stockbrokerApproval.entityTypes

/-- A lookup that starts after the approval and nobody interrupts finds the rule. -/
theorem no_stale_list_refreshed :
    ∃ s : CacheState Bool Int,
      s.phase true = .answered "Stockbroker" 1 [entry stockbrokerApproval.compiled] ∧
      s.AsNewAs policiesQuery 1 "Stockbroker" [entry stockbrokerApproval.compiled] := by
  let s₀ : CacheState Bool Int :=
    (State.initial PolicyRegistry.empty.entries).written approvedRegistry.entries
  let p : Process Int := ⟨approvedRegistry, ReadCache.empty.evict ["Stockbroker"]⟩
  have hreach : Reachable policiesQuery (30 : Int) Current PolicyRegistry.empty.entries s₀ :=
    .single (.write _)
  have hshows : Shows (s₀.invalidated ["Stockbroker"] 1) p := ⟨rfl, rfl⟩
  have hcurrent : Current 1
      ((s₀.invalidated ["Stockbroker"] 1).readings (policiesQuery.fields "Stockbroker")) := by
    intro r hr
    obtain ⟨f, -, rfl⟩ := List.mem_map.1 hr
    exact Nat.le_refl 1
  obtain ⟨s, hrun, -, hans⟩ := policiesFor_reachable hshows true 0 "Stockbroker" rfl hcurrent
  exact ⟨s, hans, no_stale_list Bool 30 PolicyRegistry.empty s₀ s ["Stockbroker"] 1 true
    "Stockbroker" _ _ hreach (Nat.le_refl 1) (List.mem_singleton.2 rfl) rfl hrun hans⟩

/-- A lookup of the stockbrokers' policies has read that there are none. -/
def suspendedLookup : CacheState Bool Int where
  versions _ := PolicyRegistry.empty.entries
  version := 0
  cache := { ReadCache.empty with misses := 1 }
  floor _ := 0
  phase := Function.update (fun _ => .idle) false
    (.reading "Stockbroker" 0 0 [⟨"Stockbroker", 0, []⟩, ⟨"*", 0, []⟩] [])

theorem suspendedLookup_reachable (Ok : Nat → List (Reading String (List PolicyEntry)) → Prop) :
    Reachable policiesQuery (30 : Int) Ok PolicyRegistry.empty.entries suspendedLookup := by
  let s₁ : CacheState Bool Int :=
    { suspendedLookup with
      phase := Function.update (fun _ => .idle) false
        (.reading "Stockbroker" 0 0 [] ["Stockbroker", "*"]) }
  have hmiss : Step policiesQuery (30 : Int) Ok (State.initial PolicyRegistry.empty.entries) s₁ :=
    .miss false "Stockbroker" 0 rfl rfl
  have hreads : Relation.ReflTransGen (Step policiesQuery (30 : Int) Ok) s₁ _ :=
    reads_reachable false ["Stockbroker", "*"] [] s₁ rfl
  have hphase : Function.update s₁.phase false
      (.reading "Stockbroker" 0 0 ([] ++ s₁.readings ["Stockbroker", "*"]) []) =
        suspendedLookup.phase := Function.update_idem ..
  rw [hphase] at hreads
  exact (Relation.ReflTransGen.single hmiss).trans hreads

/-- The approval is registered and broadcast while that lookup is suspended; its list of no policies
is stored after the invalidation and served to the next lookup. -/
theorem stale_list_stored : ¬ NoStaleList Bool (30 : Int) fun _ _ => True := by
  intro h
  let s : CacheState Bool Int := suspendedLookup.written approvedRegistry.entries
  have hreach := (suspendedLookup_reachable fun _ _ => True).tail (.write approvedRegistry.entries)
  have hstore : Step policiesQuery (30 : Int) (fun _ _ => True) (s.invalidated ["Stockbroker"] 1) _ :=
    .store false rfl trivial
  let s₁ : CacheState Bool Int :=
    { s.invalidated ["Stockbroker"] 1 with
      cache := (s.invalidated ["Stockbroker"] 1).cache.store "Stockbroker" [] 0
      phase := Function.update s.phase false (.answered "Stockbroker" 0 []) }
  have hhit : Step policiesQuery (30 : Int) (fun _ _ => True) s₁ _ :=
    .hit true "Stockbroker" 1 rfl (ReadCache.fresh?_store (by decide))
  have hnew := eval_of_asNewAs (h PolicyRegistry.empty s _ ["Stockbroker"] 1 true "Stockbroker" 1 []
    hreach (Nat.le_refl _) (List.mem_singleton.2 rfl) rfl
    ((Relation.ReflTransGen.single hstore).tail hhit) rfl)
  have hlisted : policiesQuery.eval approvedRegistry.entries "Stockbroker" =
      [entry stockbrokerApproval.compiled] := by decide
  exact absurd (hnew.trans hlisted) (by decide)

end RegEngine.Execution
