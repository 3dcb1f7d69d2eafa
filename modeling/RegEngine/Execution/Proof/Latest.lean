import Mathlib.Data.List.Induction
import RegEngine.Execution.Registry
import RegEngine.Lib.LockProtocol

/-!
# What a registry operation changes

* `policiesFor_register`, `policiesFor_unregister`: when a registration or a removal leaves the
  policies of an entity type as they are.
-/

namespace RegEngine.Execution.PolicyRegistry

open Lib Compiler

variable {R : PolicyRegistry} {c : CompiledRego}

/-! ## The entries under a field -/

theorem entries_registerKey (key k : String) :
    (registerKey c R key).entries k =
      if k = key then ((R.entries k).filter fun e => e.ruleId ≠ c.ruleId) ++ [entry c]
      else R.entries k := by
  by_cases h : k = key <;> simp [registerKey, hset, entries, h]

theorem entries_foldl_registerKey_of_notMem : ∀ {keys : List String} {R : PolicyRegistry}
    {k : String}, k ∉ keys → (keys.foldl (registerKey c) R).entries k = R.entries k
  | [], _, _, _ => rfl
  | key :: keys, R, k, h => by
    rw [List.mem_cons, not_or] at h
    rw [List.foldl_cons, entries_foldl_registerKey_of_notMem h.2, entries_registerKey, if_neg h.1]

theorem entries_foldl_registerKey_of_mem : ∀ {keys : List String} {R : PolicyRegistry}
    {k : String}, k ∈ keys → (keys.foldl (registerKey c) R).entries k =
      ((R.entries k).filter fun e => e.ruleId ≠ c.ruleId) ++ [entry c]
  | key :: keys, R, k, h => by
    rw [List.foldl_cons]
    by_cases hk : k ∈ keys
    · -- a second write of the same field finds the entry it would store
      rw [entries_foldl_registerKey_of_mem hk, entries_registerKey]
      split
      · simp [entry, List.filter_append, List.filter_filter]
      · rfl
    · have hkey : k = key := (List.mem_cons.1 h).resolve_right hk
      rw [entries_foldl_registerKey_of_notMem hk, entries_registerKey, if_pos hkey]

theorem entries_unregister (ruleId k : String) :
    (R.unregister ruleId).entries k = (R.entries k).filter fun e => e.ruleId ≠ ruleId := by
  cases hk : R.hash k with
  | none => simp [unregister, entries, hk]
  | some es =>
    simp only [unregister, entries, hk, Option.bind_some, Option.getD_some]
    split
    · rename_i h
      rw [List.isEmpty_iff.1 h, Option.getD_none]
    · rfl

/-! ## The policies of an entity type -/

/-- A rule that is already seen adds nothing, wherever its entry stands. -/
theorem dedupe_refresh : ∀ (es : List PolicyEntry) {seen : List String}, c.ruleId ∈ seen →
    dedupe seen ((es.filter fun e => e.ruleId ≠ c.ruleId) ++ [entry c]) = dedupe seen es
  | [], seen, h => by simp [dedupe, entry, h]
  | e :: es, seen, h => by
    by_cases he : e.ruleId = c.ruleId
    · rw [List.filter_cons_of_neg (by simpa using he), dedupe_refresh es h]
      simp [dedupe, he, h]
    · rw [List.filter_cons_of_pos (by simpa using he), List.cons_append]
      unfold dedupe
      rw [dedupe_refresh es h, dedupe_refresh es (List.mem_cons_of_mem _ h)]

/-- An entry behind another one of the same rule adds nothing. -/
theorem dedupe_masked (es : List PolicyEntry) : ∀ (own : List PolicyEntry) {seen : List String},
    (c.ruleId ∈ seen ∨ ∃ e ∈ own, e.ruleId = c.ruleId) →
    dedupe seen (own ++ ((es.filter fun e => e.ruleId ≠ c.ruleId) ++ [entry c])) =
      dedupe seen (own ++ es)
  | [], seen, h => dedupe_refresh es (h.resolve_right (by simp))
  | e :: own, seen, h => by
    rw [List.cons_append, List.cons_append]
    unfold dedupe
    by_cases he : e.ruleId ∈ seen
    · rw [if_pos he, if_pos he]
      refine dedupe_masked es own ?_
      rcases h with h | ⟨x, hx, hid⟩
      · exact .inl h
      · rcases List.mem_cons.1 hx with rfl | hx
        · exact .inl (hid ▸ he)
        · exact .inr ⟨x, hx, hid⟩
    · rw [if_neg he, if_neg he]
      congr 1
      refine dedupe_masked es own ?_
      rcases h with h | ⟨x, hx, hid⟩
      · exact .inl (List.mem_cons_of_mem _ h)
      · rcases List.mem_cons.1 hx with rfl | hx
        · exact .inl (by simp [hid])
        · exact .inr ⟨x, hx, hid⟩

theorem entries_register_of_stored {entityTypes : List String} {k : String}
    (h : k ∈ scopeOf entityTypes → R.Stored k c) :
    (R.register c entityTypes).entries k = R.entries k := by
  unfold register
  by_cases hk : k ∈ scopeOf entityTypes
  · rw [entries_foldl_registerKey_of_mem hk, h hk]
  · rw [entries_foldl_registerKey_of_notMem hk]

/-- **A registration leaves the policies of an entity type as they are** when it writes its field
and `"*"` at most with what they hold, or when the field lists the rule and so masks what `"*"`
holds. -/
theorem policiesFor_register {entityTypes : List String} {e : String}
    (he : e ∈ scopeOf entityTypes → R.Stored e c)
    (hstar : "*" ∈ scopeOf entityTypes → R.Lists e c.ruleId ∨ R.Stored "*" c) :
    (R.register c entityTypes).policiesFor e = R.policiesFor e := by
  unfold policiesFor
  rw [entries_register_of_stored he]
  by_cases h : "*" ∈ scopeOf entityTypes
  · rcases hstar h with hlists | hstored
    · rw [register, entries_foldl_registerKey_of_mem h]
      exact dedupe_masked _ _ (.inr hlists)
    · rw [entries_register_of_stored fun _ => hstored]
  · rw [entries_register_of_stored fun hs => absurd hs h]

theorem entries_unregister_of_not_lists {key ruleId : String} (h : ¬ R.Lists key ruleId) :
    (R.unregister ruleId).entries key = R.entries key := by
  rw [entries_unregister, List.filter_eq_self]
  intro e he
  simpa using fun hid => h ⟨e, he, hid⟩

/-- **A removal leaves the policies of an entity type as they are** when the rule is listed neither
under its field nor under `"*"`. -/
theorem policiesFor_unregister {ruleId e : String} (he : ¬ R.Lists e ruleId)
    (hstar : ¬ R.Lists "*" ruleId) :
    (R.unregister ruleId).policiesFor e = R.policiesFor e := by
  unfold policiesFor
  rw [entries_unregister_of_not_lists he, entries_unregister_of_not_lists hstar]

end RegEngine.Execution.PolicyRegistry

/-!
## The registration a lookup serves

`register` replaces the entry of its rule under the fields it is given and leaves the other fields
alone; `policies_for` reads the field of the entity type first, then `"*"`, and keeps the first
entry of each rule.

* `find?_entries_run`: after any run, a field holds for each rule its latest registration there.
* `policiesFor_run`: what `policies_for` returns after any run. The latest registration under the
  entity type comes before the one under `"*"`, also when the latter is the more recent of the two.
-/

namespace RegEngine.Execution.PolicyRegistry

open Lib Compiler

/-! ### The history of a rule -/

/-- What a call does to the latest registration of a rule under one of the fields. -/
def latestStep (keys : List String) (ruleId : String) (last : Option CompiledRego) :
    RegistryOp → Option CompiledRego
  | .register c entityTypes =>
    if c.ruleId = ruleId ∧ ∃ key ∈ keys, key ∈ scopeOf entityTypes then some c else last
  | .unregister r => if r = ruleId then none else last

/-- The most recent registration of the rule that covered one of the fields, if the rule was not
unregistered since. -/
def latest (keys : List String) (ruleId : String) (ops : List RegistryOp) : Option CompiledRego :=
  ops.foldl (latestStep keys ruleId) none

theorem latest_concat (keys : List String) (ruleId : String) (ops : List RegistryOp)
    (op : RegistryOp) :
    latest keys ruleId (ops ++ [op]) = latestStep keys ruleId (latest keys ruleId ops) op := by
  simp [latest]

theorem run_concat (ops : List RegistryOp) (op : RegistryOp) :
    run (ops ++ [op]) = (run ops).applyOp op := by
  simp [run]

/-- A rule is registered under one of two fields when it is under the first or under the second. -/
theorem isSome_latest_pair (k k' ruleId : String) (ops : List RegistryOp) :
    (latest [k, k'] ruleId ops).isSome ↔
      (latest [k] ruleId ops).isSome ∨ (latest [k'] ruleId ops).isSome := by
  induction ops using List.reverseRecOn with
  | nil => simp [latest]
  | append_singleton ops op ih =>
    rw [latest_concat, latest_concat, latest_concat]
    cases op with
    | register c entityTypes =>
      by_cases hid : c.ruleId = ruleId
      · by_cases hk : k ∈ scopeOf entityTypes <;> by_cases hk' : k' ∈ scopeOf entityTypes <;>
          simp [latestStep, hid, hk, hk', ih]
      · simp [latestStep, hid, ih]
    | unregister r =>
      by_cases hr : r = ruleId <;> simp [latestStep, hr, ih]

/-! ### The entry of a rule -/

theorem find?_filter_ne (ruleId r : String) (es : List PolicyEntry) :
    (es.filter fun e => e.ruleId ≠ r).find? (·.ruleId = ruleId) =
      if r = ruleId then none else es.find? (·.ruleId = ruleId) := by
  rw [List.find?_filter]
  split
  · rename_i h
    subst h
    simp
  · rename_i h
    congr 1
    funext e
    by_cases he : e.ruleId = ruleId
    · simp [he, Ne.symm h]
    · simp [he]

/-- A call and the latest registration under a field. -/
theorem find?_entries_applyOp (R : PolicyRegistry) (key ruleId : String) (op : RegistryOp)
    (last : Option CompiledRego)
    (h : (R.entries key).find? (·.ruleId = ruleId) = last.map entry) :
    ((R.applyOp op).entries key).find? (·.ruleId = ruleId) =
      (latestStep [key] ruleId last op).map entry := by
  cases op with
  | register c entityTypes =>
    show ((R.register c entityTypes).entries key).find? _ = _
    unfold register
    by_cases hk : key ∈ scopeOf entityTypes
    · rw [entries_foldl_registerKey_of_mem hk, List.find?_append, find?_filter_ne, h]
      by_cases hid : c.ruleId = ruleId
      · simp [latestStep, hid, hk, entry]
      · simp [latestStep, hid, entry]
    · rw [entries_foldl_registerKey_of_notMem hk, h]
      simp [latestStep, hk]
  | unregister r =>
    show ((R.unregister r).entries key).find? _ = _
    rw [entries_unregister, find?_filter_ne, h]
    by_cases hr : r = ruleId <;> simp [latestStep, hr]

/-- **A field holds the latest registration of each rule under it**, after any run. -/
theorem find?_entries_run (key ruleId : String) (ops : List RegistryOp) :
    ((run ops).entries key).find? (·.ruleId = ruleId) = (latest [key] ruleId ops).map entry := by
  induction ops using List.reverseRecOn with
  | nil => rfl
  | append_singleton ops op ih =>
    rw [run_concat, latest_concat]
    exact find?_entries_applyOp _ _ _ _ _ ih

/-! ### The first entry of each rule -/

theorem ruleId_notMem_dedupe : ∀ (es : List PolicyEntry) {seen : List String} {r : String},
    r ∈ seen → r ∉ (dedupe seen es).map (·.ruleId)
  | [], _, _, _ => by simp [dedupe]
  | e :: es, seen, r, h => by
    unfold dedupe
    split
    · exact ruleId_notMem_dedupe es h
    · rename_i he
      rw [List.map_cons, List.mem_cons, not_or]
      exact ⟨fun hr => he (hr ▸ h), ruleId_notMem_dedupe es (List.mem_cons_of_mem _ h)⟩

theorem nodup_dedupe : ∀ (es : List PolicyEntry) (seen : List String),
    ((dedupe seen es).map (·.ruleId)).Nodup
  | [], _ => by simp [dedupe]
  | e :: es, seen => by
    unfold dedupe
    split
    · exact nodup_dedupe es seen
    · rw [List.map_cons, List.nodup_cons]
      exact ⟨ruleId_notMem_dedupe es List.mem_cons_self, nodup_dedupe es _⟩

theorem find?_dedupe : ∀ (es : List PolicyEntry) {seen : List String} {r : String}, r ∉ seen →
    (dedupe seen es).find? (·.ruleId = r) = es.find? (·.ruleId = r)
  | [], _, _, _ => rfl
  | e :: es, seen, r, h => by
    unfold dedupe
    by_cases hr : e.ruleId = r
    · rw [if_neg (hr ▸ h)]
      simp [hr]
    · split
      · rw [find?_dedupe es h]
        simp [hr]
      · rw [List.find?_cons_of_neg (by simpa using hr), List.find?_cons_of_neg (by simpa using hr)]
        refine find?_dedupe es ?_
        rw [List.mem_cons, not_or]
        exact ⟨Ne.symm hr, h⟩

/-- The entry that `policies_for` keeps: the one under the entity type, else the one under
`"*"`. -/
theorem find?_policiesFor (R : PolicyRegistry) (e ruleId : String) :
    (R.policiesFor e).find? (·.ruleId = ruleId) =
      ((R.entries e).find? (·.ruleId = ruleId)).or
        ((R.entries "*").find? (·.ruleId = ruleId)) := by
  rw [policiesFor, find?_dedupe _ List.not_mem_nil, List.find?_append]

/-- In a list with one entry of each rule, an entry is the one found for its rule. -/
theorem find?_of_mem : ∀ {es : List PolicyEntry} {p : PolicyEntry},
    (es.map (·.ruleId)).Nodup → p ∈ es → es.find? (·.ruleId = p.ruleId) = some p
  | e :: es, p, hnd, hp => by
    rw [List.map_cons, List.nodup_cons] at hnd
    rcases List.mem_cons.1 hp with rfl | hp
    · simp
    · have hne : e.ruleId ≠ p.ruleId := fun h => hnd.1 (h ▸ List.mem_map_of_mem hp)
      rw [List.find?_cons_of_neg (by simpa using hne)]
      exact find?_of_mem hnd.2 hp

/-- **What `policies_for` returns after any run of the registry**: every rule once, exactly the
rules registered under the entity type or under `"*"`, each with its latest registration under the
entity type, and with its latest one under `"*"` only when it has none there. -/
theorem policiesFor_run (ops : List RegistryOp) (e : String) :
    (((run ops).policiesFor e).map (·.ruleId)).Nodup ∧
    (∀ ruleId, ruleId ∈ ((run ops).policiesFor e).map (·.ruleId) ↔
      (latest [e, "*"] ruleId ops).isSome) ∧
    (∀ p ∈ (run ops).policiesFor e,
      ((latest [e] p.ruleId ops).or (latest ["*"] p.ruleId ops)).map entry = some p) := by
  have hnd : (((run ops).policiesFor e).map (·.ruleId)).Nodup := nodup_dedupe _ _
  have hfind : ∀ ruleId, ((run ops).policiesFor e).find? (·.ruleId = ruleId) =
      ((latest [e] ruleId ops).or (latest ["*"] ruleId ops)).map entry := by
    intro ruleId
    rw [find?_policiesFor, find?_entries_run, find?_entries_run, Option.map_or]
  refine ⟨hnd, fun ruleId => ?_, fun p hp => ?_⟩
  · have hmem : ruleId ∈ ((run ops).policiesFor e).map (·.ruleId) ↔
        (((run ops).policiesFor e).find? (·.ruleId = ruleId)).isSome := by
      simp [List.find?_isSome]
    rw [hmem, hfind, Option.isSome_map, Option.isSome_or, Bool.or_eq_true, isSome_latest_pair]
  · rw [← hfind, find?_of_mem hnd hp]

/-- Version 2 of a rule, registered under `"*"` after version 1 was registered under its entity
type, is not what the entity type is served. -/
theorem policiesFor_run_older :
    let v1 : CompiledRego := ⟨"r", "regengine.sebi.v1", "", 1, 1, none, none⟩
    let v2 : CompiledRego := ⟨"r", "regengine.sebi.v2", "", 1, 2, none, none⟩
    let ops : List RegistryOp := [.register v1 ["Stockbroker"], .register v2 ["*"]]
    (latest ["Stockbroker", "*"] "r" ops).map entry = some (entry v2) ∧
    (run ops).policiesFor "Stockbroker" = [entry v1] ∧ entry v1 ≠ entry v2 := by
  decide

end RegEngine.Execution.PolicyRegistry

/-!
## Concurrent registrations

`PolicyRegistry.register` as a caller of `Lib.ReadModifyWrite`: for each field of its scope one
`hget`, then one `hset` of the list computed from what the `hget` returned. Redis runs each command
atomically and nothing holds the two together.

* `register_alone`: a call that nobody interrupts is `register`.
* `registrations_kept`: no registration is lost when each `hset` finds under its field no rule that
  its call had not read.
* `registration_lost`: two calls under one entity type, the second `hset` drops the first rule.
-/

namespace RegEngine.Execution

open Lib Compiler Lib.ReadModifyWrite

variable {ι : Type} [DecidableEq ι]

/-- A concurrent call of `register`. -/
structure RegisterCall where
  compiled : CompiledRego
  entityTypes : List String

/-- The value that the call's `hset` stores, from the one its `hget` returned. -/
def RegisterCall.modify (call : RegisterCall) (existing : Option (List PolicyEntry)) :
    Option (List PolicyEntry) :=
  some (((existing.getD []).filter fun e => e.ruleId ≠ call.compiled.ruleId) ++
    [entry call.compiled])

/-- The value of a field lists the rule. -/
def ListsRule (value : Option (List PolicyEntry)) (ruleId : String) : Prop :=
  ∃ e ∈ value.getD [], e.ruleId = ruleId

/-- Every rule that the field lists now was in the value the call read, or is the call's own. -/
def RegisterCall.Fresh (call : RegisterCall) (now existing : Option (List PolicyEntry)) : Prop :=
  ∀ r, ListsRule now r → ListsRule existing r ∨ r = call.compiled.ruleId

/-- The interleavings of the commands of these calls whose `hset`s all meet `Ok`. -/
def Registering (calls : ι → RegisterCall) (R : PolicyRegistry)
    (Ok : ι → Option (List PolicyEntry) → Option (List PolicyEntry) → Prop)
    (s : State ι String (Option (List PolicyEntry))) : Prop :=
  Reachable (fun i => (calls i).modify) Ok R.hash (fun i => scopeOf (calls i).entityTypes) s

theorem listsRule_modify (call : RegisterCall) (existing : Option (List PolicyEntry)) (r : String) :
    ListsRule (call.modify existing) r ↔
      ListsRule existing r ∨ r = call.compiled.ruleId := by
  by_cases hr : r = call.compiled.ruleId
  · simp [ListsRule, RegisterCall.modify, entry, hr]
  · have hne : call.compiled.ruleId ≠ r := Ne.symm hr
    simp only [ListsRule, RegisterCall.modify, Option.getD_some, List.mem_append, List.mem_filter,
      List.mem_singleton, hr, or_false]
    constructor
    · rintro ⟨e, ⟨he, -⟩ | rfl, hid⟩
      · exact ⟨e, he, hid⟩
      · exact absurd hid hne
    · rintro ⟨e, he, hid⟩
      exact ⟨e, .inl ⟨he, by simp [hid, hr]⟩, hid⟩

/-- What a field or `"*"` lists, a lookup returns. -/
theorem mem_policiesFor_of_lists {R : PolicyRegistry} {e r : String}
    (h : ListsRule (R.hash e) r ∨ ListsRule (R.hash "*") r) :
    r ∈ (R.policiesFor e).map (·.ruleId) := by
  have hsome : ((R.policiesFor e).find? (·.ruleId = r)).isSome := by
    rw [PolicyRegistry.find?_policiesFor, Option.isSome_or, Bool.or_eq_true, List.find?_isSome,
      List.find?_isSome]
    simpa [ListsRule, PolicyRegistry.entries] using h
  obtain ⟨p, hp, hid⟩ := List.find?_isSome.1 hsome
  exact List.mem_map.2 ⟨p, hp, by simpa using hid⟩

/-! ### One call -/

theorem hash_foldl_registerKey (call : RegisterCall) : ∀ (keys : List String) (R : PolicyRegistry),
    (keys.foldl (PolicyRegistry.registerKey call.compiled) R).hash =
      keys.foldl (fun hash key => Function.update hash key (call.modify (hash key))) R.hash
  | [], _ => rfl
  | key :: keys, R => by
    rw [List.foldl_cons, List.foldl_cons, hash_foldl_registerKey call keys]
    congr 1
    funext k
    simp [PolicyRegistry.registerKey, PolicyRegistry.hset, PolicyRegistry.entries,
      RegisterCall.modify, Function.update_apply]

/-- **A call that runs alone is `register`.** -/
theorem register_alone (calls : ι → RegisterCall) (R : PolicyRegistry) (i : ι) :
    ∃ s, Registering calls R (fun i => (calls i).Fresh) s ∧ (s.phase i).pending = [] ∧
      s.cell = (R.register (calls i).compiled (calls i).entityTypes).hash := by
  refine ⟨_, alone_reachable _ i (fun _ _ hr => .inl hr) (scopeOf (calls i).entityTypes) _ rfl,
    ?_, ?_⟩
  · simp [Phase.pending]
  · rw [PolicyRegistry.register, hash_foldl_registerKey]
    rfl

/-! ### Any number of calls -/

/-- **No registration is lost** in an interleaving where every `hset` finds under its field only
rules that its call had read there, or its own: when all calls have finished, each rule is returned
for each entity type it was registered under, and for every one when it was registered under
`"*"`. -/
theorem registrations_kept (calls : ι → RegisterCall) (R : PolicyRegistry)
    (s : State ι String (Option (List PolicyEntry)))
    (h : Registering calls R (fun i => (calls i).Fresh) s) (hfin : s.finished) (i : ι) (e : String)
    (he : e ∈ scopeOf (calls i).entityTypes ∨ "*" ∈ scopeOf (calls i).entityTypes) :
    (calls i).compiled.ruleId ∈
      ((PolicyRegistry.mk s.cell).policiesFor e).map (·.ruleId) := by
  have hown : ∀ j b, ListsRule ((calls j).modify b) (calls j).compiled.ruleId :=
    fun _ _ => (listsRule_modify _ _ _).2 (.inr rfl)
  have hkeep : ∀ j now read, (calls j).Fresh now read → ∀ j',
      ListsRule now (calls j').compiled.ruleId →
      ListsRule ((calls j).modify read) (calls j').compiled.ruleId :=
    fun _ _ _ hfresh _ hlists => (listsRule_modify _ _ _).2 (hfresh _ hlists)
  have hmark : ∀ key ∈ scopeOf (calls i).entityTypes,
      ListsRule (s.cell key) (calls i).compiled.ruleId :=
    fun _ hkey => mark_of_finished hown hkeep h hfin hkey
  exact mem_policiesFor_of_lists (he.imp (hmark e) (hmark "*"))

/-- Two calls that register their rule for stockbrokers. -/
def twoCalls (b : Bool) : RegisterCall :=
  ⟨⟨if b then "r1" else "r2", "regengine.sebi", "", 1, 1, none, none⟩, ["Stockbroker"]⟩

/-- The second call reads what the first has stored. -/
theorem registrations_kept_two :
    ∃ s, Registering twoCalls .empty (fun i => (twoCalls i).Fresh) s ∧ s.finished ∧
      "r1" ∈ ((PolicyRegistry.mk s.cell).policiesFor "Stockbroker").map (·.ruleId) := by
  obtain ⟨s, hrun, hfin⟩ :
      ∃ s, Registering twoCalls .empty (fun i => (twoCalls i).Fresh) s ∧ s.finished :=
    ⟨_, (((Relation.ReflTransGen.refl.tail (.read true rfl)).tail
      (.write true rfl fun _ hr => .inl hr)).tail (.read false rfl)).tail
      (.write false rfl fun _ hr => .inl hr), fun i => by cases i <;> rfl⟩
  exact ⟨s, hrun, hfin, registrations_kept twoCalls .empty s hrun hfin true "Stockbroker" (by decide)⟩

/-- **Both calls read before either stores**: the second `hset` puts back a list without the first
rule. -/
theorem registration_lost :
    ∃ s, Registering twoCalls .empty (fun _ _ _ => True) s ∧ s.finished ∧
      (twoCalls true).compiled.ruleId ≠ (twoCalls false).compiled.ruleId ∧
      "Stockbroker" ∈ scopeOf (twoCalls true).entityTypes ∧
      (twoCalls true).compiled.ruleId ∉
        ((PolicyRegistry.mk s.cell).policiesFor "Stockbroker").map (·.ruleId) := by
  refine ⟨_, (((Relation.ReflTransGen.refl.tail (.read true rfl)).tail (.read false rfl)).tail
    (.write true rfl trivial)).tail (.write false rfl trivial), ?_, by decide, by decide, ?_⟩
  · intro i
    cases i <;> rfl
  · decide

end RegEngine.Execution
