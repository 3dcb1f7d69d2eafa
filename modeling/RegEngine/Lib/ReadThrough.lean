import Mathlib.Tactic.Common
import Mathlib.Logic.Function.Basic
import Mathlib.Logic.Relation

/-!
# A read-through cache in front of a source

A cache keeps the values a source gave for some keys and when it gave them. A lookup answers from a
fresh enough entry, else asks the source and keeps its answer; a change of the source evicts some
keys.

* `lookup_value`: a lookup in a coherent cache answers what the source says, whatever the time to
  live is.
* `coherent_evict_iff`: a change of the source keeps a coherent cache coherent exactly when every
  cached key that is not evicted keeps its value.
-/

namespace Lib

structure ReadCache.Entry (V T : Type) where
  value : V
  cachedAt : T

structure ReadCache (K V T : Type) where
  entries : K → Option (ReadCache.Entry V T)
  hits : Nat := 0
  misses : Nat := 0

namespace ReadCache

variable {K V T : Type} [DecidableEq K]

def empty : ReadCache K V T := { entries := fun _ => none }

/-- Drop the entries of some keys. -/
def evict (c : ReadCache K V T) (keys : List K) : ReadCache K V T :=
  { c with entries := fun k => if k ∈ keys then none else c.entries k }

/-- The entry of a key, when it is younger than the time to live. -/
def fresh? [Sub T] [LT T] [DecidableLT T] (c : ReadCache K V T) (ttl now : T) (k : K) :
    Option (Entry V T) :=
  (c.entries k).filter fun e => now - e.cachedAt < ttl

/-- Answer from the cache or through it. -/
def lookup [Sub T] [LT T] [DecidableLT T] (source : K → V) (c : ReadCache K V T) (ttl now : T)
    (k : K) : V × ReadCache K V T :=
  match c.fresh? ttl now k with
  | some e => (e.value, { c with hits := c.hits + 1 })
  | none =>
    (source k,
      { entries := fun i => if i = k then some ⟨source k, now⟩ else c.entries i
        hits := c.hits
        misses := c.misses + 1 })

/-- Keep a value that the source gave at this time. -/
def store (c : ReadCache K V T) (k : K) (v : V) (now : T) : ReadCache K V T :=
  { c with entries := fun i => if i = k then some ⟨v, now⟩ else c.entries i }

/-- Every entry holds what the source says now. -/
def Coherent (source : K → V) (c : ReadCache K V T) : Prop :=
  ∀ k e, c.entries k = some e → e.value = source k

variable {source source' : K → V} {c : ReadCache K V T}

@[simp] theorem evict_nil (c : ReadCache K V T) : c.evict [] = c := by simp [evict]

omit [DecidableEq K] in
theorem coherent_empty : Coherent source (empty : ReadCache K V T) := by
  intro k e h
  simp [empty] at h

/-- **A change of the source with an eviction.** -/
theorem coherent_evict_iff (h : Coherent source c) (keys : List K) :
    Coherent source' (c.evict keys) ↔
      ∀ k, (c.entries k).isSome = true → k ∉ keys → source' k = source k := by
  constructor
  · intro h' k hk hkeys
    obtain ⟨e, he⟩ := Option.isSome_iff_exists.1 hk
    rw [← h k e he, ← h' k e (by simp [evict, hkeys, he])]
  · intro hsame k e he
    by_cases hk : k ∈ keys
    · simp [evict, hk] at he
    · have he : c.entries k = some e := by simpa [evict, hk] using he
      rw [h k e he, hsame k (by simp [he]) hk]

section
variable [Sub T] [LT T] [DecidableLT T] {ttl now : T} {k : K}

omit [DecidableEq K] in
theorem entries_of_fresh {e : Entry V T} (h : c.fresh? ttl now k = some e) :
    c.entries k = some e :=
  (Option.filter_eq_some_iff.1 h).1

theorem fresh?_store {v : V} {cachedAt : T} (h : now - cachedAt < ttl) :
    (c.store k v cachedAt).fresh? ttl now k = some ⟨v, cachedAt⟩ := by
  simp [fresh?, store, h]

/-- **A coherent cache answers as its source.** -/
theorem lookup_value (h : Coherent source c) : (c.lookup source ttl now k).1 = source k := by
  unfold lookup
  split
  · rename_i e he
    exact h k e (entries_of_fresh he)
  · rfl

theorem coherent_lookup (h : Coherent source c) :
    Coherent source (c.lookup source ttl now k).2 := by
  unfold lookup
  split
  · exact h
  · intro i e he
    by_cases hi : i = k
    · subst hi
      simp only [if_true, Option.some.injEq] at he
      rw [← he]
    · exact h i e (by simpa [hi] using he)

end

end ReadCache

end Lib

/-!
## Lookups that are suspended while they read

Any number of lookups share a cache in front of a source. A lookup that finds no fresh entry reads
fields of the source one after another and stores the answer it makes of them. The source may be
written and the cache invalidated in between, so a lookup can store an answer older than the write
an invalidation was made for.

The source keeps its versions, so that every reading can be dated; `floor` is the newest version an
invalidation of a key was made for.

* `Step`: one command. `Ok` is what is asked of a store: a relation between the floor of its key and
  what the lookup has read; `Reachable` are the states of the interleavings whose stores all meet it.
* `inv_step`, `answers_fresh`: when no lookup stores readings older than the floor, every lookup
  answers with readings at least as new as the floor it started at.
* `answered_after_invalidation`: so a lookup that starts after an invalidation answers with readings
  at least as new as the version the invalidation was made for.
* `alone_reachable`: a lookup that nobody interrupts is `ReadCache.lookup`.
-/

namespace Lib.ReadThrough

variable {ι K F V R T : Type}

/-- The fields a lookup reads, and the answer it makes of their values. -/
structure Query (K F V R : Type) where
  fields : K → List F
  answer : K → List V → R

/-- The answer of a source that does not change. -/
def Query.eval (Q : Query K F V R) (source : F → V) (key : K) : R :=
  Q.answer key ((Q.fields key).map source)

/-- A field of the source at one of its versions. -/
structure Reading (F V : Type) where
  field : F
  version : Nat
  value : V

/-- Where a lookup is; `floor` is that of its key when it started. -/
inductive Phase (K F V R T : Type) where
  | idle
  | reading (key : K) (now : T) (floor : Nat) (read : List (Reading F V)) (left : List F)
  | answered (key : K) (floor : Nat) (answer : R)

/-- A lookup of this key started at this floor or above it. -/
def Phase.From (w : Nat) (key : K) : Phase K F V R T → Prop
  | idle => True
  | reading k _ floor _ _ => k = key → w ≤ floor
  | answered k floor _ => k = key → w ≤ floor

structure State (ι K F V R T : Type) where
  versions : Nat → F → V
  version : Nat
  cache : ReadCache K R T
  floor : K → Nat
  phase : ι → Phase K F V R T

namespace State

/-- Nobody has begun. -/
def initial (source : F → V) : State ι K F V R T :=
  { versions := fun _ => source
    version := 0
    cache := .empty
    floor := fun _ => 0
    phase := fun _ => .idle }

def source (s : State ι K F V R T) : F → V := s.versions s.version

/-- A new version of the source. -/
def written (s : State ι K F V R T) (contents : F → V) : State ι K F V R T :=
  { s with
    versions := Function.update s.versions (s.version + 1) contents
    version := s.version + 1 }

/-- The cache without some keys, for the sake of a version of the source. -/
def invalidated [DecidableEq K] (s : State ι K F V R T) (keys : List K) (w : Nat) :
    State ι K F V R T :=
  { s with
    cache := s.cache.evict keys
    floor := fun k => if k ∈ keys then max (s.floor k) w else s.floor k }

/-- The source had this value in this field at this version. -/
def Read (s : State ι K F V R T) (r : Reading F V) : Prop :=
  r.version ≤ s.version ∧ s.versions r.version r.field = r.value

/-- An answer made of readings of this version or newer ones. -/
def AsNewAs (s : State ι K F V R T) (Q : Query K F V R) (floor : Nat) (key : K) (a : R) : Prop :=
  ∃ read : List (Reading F V), read.map (·.field) = Q.fields key ∧
    (∀ r ∈ read, floor ≤ r.version ∧ s.Read r) ∧ a = Q.answer key (read.map (·.value))

/-- **The answers are fresh**: none is older than what its lookup was to see. -/
def Fresh (s : State ι K F V R T) (Q : Query K F V R) : Prop :=
  ∀ i key floor a, s.phase i = .answered key floor a → s.AsNewAs Q floor key a

end State

/-- No reading is older than the floor. -/
def Current (floor : Nat) (read : List (Reading F V)) : Prop := ∀ r ∈ read, floor ≤ r.version

variable [DecidableEq ι] [DecidableEq K] [Sub T] [LT T] [DecidableLT T]

/-- One command of a writer, of an invalidation or of a lookup. -/
inductive Step (Q : Query K F V R) (ttl : T) (Ok : Nat → List (Reading F V) → Prop) :
    State ι K F V R T → State ι K F V R T → Prop where
  | write {s : State ι K F V R T} (contents : F → V) :
      Step Q ttl Ok s (s.written contents)
  | invalidate {s : State ι K F V R T} (keys : List K) {w : Nat} : w ≤ s.version →
      Step Q ttl Ok s (s.invalidated keys w)
  | hit {s : State ι K F V R T} (i : ι) (key : K) (now : T) {e : ReadCache.Entry R T} :
      s.phase i = .idle → s.cache.fresh? ttl now key = some e →
      Step Q ttl Ok s
        { s with
          cache := { s.cache with hits := s.cache.hits + 1 }
          phase := Function.update s.phase i (.answered key (s.floor key) e.value) }
  | miss {s : State ι K F V R T} (i : ι) (key : K) (now : T) :
      s.phase i = .idle → s.cache.fresh? ttl now key = none →
      Step Q ttl Ok s
        { s with
          cache := { s.cache with misses := s.cache.misses + 1 }
          phase := Function.update s.phase i
            (.reading key now (s.floor key) [] (Q.fields key)) }
  | read {s : State ι K F V R T} (i : ι) {key : K} {now : T} {floor : Nat}
      {read : List (Reading F V)} {f : F} {left : List F} :
      s.phase i = .reading key now floor read (f :: left) →
      Step Q ttl Ok s
        { s with
          phase := Function.update s.phase i
            (.reading key now floor (read ++ [⟨f, s.version, s.source f⟩]) left) }
  | store {s : State ι K F V R T} (i : ι) {key : K} {now : T} {floor : Nat}
      {read : List (Reading F V)} :
      s.phase i = .reading key now floor read [] → Ok (s.floor key) read →
      Step Q ttl Ok s
        { s with
          cache := s.cache.store key (Q.answer key (read.map (·.value))) now
          phase := Function.update s.phase i
            (.answered key floor (Q.answer key (read.map (·.value)))) }

/-- The states of the interleavings whose stores all meet `Ok`. -/
def Reachable (Q : Query K F V R) (ttl : T) (Ok : Nat → List (Reading F V) → Prop)
    (source : F → V) (s : State ι K F V R T) : Prop :=
  Relation.ReflTransGen (Step Q ttl Ok) (State.initial source) s

/-! ### The invariant -/

/-- What is known of a lookup: its readings are of the fields it has asked for, and no older than
the floor it started at. -/
def PhaseOk (Q : Query K F V R) (s : State ι K F V R T) : Phase K F V R T → Prop
  | .idle => True
  | .reading key _ floor read left =>
    read.map (·.field) ++ left = Q.fields key ∧ floor ≤ s.version ∧
      ∀ r ∈ read, floor ≤ r.version ∧ s.Read r
  | .answered key floor a => s.AsNewAs Q floor key a

structure Inv (Q : Query K F V R) (s : State ι K F V R T) : Prop where
  floor : ∀ k, s.floor k ≤ s.version
  cached : ∀ k e, s.cache.entries k = some e → s.AsNewAs Q (s.floor k) k e.value
  phase : ∀ i, PhaseOk Q s (s.phase i)

section
variable {Q : Query K F V R} {ttl : T} {Ok : Nat → List (Reading F V) → Prop}
  {s s' : State ι K F V R T}

omit [DecidableEq ι] [DecidableEq K] [Sub T] [LT T] [DecidableLT T]

theorem inv_initial (source : F → V) : Inv Q (State.initial source : State ι K F V R T) where
  floor _ := Nat.le_refl 0
  cached k e h := by simp [State.initial, ReadCache.empty] at h
  phase _ := trivial

theorem Inv.fresh (h : Inv Q s) : s.Fresh Q := by
  intro i key floor a hi
  have hphase := h.phase i
  rw [hi] at hphase
  exact hphase

theorem asNewAs_mono {w w' : Nat} {k : K} {a : R} (ha : s.AsNewAs Q w k a) (h : w' ≤ w) :
    s.AsNewAs Q w' k a := by
  obtain ⟨read, hfields, hread, heq⟩ := ha
  exact ⟨read, hfields, fun r hr => ⟨Nat.le_trans h (hread r hr).1, (hread r hr).2⟩, heq⟩

/-- An answer as new as the present version is the present answer. -/
theorem eval_of_asNewAs {k : K} {a : R} (ha : s.AsNewAs Q s.version k a) :
    a = Q.eval s.source k := by
  obtain ⟨read, hfields, hread, heq⟩ := ha
  have hvalues : read.map (·.value) = read.map fun r => s.source r.field := by
    refine List.map_congr_left fun r hr => ?_
    obtain ⟨hle, hversion, hvalue⟩ := hread r hr
    rw [← hvalue, State.source, Nat.le_antisymm hle hversion]
  rw [heq, hvalues, Query.eval, ← hfields, List.map_map]
  rfl

/-- The source of `s'` has every version the source of `s` has. -/
def Extends (s s' : State ι K F V R T) : Prop :=
  s.version ≤ s'.version ∧ ∀ n, n ≤ s.version → s'.versions n = s.versions n

theorem Extends.of_eq (hversion : s'.version = s.version) (hversions : s'.versions = s.versions) :
    Extends s s' :=
  ⟨by omega, fun n _ => by rw [hversions]⟩

theorem Extends.read (h : Extends s s') {r : Reading F V} (hr : s.Read r) : s'.Read r :=
  ⟨Nat.le_trans hr.1 h.1, by rw [h.2 _ hr.1]; exact hr.2⟩

theorem Extends.asNewAs (h : Extends s s') {w : Nat} {k : K} {a : R} (ha : s.AsNewAs Q w k a) :
    s'.AsNewAs Q w k a := by
  obtain ⟨read, hfields, hread, heq⟩ := ha
  exact ⟨read, hfields, fun r hr => ⟨(hread r hr).1, h.read (hread r hr).2⟩, heq⟩

theorem Extends.phaseOk (h : Extends s s') {p : Phase K F V R T} (hp : PhaseOk Q s p) :
    PhaseOk Q s' p := by
  cases p with
  | idle => trivial
  | reading key now floor read left =>
    obtain ⟨hfields, hfloor, hread⟩ := hp
    exact ⟨hfields, Nat.le_trans hfloor h.1, fun r hr => ⟨(hread r hr).1, h.read (hread r hr).2⟩⟩
  | answered key floor a => exact h.asNewAs hp

variable [DecidableEq ι] [DecidableEq K] [Sub T] [LT T] [DecidableLT T]

/-- A step adds versions to the source and changes none that is there. -/
theorem extends_step (h : Step Q ttl Ok s s') : Extends s s' := by
  cases h with
  | write contents =>
    refine ⟨Nat.le_succ _, fun n hn => ?_⟩
    show Function.update s.versions (s.version + 1) contents n = s.versions n
    rw [Function.update_of_ne (by omega)]
  | _ => exact .of_eq rfl rfl

omit [DecidableEq K] [Sub T] [LT T] [DecidableLT T] in
/-- The phases after one lookup has moved. -/
theorem phases_update (h : Extends s s') (hinv : Inv Q s) {i : ι} {p : Phase K F V R T}
    (hphase : s'.phase = Function.update s.phase i p) (hp : PhaseOk Q s p) (j : ι) :
    PhaseOk Q s' (s'.phase j) := by
  rw [hphase]
  by_cases hj : j = i
  · subst hj
    rw [Function.update_self]
    exact h.phaseOk hp
  · rw [Function.update_of_ne hj]
    exact h.phaseOk (hinv.phase j)

/-- **One command keeps the invariant**: a store because its readings are no older than the floor,
an invalidation because it evicts what the new floor might outdate. -/
theorem inv_step (h : Step Q ttl Current s s') (hinv : Inv Q s) : Inv Q s' := by
  have hext := extends_step h
  cases h with
  | write contents =>
    exact
      { floor := fun k => Nat.le_succ_of_le (hinv.floor k)
        cached := fun k e he => hext.asNewAs (hinv.cached k e he)
        phase := fun j => hext.phaseOk (hinv.phase j) }
  | @invalidate keys w hw =>
    refine ⟨fun k => ?_, fun k e he => ?_, fun j => hext.phaseOk (hinv.phase j)⟩
    · show (if k ∈ keys then max (s.floor k) w else s.floor k) ≤ s.version
      split
      · exact Nat.max_le.2 ⟨hinv.floor k, hw⟩
      · exact hinv.floor k
    · by_cases hk : k ∈ keys
      · simp [State.invalidated, ReadCache.evict, hk] at he
      · have he : s.cache.entries k = some e := by
          simpa [State.invalidated, ReadCache.evict, hk] using he
        show State.AsNewAs _ Q (if k ∈ keys then max (s.floor k) w else s.floor k) k e.value
        rw [if_neg hk]
        exact hext.asNewAs (hinv.cached k e he)
  | @hit i key now e hi he =>
    refine ⟨hinv.floor, fun k e' he' => hext.asNewAs (hinv.cached k e' he'), ?_⟩
    exact phases_update hext hinv rfl (hinv.cached key e (ReadCache.entries_of_fresh he))
  | miss i key now hi he =>
    refine ⟨hinv.floor, fun k e' he' => hext.asNewAs (hinv.cached k e' he'), ?_⟩
    refine phases_update hext hinv rfl ⟨rfl, hinv.floor key, fun r hr => ?_⟩
    cases hr
  | @read i key now floor read f left hi =>
    refine ⟨hinv.floor, fun k e' he' => hext.asNewAs (hinv.cached k e' he'), ?_⟩
    have hphase := hinv.phase i
    rw [hi] at hphase
    obtain ⟨hfields, hfloor, hread⟩ := hphase
    refine phases_update hext hinv rfl ⟨by simpa using hfields, hfloor, fun r hr => ?_⟩
    rcases List.mem_append.1 hr with hr | hr
    · exact hread r hr
    · -- what is read now is the newest version
      obtain rfl := List.mem_singleton.1 hr
      exact ⟨hfloor, Nat.le_refl _, rfl⟩
  | @store i key now floor read hi hok =>
    have hphase := hinv.phase i
    rw [hi] at hphase
    obtain ⟨hfields, hfloor, hread⟩ := hphase
    rw [List.append_nil] at hfields
    refine ⟨hinv.floor, fun k e he => hext.asNewAs ?_, ?_⟩
    · by_cases hk : k = key
      · subst hk
        simp only [ReadCache.store, if_true, Option.some.injEq] at he
        rw [← he]
        exact ⟨read, hfields, fun r hr => ⟨hok r hr, (hread r hr).2⟩, rfl⟩
      · exact hinv.cached k e (by simpa [ReadCache.store, hk] using he)
    · exact phases_update hext hinv rfl ⟨read, hfields, hread, rfl⟩

/-- **Every answer is as new as its lookup was to see**, when no store is older than the floor. -/
theorem answers_fresh {source : F → V} (h : Reachable Q ttl Current source s) : s.Fresh Q := by
  have hinv : Inv Q s := by
    induction h with
    | refl => exact inv_initial source
    | tail _ hstep ih => exact inv_step hstep ih
  exact hinv.fresh

/-! ### After an invalidation -/

/-- The floor of a key has come to `w`, and the lookup has not begun or began after that. -/
structure Since (w : Nat) (key : K) (i : ι) (s : State ι K F V R T) : Prop where
  floor : w ≤ s.floor key
  phase : (s.phase i).From w key

omit [DecidableEq ι] [Sub T] [LT T] [DecidableLT T] in
theorem since_invalidated {keys : List K} {w : Nat} {key : K} {i : ι} (hkey : key ∈ keys)
    (hi : s.phase i = .idle) : Since w key i (s.invalidated keys w) where
  floor := by
    show w ≤ if key ∈ keys then max (s.floor key) w else s.floor key
    rw [if_pos hkey]
    exact Nat.le_max_right _ _
  phase := by
    show (s.phase i).From w key
    rw [hi]
    trivial

theorem floor_step (h : Step Q ttl Ok s s') (k : K) : s.floor k ≤ s'.floor k := by
  cases h with
  | @invalidate keys w hw =>
    show s.floor k ≤ if k ∈ keys then max (s.floor k) w else s.floor k
    split
    · exact Nat.le_max_left _ _
    · exact Nat.le_refl _
  | _ => exact Nat.le_refl _

omit [DecidableEq K] [Sub T] [LT T] [DecidableLT T] in
theorem from_update {w : Nat} {key : K} {i j : ι} {p : Phase K F V R T}
    (hs : (s.phase i).From w key) (hp : i = j → p.From w key) :
    (Function.update s.phase j p i).From w key := by
  by_cases hij : i = j
  · subst hij
    rw [Function.update_self]
    exact hp rfl
  · rw [Function.update_of_ne hij]
    exact hs

theorem since_step {w : Nat} {key : K} {i : ι} (h : Step Q ttl Ok s s') (hs : Since w key i s) :
    Since w key i s' := by
  refine ⟨Nat.le_trans hs.floor (floor_step h key), ?_⟩
  cases h with
  | write contents => exact hs.phase
  | invalidate keys hw => exact hs.phase
  | hit j k now hj he => exact from_update hs.phase fun _ hk => by rw [hk]; exact hs.floor
  | miss j k now hj he => exact from_update hs.phase fun _ hk => by rw [hk]; exact hs.floor
  | read j hj =>
    -- the lookup keeps the floor it started at
    refine from_update hs.phase fun hij => ?_
    have hfrom := hs.phase
    rw [hij, hj] at hfrom
    exact hfrom
  | store j hj hok =>
    refine from_update hs.phase fun hij => ?_
    have hfrom := hs.phase
    rw [hij, hj] at hfrom
    exact hfrom

/-- A lookup that starts after an invalidation answers with readings as new as the version the
invalidation was made for, along every run that keeps its answers fresh. -/
theorem answered_after_invalidation {keys : List K} {w : Nat} {key : K} {i : ι} {floor : Nat}
    {a : R} (hkey : key ∈ keys) (hi : s.phase i = .idle)
    (hrun : Relation.ReflTransGen (Step Q ttl Ok) (s.invalidated keys w) s') (hfresh : s'.Fresh Q)
    (hans : s'.phase i = .answered key floor a) : s'.AsNewAs Q w key a := by
  have hsince : Since w key i s' := by
    clear hfresh hans
    induction hrun with
    | refl => exact since_invalidated hkey hi
    | tail _ hstep ih => exact since_step hstep ih
  have hfrom := hsince.phase
  rw [hans] at hfrom
  exact asNewAs_mono (hfresh i key floor a hans) (hfrom rfl)

end

/-! ### A lookup that runs alone -/

section
variable {Q : Query K F V R} {ttl : T} {Ok : Nat → List (Reading F V) → Prop}

/-- The readings of some fields at the present version. -/
def State.readings (s : State ι K F V R T) (fields : List F) : List (Reading F V) :=
  fields.map fun f => ⟨f, s.version, s.source f⟩

theorem reads_reachable (i : ι) {key : K} {now : T} {floor : Nat} :
    ∀ (left : List F) (read : List (Reading F V)) (s : State ι K F V R T),
      s.phase i = .reading key now floor read left →
      Relation.ReflTransGen (Step Q ttl Ok) s
        { s with
          phase := Function.update s.phase i
            (.reading key now floor (read ++ s.readings left) []) }
  | [], read, s, hi => by
    have hs : Function.update s.phase i (.reading key now floor (read ++ s.readings []) []) =
        s.phase := by
      rw [State.readings, List.map_nil, List.append_nil, ← hi, Function.update_eq_self]
    rw [hs]
  | f :: left, read, s, hi => by
    let s₁ : State ι K F V R T :=
      { s with
        phase := Function.update s.phase i
          (.reading key now floor (read ++ [⟨f, s.version, s.source f⟩]) left) }
    have hread : Step Q ttl Ok s s₁ := .read i hi
    have hrest := reads_reachable i left (read ++ [⟨f, s.version, s.source f⟩]) s₁
      (Function.update_self ..)
    refine (Relation.ReflTransGen.single hread).trans ?_
    simpa [s₁, State.readings, State.source] using hrest

/-- **A lookup that nobody interrupts** answers and leaves the cache as `ReadCache.lookup` does. -/
theorem alone_reachable (i : ι) (key : K) (now : T) (s : State ι K F V R T)
    (hi : s.phase i = .idle) (hok : Ok (s.floor key) (s.readings (Q.fields key))) :
    Relation.ReflTransGen (Step Q ttl Ok) s
      { s with
        cache := (s.cache.lookup (Q.eval s.source) ttl now key).2
        phase := Function.update s.phase i
          (.answered key (s.floor key) (s.cache.lookup (Q.eval s.source) ttl now key).1) } := by
  cases he : s.cache.fresh? ttl now key with
  | some e =>
    have hlookup : s.cache.lookup (Q.eval s.source) ttl now key =
        (e.value, { s.cache with hits := s.cache.hits + 1 }) := by
      rw [ReadCache.lookup, he]
    rw [hlookup]
    exact .single (.hit i key now hi he)
  | none =>
    let s₁ : State ι K F V R T :=
      { s with
        cache := { s.cache with misses := s.cache.misses + 1 }
        phase := Function.update s.phase i (.reading key now (s.floor key) [] (Q.fields key)) }
    have hmiss : Step Q ttl Ok s s₁ := .miss i key now hi he
    let s₂ : State ι K F V R T :=
      { s₁ with
        phase := Function.update s₁.phase i
          (.reading key now (s.floor key) (s.readings (Q.fields key)) []) }
    have hreads : Relation.ReflTransGen (Step Q ttl Ok) s₁ s₂ :=
      reads_reachable i (Q.fields key) [] s₁ (Function.update_self ..)
    have hstore : Step Q ttl Ok s₂ _ := .store i (Function.update_self ..) hok
    have hvalues : (s.readings (Q.fields key)).map (·.value) = (Q.fields key).map s.source := by
      simp [State.readings]
    have hlookup : s.cache.lookup (Q.eval s.source) ttl now key =
        (Q.eval s.source key, s₁.cache.store key (Q.eval s.source key) now) := by
      rw [ReadCache.lookup, he]
      rfl
    rw [hlookup, Query.eval, ← hvalues]
    refine ((Relation.ReflTransGen.single hmiss).trans hreads).tail ?_
    simpa [s₁, s₂] using hstore

end

end Lib.ReadThrough
