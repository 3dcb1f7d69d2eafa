import Mathlib.Data.List.Basic
import Mathlib.Logic.Function.Basic
import Mathlib.Logic.Relation

/-!
# Read, compute, insert, commit under one lock

Any number of writers, each of which takes a lock, reads the shared table, computes from what it read
(and from an input of its environment) a record to insert, inserts it and commits; it may abort at
any moment before. The lock is a mutex, released at commit and at abort, and a record is seen by
others from the commit on.

* `Step`: one action of one writer; `Reachable`: the states of all interleavings.
* `Serial`: the table is the one that the committed writers leave when they run one after another.
* `Inv`: the invariant; `inv_step` keeps it, `serial_of_reachable` is the result over whole runs.
-/

namespace Lib.LockProtocol

variable {ι σ β τ ρ : Type}

/-- What the writers do: `read` the table, `compute` a record, `insert` it. -/
structure Protocol (ι σ β τ ρ : Type) where
  read : σ → β
  compute : ι → τ → β → ρ
  insert : ρ → σ → σ

/-- Where a writer is. -/
inductive Phase (β ρ : Type) where
  | idle
  | locked
  | read (b : β)
  | inserted (r : ρ)
  | committed
  | aborted

/-- Between taking the lock and the end of the transaction. -/
def Phase.active : Phase β ρ → Prop
  | locked | read _ | inserted _ => True
  | idle | committed | aborted => False

/-- The committed table, the holder of the lock, and each writer's phase. -/
structure State (ι σ β ρ : Type) where
  table : σ
  lock : Option ι
  phase : ι → Phase β ρ

/-- No writer has begun. -/
def State.initial (t : σ) : State ι σ β ρ := ⟨t, none, fun _ => .idle⟩

section
variable [DecidableEq ι]

/-- Writer `w` moves to phase `p`. -/
def State.enter (s : State ι σ β ρ) (w : ι) (p : Phase β ρ) : State ι σ β ρ :=
  { s with phase := Function.update s.phase w p }

/-- The end of `w`'s transaction releases the lock if `w` holds it. -/
def State.release (s : State ι σ β ρ) (w : ι) : State ι σ β ρ :=
  { s with lock := if s.lock = some w then none else s.lock }

/-- One action of one writer. -/
inductive Step (P : Protocol ι σ β τ ρ) : State ι σ β ρ → State ι σ β ρ → Prop where
  | acquire {s : State ι σ β ρ} (w : ι) : s.phase w = .idle → s.lock = none →
      Step P s ({ s with lock := some w }.enter w .locked)
  | read {s : State ι σ β ρ} (w : ι) : s.phase w = .locked →
      Step P s (s.enter w (.read (P.read s.table)))
  | insert {s : State ι σ β ρ} (w : ι) (x : τ) {b : β} : s.phase w = .read b →
      Step P s (s.enter w (.inserted (P.compute w x b)))
  | commit {s : State ι σ β ρ} (w : ι) {r : ρ} : s.phase w = .inserted r →
      Step P s (({ s with table := P.insert r s.table }.release w).enter w .committed)
  | abort {s : State ι σ β ρ} (w : ι) : s.phase w = .idle ∨ (s.phase w).active →
      Step P s ((s.release w).enter w .aborted)

/-- The states of all interleavings from the table `t`. -/
def Reachable (P : Protocol ι σ β τ ρ) (t : σ) (s : State ι σ β ρ) : Prop :=
  Relation.ReflTransGen (Step P) (State.initial t) s

end

/-! ## Serial runs -/

/-- The table after writers run one after another, each with its input. -/
def sequential (P : Protocol ι σ β τ ρ) (t : σ) (history : List (ι × τ)) : σ :=
  history.foldl (fun t c => P.insert (P.compute c.1 c.2 (P.read t)) t) t

theorem sequential_concat (P : Protocol ι σ β τ ρ) (t : σ) (history : List (ι × τ)) (c : ι × τ) :
    sequential P t (history ++ [c]) =
      P.insert (P.compute c.1 c.2 (P.read (sequential P t history))) (sequential P t history) := by
  simp [sequential]

/-- The table is the one that exactly the committed writers, each once, leave in some order. -/
def Serial (P : Protocol ι σ β τ ρ) (t : σ) (s : State ι σ β ρ) : Prop :=
  ∃ history : List (ι × τ), (history.map (·.1)).Nodup ∧
    (∀ w, w ∈ history.map (·.1) ↔ s.phase w = .committed) ∧ s.table = sequential P t history

/-! ## The invariant -/

/-- Writer `w` in phase `p`: in its transaction it holds the lock, and what it read is still the
table. -/
def Phase.Ok (P : Protocol ι σ β τ ρ) (lock : Option ι) (table : σ) (w : ι) : Phase β ρ → Prop
  | locked => lock = some w
  | read b => lock = some w ∧ b = P.read table
  | inserted r => lock = some w ∧ ∃ x, r = P.compute w x (P.read table)
  | idle | committed | aborted => True

structure Inv (P : Protocol ι σ β τ ρ) (t : σ) (s : State ι σ β ρ) : Prop where
  serial : Serial P t s
  ok : ∀ w, (s.phase w).Ok P s.lock s.table w

section
variable {P : Protocol ι σ β τ ρ} {t : σ} {s s' : State ι σ β ρ} {w : ι} {p : Phase β ρ}

theorem Phase.Ok.lock_eq {lock : Option ι} {table : σ} (h : p.Ok P lock table w) (ha : p.active) :
    lock = some w := by
  cases p with
  | locked => exact h
  | read b => exact h.1
  | inserted r => exact h.1
  | idle | committed | aborted => exact ha.elim

theorem Phase.ok_of_not_active {lock : Option ι} {table : σ} (ha : ¬ p.active) :
    p.Ok P lock table w := by
  cases p with
  | idle | committed | aborted => trivial
  | locked | read b | inserted r => exact absurd trivial ha

theorem inv_initial : Inv P t (State.initial t) :=
  ⟨⟨[], by simp, by simp [State.initial], rfl⟩, fun _ => trivial⟩

/-- While `w` or nobody holds the lock, no other writer is in its transaction. -/
theorem Inv.not_active (h : Inv P t s) (hw : s.lock = none ∨ s.lock = some w) {v : ι} (hv : v ≠ w) :
    ¬ (s.phase v).active := by
  intro ha
  have hlock := (h.ok v).lock_eq ha
  rcases hw with hw | hw
  · simp [hw] at hlock
  · exact hv (Option.some.inj (hlock.symm.trans hw))

variable [DecidableEq ι]

/-- A writer that moves on inside its transaction, or leaves it without a commit: the table stays. -/
theorem Serial.enter (h : Serial P t s) (hw : s.phase w ≠ .committed) (hp : p ≠ .committed)
    (htable : s'.table = s.table) (hphase : s'.phase = Function.update s.phase w p) :
    Serial P t s' := by
  obtain ⟨history, hnd, hmem, hseq⟩ := h
  refine ⟨history, hnd, fun v => ?_, htable.trans hseq⟩
  rw [hmem, hphase]
  by_cases hv : v = w
  · subst hv
    simp [hw, hp]
  · simp [hv]

/-- The commit of a record computed from the table as it is adds its writer to the history. -/
theorem Serial.commit (h : Serial P t s) (hw : s.phase w ≠ .committed) {x : τ}
    (htable : s'.table = P.insert (P.compute w x (P.read s.table)) s.table)
    (hphase : s'.phase = Function.update s.phase w .committed) : Serial P t s' := by
  obtain ⟨history, hnd, hmem, hseq⟩ := h
  refine ⟨history ++ [(w, x)], ?_, fun v => ?_, ?_⟩
  · rw [List.map_append, List.nodup_append]
    refine ⟨hnd, by simp, ?_⟩
    rintro v hv _ hvw rfl
    obtain rfl : v = w := by simpa using hvw
    exact hw ((hmem v).1 hv)
  · rw [List.map_append, List.mem_append, hmem, hphase]
    by_cases hv : v = w
    · subst hv
      simp
    · simp [hv]
  · rw [htable, hseq, sequential_concat]

/-- The writers after a step of `w`: `w` by its new phase, the others as before. -/
theorem ok_update {lock : Option ι} {table : σ} (hw : p.Ok P lock table w)
    (hother : ∀ v, v ≠ w → (s.phase v).Ok P lock table v) (v : ι) :
    (Function.update s.phase w p v).Ok P lock table v := by
  by_cases hv : v = w
  · subst hv
    simpa using hw
  · simpa [hv] using hother v hv

theorem inv_step (h : Inv P t s) (hstep : Step P s s') : Inv P t s' := by
  cases hstep with
  | acquire w hidle hfree =>
    refine ⟨h.serial.enter (by simp [hidle]) (p := .locked) (by simp) rfl rfl, ok_update rfl ?_⟩
    intro v hv
    exact Phase.ok_of_not_active (h.not_active (.inl hfree) hv)
  | read w hlocked =>
    have hok := h.ok w
    rw [hlocked] at hok
    exact ⟨h.serial.enter (by simp [hlocked]) (by simp) rfl rfl,
      ok_update ⟨hok, rfl⟩ fun v _ => h.ok v⟩
  | @insert w x b hread =>
    have hok := h.ok w
    rw [hread] at hok
    obtain ⟨hlock, rfl⟩ := hok
    exact ⟨h.serial.enter (by simp [hread]) (by simp) rfl rfl,
      ok_update ⟨hlock, x, rfl⟩ fun v _ => h.ok v⟩
  | commit w hins =>
    have hok := h.ok w
    rw [hins] at hok
    obtain ⟨hlock, x, rfl⟩ := hok
    refine ⟨h.serial.commit (by simp [hins]) rfl rfl, ok_update trivial ?_⟩
    intro v hv
    exact Phase.ok_of_not_active (h.not_active (.inr hlock) hv)
  | abort w hbusy =>
    refine ⟨h.serial.enter ?_ (by simp) rfl rfl, ok_update trivial ?_⟩
    · rintro hc
      rcases hbusy with hb | hb <;> simp [hc, Phase.active] at hb
    · intro v hv
      -- the lock changes only when `w` held it, and then no other writer is in its transaction
      by_cases hlock : s.lock = some w
      · exact Phase.ok_of_not_active (h.not_active (.inr hlock) hv)
      · simp only [State.release, if_neg hlock]
        exact h.ok v

theorem inv_of_reachable (h : Reachable P t s) : Inv P t s := by
  induction h with
  | refl => exact inv_initial
  | tail _ hstep ih => exact inv_step ih hstep

/-- **In every interleaving the table is that of a serial run of the committed writers.** -/
theorem serial_of_reachable (h : Reachable P t s) : Serial P t s := (inv_of_reachable h).serial

end

end Lib.LockProtocol

/-!
## Read, modify, write without a lock

Any number of callers, each with a list of cells to update. For one cell after another a caller
reads it and later writes what it computed from the value it read; other callers may act in between,
so a write can put back an older value.

* `Step`: one command of one caller. `Ok` is what is asked of a write: a relation between the caller,
  the value the cell holds now and the value the caller read; `Reachable` are the states of the
  interleavings whose writes all meet it.
* `marked_of_reachable`: a mark that each caller leaves on its cells is there in the end when every
  write that meets `Ok` keeps the marks of the cell.
* `alone_reachable`: a caller that nobody interrupts updates its cells one after another.
-/

namespace Lib.ReadModifyWrite

variable {ι κ β : Type}

/-- Where a caller is: about to read the first of its cells, or about to write one it has read. -/
inductive Phase (κ β : Type) where
  | fetch (keys : List κ)
  | store (key : κ) (read : β) (keys : List κ)

/-- The cells a caller has still to write. -/
def Phase.pending : Phase κ β → List κ
  | fetch keys => keys
  | store key _ keys => key :: keys

/-- The cells, and each caller's phase. -/
structure State (ι κ β : Type) where
  cell : κ → β
  phase : ι → Phase κ β

/-- No caller has begun. -/
def State.initial (cell : κ → β) (keys : ι → List κ) : State ι κ β :=
  ⟨cell, fun i => .fetch (keys i)⟩

def State.finished (s : State ι κ β) : Prop := ∀ i, (s.phase i).pending = []

variable [DecidableEq ι] [DecidableEq κ]

/-- One command of one caller. -/
inductive Step (modify : ι → β → β) (Ok : ι → β → β → Prop) : State ι κ β → State ι κ β → Prop where
  | read {s : State ι κ β} (i : ι) {key : κ} {keys : List κ} : s.phase i = .fetch (key :: keys) →
      Step modify Ok s
        { s with phase := Function.update s.phase i (.store key (s.cell key) keys) }
  | write {s : State ι κ β} (i : ι) {key : κ} {b : β} {keys : List κ} :
      s.phase i = .store key b keys → Ok i (s.cell key) b →
      Step modify Ok s
        { cell := Function.update s.cell key (modify i b)
          phase := Function.update s.phase i (.fetch keys) }

/-- The states of the interleavings whose writes all meet `Ok`. -/
def Reachable (modify : ι → β → β) (Ok : ι → β → β → Prop) (cell : κ → β) (keys : ι → List κ)
    (s : State ι κ β) : Prop :=
  Relation.ReflTransGen (Step modify Ok) (State.initial cell keys) s

/-! ### Marks -/

section
variable {modify : ι → β → β} {Ok : ι → β → β → Prop} {mark : ι → β → Prop} {keys : ι → List κ}

/-- Every cell of a caller is still to be written or bears the caller's mark. -/
def Marked (mark : ι → β → Prop) (keys : ι → List κ) (s : State ι κ β) : Prop :=
  ∀ i, ∀ key ∈ keys i, key ∈ (s.phase i).pending ∨ mark i (s.cell key)

theorem marked_step (hown : ∀ i b, mark i (modify i b))
    (hkeep : ∀ i now read, Ok i now read → ∀ j, mark j now → mark j (modify i read))
    {s s' : State ι κ β} (h : Step modify Ok s s') (hm : Marked mark keys s) :
    Marked mark keys s' := by
  intro j key hkey
  cases h with
  | read i hi =>
    refine (hm j key hkey).imp_left fun hp => ?_
    by_cases hj : j = i
    · subst hj
      rw [hi] at hp
      simpa [Phase.pending] using hp
    · simpa [hj] using hp
  | @write i k b ks hi hok =>
    by_cases hk : key = k
    · subst hk
      by_cases hj : j = i
      · subst hj
        exact .inr (by simpa using hown j b)
      · -- another caller's mark, if it was there, is in what `i` writes
        refine (hm j key hkey).imp (fun hp => by simpa [hj] using hp) fun hmark => ?_
        simpa using hkeep i _ _ hok j hmark
    · refine (hm j key hkey).imp (fun hp => ?_) fun hmark => by simpa [hk] using hmark
      by_cases hj : j = i
      · subst hj
        rw [hi] at hp
        simpa [Phase.pending, hk] using hp
      · simpa [hj] using hp

/-- **No mark is lost** when every write keeps the marks that its cell bears. -/
theorem marked_of_reachable (hown : ∀ i b, mark i (modify i b))
    (hkeep : ∀ i now read, Ok i now read → ∀ j, mark j now → mark j (modify i read))
    {cell : κ → β} {s : State ι κ β} (h : Reachable modify Ok cell keys s) :
    Marked mark keys s := by
  induction h with
  | refl => exact fun _ _ hkey => .inl hkey
  | tail _ hstep ih => exact marked_step hown hkeep hstep ih

theorem mark_of_finished (hown : ∀ i b, mark i (modify i b))
    (hkeep : ∀ i now read, Ok i now read → ∀ j, mark j now → mark j (modify i read))
    {cell : κ → β} {s : State ι κ β} (h : Reachable modify Ok cell keys s) (hfin : s.finished)
    {i : ι} {key : κ} (hkey : key ∈ keys i) : mark i (s.cell key) := by
  refine (marked_of_reachable hown hkeep h i key hkey).resolve_left ?_
  rw [hfin i]
  exact List.not_mem_nil

end

/-! ### A caller that runs alone -/

theorem alone_reachable (modify : ι → β → β) {Ok : ι → β → β → Prop} (i : ι)
    (hok : ∀ b, Ok i b b) :
    ∀ (keys : List κ) (s : State ι κ β), s.phase i = .fetch keys →
      Relation.ReflTransGen (Step modify Ok) s
        { cell := keys.foldl (fun cell key => Function.update cell key (modify i (cell key))) s.cell
          phase := Function.update s.phase i (.fetch []) }
  | [], s, hi => by
    have hs : s = { cell := s.cell, phase := Function.update s.phase i (.fetch []) } := by
      rw [← hi, Function.update_eq_self]
    rw [List.foldl_nil, ← hs]
  | key :: keys, s, hi => by
    let s₁ : State ι κ β :=
      { s with phase := Function.update s.phase i (.store key (s.cell key) keys) }
    have hread : Step modify Ok s s₁ := .read i hi
    have hwrite : Step modify Ok s₁ _ := .write i (Function.update_self ..) (hok _)
    refine (Relation.ReflTransGen.single hread).tail hwrite |>.trans ?_
    have hrest := alone_reachable modify i hok keys
      { cell := Function.update s.cell key (modify i (s.cell key))
        phase := Function.update s.phase i (.fetch keys) } (Function.update_self ..)
    simpa [s₁] using hrest

end Lib.ReadModifyWrite
