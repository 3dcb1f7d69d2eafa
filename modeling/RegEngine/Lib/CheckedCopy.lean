import Mathlib.Logic.Function.Basic
import Mathlib.Logic.Relation

/-!
# Check a copy, then write the row

Any number of sessions that decide one stored row. A session loads the row once and works with this
copy from then on: a later select of the row does not refresh it. It checks the copy, enters a scope
(a mutex of its process), selects and checks again, takes the lock of another row where its copy names
one, writes and commits. It may raise at any moment before. Scopes and locks are held to the end.

* `Step`: one statement of one session. `Fresh` is what is asked of the last look at the row before the
  write: a relation between the stored row and the copy; `Reachable` are the states of the
  interleavings that meet it.
* `Inv`: the invariant; `inv_step` keeps it.
* `committed_once`, `stored_of_committed`: where a ready copy is only looked at while the stored row is
  ready too, one session commits, and the row stays as it wrote it.
* `alone_reachable`: a session that nobody interrupts commits its copy.
-/

namespace Lib.CheckedCopy

variable {ι μ κ β : Type}

/-- What the sessions do: the check of a copy, the scope and the row to lock, and what the write of a
copy leaves of the stored row. -/
structure Protocol (ι μ κ β : Type) where
  Ready : β → Prop
  scope : ι → β → Option μ
  row : β → Option κ
  write : ι → β → β → β

/-- Where a session is. -/
inductive Phase (β : Type) where
  | idle
  | loaded (copy : β)
  | entered (copy : β)
  | checked (copy : β)
  | locked (copy : β)
  | committed
  | raised

def Phase.running : Phase β → Prop
  | committed | raised => False
  | _ => True

/-- What a select of a row gives that the session has loaded: the copy it has. -/
def reselect (copy _stored : β) : β := copy

/-- The committed row, the holders of the scopes and of the row locks, and each session's phase. -/
structure State (ι μ κ β : Type) where
  stored : β
  scope : μ → Option ι
  lock : κ → Option ι
  phase : ι → Phase β

/-- No session has begun. -/
def State.initial (b : β) : State ι μ κ β := ⟨b, fun _ => none, fun _ => none, fun _ => .idle⟩

section
variable [DecidableEq ι] [DecidableEq μ] [DecidableEq κ]

/-- Session `i` moves to phase `p`. -/
def State.enter (s : State ι μ κ β) (i : ι) (p : Phase β) : State ι μ κ β :=
  { s with phase := Function.update s.phase i p }

/-- The holders after `i` takes what it needs, if anything. -/
def take {γ : Type} [DecidableEq γ] (holder : γ → Option ι) (i : ι) : Option γ → γ → Option ι
  | some k => Function.update holder k (some i)
  | none => holder

/-- The end of a transaction gives back what `i` holds. -/
def State.release (s : State ι μ κ β) (i : ι) : State ι μ κ β :=
  { s with
    scope := fun m => if s.scope m = some i then none else s.scope m
    lock := fun k => if s.lock k = some i then none else s.lock k }

/-- One statement of one session. -/
inductive Step (P : Protocol ι μ κ β) (Fresh : β → β → Prop) :
    State ι μ κ β → State ι μ κ β → Prop where
  | load {s : State ι μ κ β} (i : ι) : s.phase i = .idle →
      Step P Fresh s (s.enter i (.loaded s.stored))
  | enter {s : State ι μ κ β} (i : ι) {copy : β} : s.phase i = .loaded copy → P.Ready copy →
      (∀ m, P.scope i copy = some m → s.scope m = none) →
      Step P Fresh s ({ s with scope := take s.scope i (P.scope i copy) }.enter i (.entered copy))
  | check {s : State ι μ κ β} (i : ι) {copy : β} : s.phase i = .entered copy →
      P.Ready (reselect copy s.stored) →
      Step P Fresh s (s.enter i (.checked (reselect copy s.stored)))
  | lock {s : State ι μ κ β} (i : ι) {copy : β} {k : κ} : s.phase i = .checked copy →
      P.row copy = some k → s.lock k = none → Fresh s.stored copy →
      Step P Fresh s ({ s with lock := take s.lock i (some k) }.enter i (.locked copy))
  | commit {s : State ι μ κ β} (i : ι) {copy : β} : s.phase i = .locked copy →
      Step P Fresh s (({ s with stored := P.write i s.stored copy }.release i).enter i .committed)
  | commitUnlocked {s : State ι μ κ β} (i : ι) {copy : β} : s.phase i = .checked copy →
      P.row copy = none → Fresh s.stored copy →
      Step P Fresh s (({ s with stored := P.write i s.stored copy }.release i).enter i .committed)
  | raise {s : State ι μ κ β} (i : ι) : (s.phase i).running →
      Step P Fresh s ((s.release i).enter i .raised)

/-- The states of the interleavings whose last looks are all `Fresh`. -/
def Reachable (P : Protocol ι μ κ β) (Fresh : β → β → Prop) (b : β) (s : State ι μ κ β) : Prop :=
  Relation.ReflTransGen (Step P Fresh) (State.initial b) s

end

/-! ## The invariant -/

/-- Session `i` in phase `p`: a ready copy is the row `b` of the beginning, a locked session holds the
lock of its copy while the stored row is ready, and after a commit it is not. -/
def Phase.Ok (P : Protocol ι μ κ β) (b stored : β) (lock : κ → Option ι) (i : ι) : Phase β → Prop
  | idle | raised => True
  | loaded copy | entered copy => P.Ready copy → copy = b
  | checked copy => P.Ready copy ∧ copy = b
  | locked copy => (P.Ready copy ∧ copy = b) ∧ P.Ready stored ∧ ∃ k, P.row copy = some k ∧
      lock k = some i
  | committed => ¬ P.Ready stored

structure Inv (P : Protocol ι μ κ β) (b : β) (s : State ι μ κ β) : Prop where
  stored : s.stored = b ∨ ¬ P.Ready s.stored
  ok : ∀ i, (s.phase i).Ok P b s.stored s.lock i
  once : ∀ i j, s.phase i = .committed → s.phase j = .committed → i = j

section
variable {P : Protocol ι μ κ β} {Fresh : β → β → Prop} {b : β} {s s' : State ι μ κ β} {i : ι}
  {p : Phase β}

theorem inv_initial : Inv P b (State.initial b) :=
  ⟨.inl rfl, fun _ => trivial, fun _ _ h => by cases h⟩

variable [DecidableEq ι]

theorem ok_update {stored : β} {lock : κ → Option ι} (hi : p.Ok P b stored lock i)
    (hother : ∀ j, j ≠ i → (s.phase j).Ok P b stored lock j) (j : ι) :
    (Function.update s.phase i p j).Ok P b stored lock j := by
  by_cases hj : j = i
  · subst hj
    simpa using hi
  · simpa [hj] using hother j hj

/-- A session that does not commit. -/
theorem once_update {phase : ι → Phase β}
    (h : ∀ i j, phase i = .committed → phase j = .committed → i = j) (hp : p ≠ .committed) (j j' : ι)
    (hj : Function.update phase i p j = .committed)
    (hj' : Function.update phase i p j' = .committed) : j = j' := by
  have hold : ∀ j, Function.update phase i p j = .committed → phase j = .committed := by
    intro j hj
    by_cases hji : j = i
    · subst hji
      rw [Function.update_self] at hj
      exact absurd hj hp
    · rwa [Function.update_of_ne hji] at hj
  exact h j j' (hold j hj) (hold j' hj')

/-- **A commit of the row of the beginning**: no other session holds its lock, and none has committed
before. -/
theorem inv_commit (hwrite : ∀ i stored copy, P.Ready copy → ¬ P.Ready (P.write i stored copy))
    (h : Inv P b s) (hready : P.Ready s.stored) (hrow : ∀ k, P.row b = some k → s.lock k = some i)
    {copy : β} (hcopy : P.Ready copy) (hs' : s'.stored = P.write i s.stored copy)
    (hphase : s'.phase = Function.update s.phase i .committed) : Inv P b s' := by
  have hdone : ¬ P.Ready s'.stored := hs' ▸ hwrite i s.stored copy hcopy
  have hfirst : ∀ j, s.phase j ≠ .committed := by
    intro j hj
    have hok := h.ok j
    rw [hj] at hok
    exact hok hready
  refine ⟨.inr hdone, ?_, ?_⟩
  · rw [hphase]
    refine ok_update hdone fun j hj => ?_
    have hok := h.ok j
    cases hp : s.phase j with
    | idle | raised => trivial
    | loaded copy' | entered copy' | checked copy' =>
      rw [hp] at hok
      exact hok
    | locked copy' =>
      rw [hp] at hok
      obtain ⟨⟨-, rfl⟩, -, k, hk, hheld⟩ := hok
      exact absurd (Option.some.inj (hheld.symm.trans (hrow k hk))) hj
    | committed => exact absurd hp (hfirst j)
  · have honly : ∀ j, s'.phase j = .committed → j = i := by
      intro j hj
      by_contra hne
      rw [hphase, Function.update_of_ne hne] at hj
      exact hfirst j hj
    intro j j' hj hj'
    rw [honly j hj, honly j' hj']

variable [DecidableEq μ] [DecidableEq κ]

theorem inv_step (hwrite : ∀ i stored copy, P.Ready copy → ¬ P.Ready (P.write i stored copy))
    (hfresh : ∀ stored copy, Fresh stored copy → P.Ready copy → P.Ready stored) (h : Inv P b s)
    (hstep : Step P Fresh s s') : Inv P b s' := by
  cases hstep with
  | load i hidle =>
    refine ⟨h.stored, ok_update ?_ fun j _ => h.ok j, once_update h.once (by simp)⟩
    exact fun hready => h.stored.resolve_right fun hnot => hnot hready
  | enter i hloaded hready =>
    have hok := h.ok i
    rw [hloaded] at hok
    exact ⟨h.stored, ok_update hok fun j _ => h.ok j, once_update h.once (by simp)⟩
  | check i hentered hready =>
    have hok := h.ok i
    rw [hentered] at hok
    exact ⟨h.stored, ok_update ⟨hready, hok hready⟩ fun j _ => h.ok j, once_update h.once (by simp)⟩
  | @lock i copy k hchecked hrow hfree hseen =>
    have hok := h.ok i
    rw [hchecked] at hok
    refine ⟨h.stored, ok_update ⟨hok, hfresh _ _ hseen hok.1, k, hrow, ?_⟩ fun j hj => ?_,
      once_update h.once (by simp)⟩
    · simp [State.enter, take]
    · have hother := h.ok j
      cases hp : s.phase j with
      | locked copy' =>
        rw [hp] at hother
        obtain ⟨hcopy, hready, k', hk', hheld⟩ := hother
        have hne : k' ≠ k := by
          rintro rfl
          rw [hfree] at hheld
          cases hheld
        exact ⟨hcopy, hready, k', hk', by simp [State.enter, take, hne, hheld]⟩
      | idle | raised | loaded copy' | entered copy' | checked copy' | committed =>
        rw [hp] at hother
        exact hother
  | @commit i copy hlocked =>
    have hok := h.ok i
    rw [hlocked] at hok
    obtain ⟨⟨hcopy, rfl⟩, hready, k, hk, hheld⟩ := hok
    refine inv_commit hwrite h hready (fun k' hk' => ?_) hcopy rfl rfl
    obtain rfl := Option.some.inj (hk.symm.trans hk')
    exact hheld
  | @commitUnlocked i copy hchecked hrow hseen =>
    have hok := h.ok i
    rw [hchecked] at hok
    obtain ⟨hready, rfl⟩ := hok
    refine inv_commit hwrite h (hfresh _ _ hseen hready) (fun k hk => ?_) hready rfl rfl
    rw [hrow] at hk
    cases hk
  | raise i hrunning =>
    refine ⟨h.stored, ok_update trivial fun j hj => ?_, once_update h.once (by simp)⟩
    have hother := h.ok j
    show (s.phase j).Ok P b s.stored _ j
    cases hp : s.phase j with
    | locked copy' =>
      rw [hp] at hother
      obtain ⟨hcopy, hready, k', hk', hheld⟩ := hother
      refine ⟨hcopy, hready, k', hk', ?_⟩
      simp [State.release, State.enter, hheld, hj]
    | idle | raised | loaded copy' | entered copy' | checked copy' | committed =>
      rw [hp] at hother
      exact hother

theorem inv_of_reachable (hwrite : ∀ i stored copy, P.Ready copy → ¬ P.Ready (P.write i stored copy))
    (hfresh : ∀ stored copy, Fresh stored copy → P.Ready copy → P.Ready stored)
    (h : Reachable P Fresh b s) : Inv P b s := by
  induction h with
  | refl => exact inv_initial
  | tail _ hstep ih => exact inv_step hwrite hfresh ih hstep

/-- **One session commits.** -/
theorem committed_once (hwrite : ∀ i stored copy, P.Ready copy → ¬ P.Ready (P.write i stored copy))
    (hfresh : ∀ stored copy, Fresh stored copy → P.Ready copy → P.Ready stored)
    (h : Reachable P Fresh b s) {j : ι} (hi : s.phase i = .committed) (hj : s.phase j = .committed) :
    i = j :=
  (inv_of_reachable hwrite hfresh h).once i j hi hj

/-- After a commit no statement changes the row. -/
theorem stored_step (hfresh : ∀ stored copy, Fresh stored copy → P.Ready copy → P.Ready stored)
    (h : Inv P b s) (hi : s.phase i = .committed) (hstep : Step P Fresh s s') :
    s'.stored = s.stored ∧ s'.phase i = .committed := by
  have hdone : ¬ P.Ready s.stored := by
    have hok := h.ok i
    rwa [hi] at hok
  have hkeep : ∀ {j : ι} {p : Phase β}, s.phase j ≠ .committed →
      Function.update s.phase j p i = .committed := by
    intro j p hj
    have hne : i ≠ j := by
      rintro rfl
      exact hj hi
    rw [Function.update_of_ne hne, hi]
  cases hstep with
  | load j hj => exact ⟨rfl, hkeep (by simp [hj])⟩
  | enter j hj => exact ⟨rfl, hkeep (by simp [hj])⟩
  | check j hj => exact ⟨rfl, hkeep (by simp [hj])⟩
  | lock j hj => exact ⟨rfl, hkeep (by simp [hj])⟩
  | commit j hj =>
    have hok := h.ok j
    rw [hj] at hok
    exact absurd hok.2.1 hdone
  | commitUnlocked j hj hrow hseen =>
    have hok := h.ok j
    rw [hj] at hok
    exact absurd (hfresh _ _ hseen hok.1) hdone
  | raise j hj =>
    refine ⟨rfl, hkeep fun hcommitted => ?_⟩
    rw [hcommitted] at hj
    exact hj

/-- **The row stays as the session wrote it.** -/
theorem stored_of_committed (hwrite : ∀ i stored copy, P.Ready copy → ¬ P.Ready (P.write i stored copy))
    (hfresh : ∀ stored copy, Fresh stored copy → P.Ready copy → P.Ready stored)
    (h : Reachable P Fresh b s) (hi : s.phase i = .committed)
    (hrun : Relation.ReflTransGen (Step P Fresh) s s') : s'.stored = s.stored := by
  have hall : Reachable P Fresh b s' ∧ s'.stored = s.stored ∧ s'.phase i = .committed := by
    induction hrun with
    | refl => exact ⟨h, rfl, hi⟩
    | tail _ hstep ih =>
      obtain ⟨hreach, hstored, hcommitted⟩ := ih
      obtain ⟨hsame, hstays⟩ :=
        stored_step hfresh (inv_of_reachable hwrite hfresh hreach) hcommitted hstep
      exact ⟨hreach.tail hstep, hsame.trans hstored, hstays⟩
  exact hall.2.1

/-! ## A session that runs alone -/

/-- What is free when a session begins is free after its commit. -/
theorem released {γ : Type} [DecidableEq γ] {holder : γ → Option ι} (i : ι) (needed : Option γ) {k : γ}
    (h : holder k = none) :
    (if take holder i needed k = some i then none else take holder i needed k) = none := by
  cases needed with
  | none => simp [take, h]
  | some k' =>
    by_cases hk : k = k'
    · simp [take, hk]
    · simp [take, hk, h]

/-- A session with a ready copy that nobody interrupts commits it. -/
theorem alone_reachable {copy : β} (hphase : s.phase i = .loaded copy) (hready : P.Ready copy)
    (hscope : ∀ m, P.scope i copy = some m → s.scope m = none)
    (hlock : ∀ k, P.row copy = some k → s.lock k = none) (hfresh : Fresh s.stored copy) :
    ∃ s', Relation.ReflTransGen (Step P Fresh) s s' ∧ s'.stored = P.write i s.stored copy ∧
      s'.phase = Function.update s.phase i .committed ∧
      (∀ m, s.scope m = none → s'.scope m = none) ∧ ∀ k, s.lock k = none → s'.lock k = none := by
  let s₁ : State ι μ κ β :=
    { s with scope := take s.scope i (P.scope i copy) }.enter i (.entered copy)
  let s₂ : State ι μ κ β := s₁.enter i (.checked copy)
  have henter : Step P Fresh s s₁ := .enter i hphase hready hscope
  have hcheck : Step P Fresh s₁ s₂ := .check i (Function.update_self ..) hready
  have hstart := (Relation.ReflTransGen.single henter).tail hcheck
  have hchecked : s₂.phase i = .checked copy := Function.update_self ..
  cases hrow : P.row copy with
  | none =>
    refine ⟨_, hstart.tail (.commitUnlocked i hchecked hrow hfresh), rfl, ?_, fun m hm =>
      released i _ hm, fun k hk => ?_⟩
    · simp [s₂, s₁, State.enter, State.release]
    · simp [s₂, s₁, State.enter, State.release, hk]
  | some k =>
    let s₃ : State ι μ κ β := { s₂ with lock := take s₂.lock i (some k) }.enter i (.locked copy)
    have hlocked : Step P Fresh s₂ s₃ := .lock i hchecked hrow (hlock k hrow) hfresh
    refine ⟨_, (hstart.tail hlocked).tail (.commit i (Function.update_self ..)), rfl, ?_,
      fun m hm => released i _ hm, fun k' hk' => released i (some k) hk'⟩
    simp [s₃, s₂, s₁, State.enter, State.release]

end

end Lib.CheckedCopy
