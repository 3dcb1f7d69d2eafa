import RegEngine.Lib.Programs

/-!
# Rely and guarantee

Several programs share a store. A protocol says what every command keeps (`inv`, `grow`) and what each
caller may rely on between its own commands (`rely`); a caller that has ended is `done`. `Safe` is a
program that keeps its guarantee at every command, whatever the others do in between; it goes through
`do` (`safe_bind`, `safe_send_bind`). `safe_reachable` is what follows for all programs together, and
`safe_serving` where callers also begin programs and stop between two commands.
-/

namespace Lib.RelyGuarantee

open Programs

/-- What the callers agree on. -/
structure Protocol (σ ι : Type) where
  inv : σ → Prop
  /-- What a command may do. -/
  grow : σ → σ → Prop
  /-- What the others may do to a caller. -/
  rely : ι → σ → σ → Prop
  /-- A caller may have ended. -/
  done : ι → σ → Prop
  grow_refl : ∀ s, grow s s
  grow_trans : ∀ s t u, grow s t → grow t u → grow s u
  rely_refl : ∀ i s, rely i s s
  rely_trans : ∀ i s t u, rely i s t → rely i t u → rely i s u
  done_rely : ∀ i s t, done i s → rely i s t → done i t

variable {C : Type} {R : C → Type} {σ α β ε ι : Type}

/-- What a caller grants the others with a command. -/
structure Protocol.Guarantee (P : Protocol σ ι) (i : ι) (s s' : σ) : Prop where
  inv : P.inv s'
  grow : P.grow s s'
  others : ∀ j, j ≠ i → P.rely j s s'

section
variable (P : Protocol σ ι) (Exec : (c : C) → σ → R c → σ → Prop) (Ok : σ → C → Prop) (i : ι)

/-- Every command keeps the guarantee, and the program ends in `M`. -/
def Safe (M : α → σ → Prop) : Prog C R α → σ → Prop
  | .ret a, s => M a s
  | .cmd c k, s => ∀ s₁, P.inv s₁ → P.grow s s₁ → P.rely i s s₁ →
      ∀ r s₂, Ok s₁ c → Exec c s₁ r s₂ → P.Guarantee i s₁ s₂ ∧ Safe M (k r) s₂

end

section
variable {P : Protocol σ ι} {Exec : (c : C) → σ → R c → σ → Prop} {Ok : σ → C → Prop} {i : ι}
  {M : α → σ → Prop} {N : β → σ → Prop} {s : σ}

theorem Safe.bind {p : Prog C R α} {f : α → Prog C R β} (hp : Safe P Exec Ok i M p s)
    (hf : ∀ a s, M a s → Safe P Exec Ok i N (f a) s) : Safe P Exec Ok i N (p >>= f) s := by
  induction p generalizing s with
  | ret a => exact hf a s hp
  | cmd c k ih =>
    intro s₁ hinv hgrow hrely r s₂ hok hexec
    obtain ⟨hguarantee, hrest⟩ := hp s₁ hinv hgrow hrely r s₂ hok hexec
    exact ⟨hguarantee, ih r hrest⟩

theorem Safe.imp {M' : α → σ → Prop} {p : Prog C R α} (hp : Safe P Exec Ok i M p s)
    (h : ∀ a s, M a s → M' a s) : Safe P Exec Ok i M' p s := by
  induction p generalizing s with
  | ret a => exact h a s hp
  | cmd c k ih =>
    intro s₁ hinv hgrow hrely r s₂ hok hexec
    obtain ⟨hguarantee, hrest⟩ := hp s₁ hinv hgrow hrely r s₂ hok hexec
    exact ⟨hguarantee, ih r hrest⟩

/-! ## Programs that raise -/

theorem safe_pure {K : Except ε α → σ → Prop} {a : α} (h : K (.ok a) s) :
    Safe P Exec Ok i K (pure a : Proc C R ε α).run s := h

theorem safe_throw {K : Except ε α → σ → Prop} {e : ε} (h : K (.error e) s) :
    Safe P Exec Ok i K (throw e : Proc C R ε α).run s := h

theorem safe_bind {K : Except ε α → σ → Prop} {L : Except ε β → σ → Prop} {p : Proc C R ε α}
    {f : α → Proc C R ε β} (hp : Safe P Exec Ok i K p.run s)
    (herror : ∀ e s, K (.error e) s → L (.error e) s)
    (hf : ∀ a s, K (.ok a) s → Safe P Exec Ok i L (f a).run s) :
    Safe P Exec Ok i L (p >>= f).run s := by
  refine Safe.bind hp fun a s hk => ?_
  cases a with
  | error e => exact herror e s hk
  | ok a => exact hf a s hk

/-- A command whose reply a program goes on with. -/
theorem safe_send_bind {L : Except ε β → σ → Prop} {c : C} {f : R c → Proc C R ε β}
    (h : ∀ s₁, P.inv s₁ → P.grow s s₁ → P.rely i s s₁ → ∀ r s₂, Ok s₁ c → Exec c s₁ r s₂ →
      P.Guarantee i s₁ s₂ ∧ Safe P Exec Ok i L (f r).run s₂) :
    Safe P Exec Ok i L (Proc.send c >>= f).run s := h

/-- A command that changes nothing. -/
theorem safe_quiet {L : Except ε β → σ → Prop} {c : C} {f : R c → Proc C R ε β}
    (hquiet : ∀ s₁ r s₂, Exec c s₁ r s₂ → s₂ = s₁)
    (hf : ∀ r s', P.inv s' → P.grow s s' → P.rely i s s' → Exec c s' r s' →
      Safe P Exec Ok i L (f r).run s') :
    Safe P Exec Ok i L (Proc.send c >>= f).run s := by
  refine safe_send_bind fun s₁ hinv hgrow hrely r s₂ _ hexec => ?_
  obtain rfl := hquiet s₁ r s₂ hexec
  exact ⟨⟨hinv, P.grow_refl _, fun j _ => P.rely_refl j _⟩, hf r s₂ hinv hgrow hrely hexec⟩

/-! ## What a caller holds -/

/-- Of the records that are in somebody's hand, a caller has this one, or none. -/
def Holds {κ : Type} (i : ι) (held : Option κ) (claims : κ → Option ι) : Prop :=
  ∀ k, claims k = some i ↔ held = some k

section
variable {κ : Type} {k : κ} {claims claims' : κ → Option ι}

theorem holds_none_iff : Holds i none claims ↔ ∀ k, claims k ≠ some i := by
  simp [Holds]

variable [DecidableEq κ]

theorem Holds.take (h : Holds i none claims) (hclaims : claims' = Function.update claims k (some i)) :
    Holds i (some k) claims' := by
  intro k'
  rw [hclaims]
  by_cases hk : k' = k
  · subst hk
    simp
  · rw [Function.update_of_ne hk]
    simpa [Ne.symm hk] using h k'

theorem Holds.release (h : Holds i (some k) claims) (hclaims : claims' = Function.update claims k none) :
    Holds i none claims' := by
  intro k'
  rw [hclaims]
  by_cases hk : k' = k
  · subst hk
    simp
  · rw [Function.update_of_ne hk]
    simpa [Ne.symm hk] using h k'

end

/-! ## All programs together -/

/-- The invariant, and every program safe. -/
structure Global (P : Protocol σ ι) (Exec : (c : C) → σ → R c → σ → Prop) (Ok : σ → C → Prop)
    (S : State C R α σ ι) : Prop where
  inv : P.inv S.store
  safe : ∀ i, Safe P Exec Ok i (fun _ => P.done i) (S.prog i) S.store

/-- What the others do in between. -/
theorem Safe.rely {p : Prog C R α} {s' : σ} (hp : Safe P Exec Ok i (fun _ => P.done i) p s)
    (hgrow : P.grow s s') (hrely : P.rely i s s') : Safe P Exec Ok i (fun _ => P.done i) p s' := by
  cases p with
  | ret a => exact P.done_rely i s s' hp hrely
  | cmd c k =>
    intro s₁ hinv hgrow₁ hrely₁ r s₂ hok hexec
    exact hp s₁ hinv (P.grow_trans s s' s₁ hgrow hgrow₁) (P.rely_trans i s s' s₁ hrely hrely₁) r s₂
      hok hexec

variable [DecidableEq ι] {S S' : State C R α σ ι}

/-- One command of one of them. -/
theorem Global.step (h : Global P Exec Ok S) (hstep : Step Exec Ok S S') :
    Global P Exec Ok S' ∧ P.grow S.store S'.store := by
  cases hstep with
  | @cmd i c k r s hprog hok hexec =>
    have hi := h.safe i
    rw [hprog] at hi
    obtain ⟨hguarantee, hrest⟩ := hi S.store h.inv (P.grow_refl _) (P.rely_refl _ _) r s hok hexec
    refine ⟨⟨hguarantee.inv, fun j => ?_⟩, hguarantee.grow⟩
    show Safe P Exec Ok j (fun _ => P.done j) (Function.update S.prog i (k r) j) s
    by_cases hj : j = i
    · subst hj
      rw [Function.update_self]
      exact hrest
    · rw [Function.update_of_ne hj]
      exact (h.safe j).rely hguarantee.grow (hguarantee.others j hj)

/-- Every interleaving. -/
theorem safe_reachable (h : Global P Exec Ok S) (hreach : Reachable Exec Ok S S') :
    Global P Exec Ok S' ∧ P.grow S.store S'.store := by
  induction hreach with
  | refl => exact ⟨h, P.grow_refl _⟩
  | tail _ hstep ih =>
    obtain ⟨hglobal, hgrow⟩ := ih.1.step hstep
    exact ⟨hglobal, P.grow_trans _ _ _ ih.2 hgrow⟩

/-! ## Callers that begin and stop -/

/-- A command, a caller at rest that begins a program, or one that stops and rests. -/
inductive Serves (Exec : (c : C) → σ → R c → σ → Prop) (Ok : σ → C → Prop)
    (Begins : ι → Prog C R α → Prop) (Stops : State C R α σ ι → ι → Prop) (rest : α) :
    State C R α σ ι → State C R α σ ι → Prop where
  | step {S S' : State C R α σ ι} : Step Exec Ok S S' → Serves Exec Ok Begins Stops rest S S'
  | begins {S : State C R α σ ι} (i : ι) {a : α} {p : Prog C R α} : S.prog i = .ret a → Begins i p →
      Serves Exec Ok Begins Stops rest S { store := S.store, prog := Function.update S.prog i p }
  | stops {S : State C R α σ ι} (i : ι) : Stops S i →
      Serves Exec Ok Begins Stops rest S
        { store := S.store, prog := Function.update S.prog i (.ret rest) }

/-- One of the programs is another one. -/
theorem Global.update (h : Global P Exec Ok S) {p : Prog C R α}
    (hp : Safe P Exec Ok i (fun _ => P.done i) p S.store) :
    Global P Exec Ok { store := S.store, prog := Function.update S.prog i p } := by
  refine ⟨h.inv, fun j => ?_⟩
  show Safe P Exec Ok j (fun _ => P.done j) (Function.update S.prog i p j) S.store
  by_cases hj : j = i
  · subst hj
    rw [Function.update_self]
    exact hp
  · rw [Function.update_of_ne hj]
    exact h.safe j

/-- Every run in which a caller that begins is safe, and stops only where it may have ended. -/
theorem safe_serving {Begins : ι → Prog C R α → Prop} {Stops : State C R α σ ι → ι → Prop} {rest : α}
    (h : Global P Exec Ok S)
    (hbegins : ∀ i p s, Begins i p → P.done i s → Safe P Exec Ok i (fun _ => P.done i) p s)
    (hstops : ∀ S i, Stops S i → P.done i S.store)
    (hreach : Relation.ReflTransGen (Serves Exec Ok Begins Stops rest) S S') :
    Global P Exec Ok S' ∧ P.grow S.store S'.store := by
  induction hreach with
  | refl => exact ⟨h, P.grow_refl _⟩
  | @tail S₁ S₂ _ hstep ih =>
    cases hstep with
    | step hstep =>
      obtain ⟨hglobal, hgrow⟩ := ih.1.step hstep
      exact ⟨hglobal, P.grow_trans _ _ _ ih.2 hgrow⟩
    | @begins i a p hrest hbegin =>
      have hdone := ih.1.safe i
      rw [hrest] at hdone
      exact ⟨ih.1.update (hbegins i p _ hbegin hdone), ih.2⟩
    | stops i hstop => exact ⟨ih.1.update (hstops S₁ i hstop), ih.2⟩

/-- An interleaving in which nobody begins or stops. -/
theorem serves_of_reachable {Begins : ι → Prog C R α → Prop} {Stops : State C R α σ ι → ι → Prop}
    {rest : α} (h : Reachable Exec Ok S S') :
    Relation.ReflTransGen (Serves Exec Ok Begins Stops rest) S S' := by
  induction h with
  | refl => exact .refl
  | tail _ hstep ih => exact ih.tail (.step hstep)

/-- Nobody interrupts the next commands of a caller. -/
theorem serves_continues {Begins : ι → Prog C R α → Prop} {Stops : State C R α σ ι → ι → Prop}
    {rest : α} {p p' : Prog C R α} {s' : σ} (hp : S.prog i = p)
    (h : Advances (fun c s r s' => Ok s c ∧ Exec c s r s') p S.store p' s') :
    Relation.ReflTransGen (Serves Exec Ok Begins Stops rest) S
      { store := s', prog := Function.update S.prog i p' } :=
  serves_of_reachable (reachable_of_advances h hp rfl)

/-- A caller at rest begins a program, and nobody interrupts its first commands. -/
theorem serves_of_advances {Begins : ι → Prog C R α → Prop} {Stops : State C R α σ ι → ι → Prop}
    {rest a : α} {p p' : Prog C R α} {s' : σ} (hrest : S.prog i = .ret a) (hbegins : Begins i p)
    (h : Advances (fun c s r s' => Ok s c ∧ Exec c s r s') p S.store p' s') :
    Relation.ReflTransGen (Serves Exec Ok Begins Stops rest) S
      { store := s', prog := Function.update S.prog i p' } := by
  have hreach : Relation.ReflTransGen (Serves Exec Ok Begins Stops rest)
      { store := S.store, prog := Function.update S.prog i p } _ :=
    serves_continues (Function.update_self ..) h
  rw [Function.update_idem] at hreach
  exact (Relation.ReflTransGen.single (.begins i hrest hbegins)).trans hreach

end

end Lib.RelyGuarantee
