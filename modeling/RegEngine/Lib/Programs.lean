import Mathlib.Logic.Function.Basic
import Mathlib.Logic.Relation

/-!
# Programs over atomic commands

A program sends commands to a shared store, one after another, and goes on with their replies (`Prog`);
with `ExceptT` on top it may raise. `Runs` is a program that runs alone, `Step` one command of one of
several programs, `Reachable` what the interleavings reach whose commands all meet a condition `Ok`.

* `Prog.All`: every command a program can still send has a property, whatever the replies are. It is a
  property of the text of the program, goes through `do` (`all_bind`, `all_bindE`) and is kept by every
  step (`all_step`).
* `invariant`, `related`: what every such command keeps is kept by every interleaving; `runs_keeps` says
  the same of a program that runs alone.
-/

namespace Lib.Programs

/-- A program whose commands `c : C` are answered by an `R c`. -/
inductive Prog (C : Type) (R : C → Type) (α : Type) : Type where
  | ret (a : α)
  | cmd (c : C) (k : R c → Prog C R α)

variable {C : Type} {R : C → Type} {α β ε σ ι : Type}

namespace Prog

def bind : Prog C R α → (α → Prog C R β) → Prog C R β
  | ret a, f => f a
  | cmd c k, f => cmd c fun r => (k r).bind f

instance : Monad (Prog C R) where
  pure := ret
  bind := bind

theorem bind_ret (p : Prog C R α) : p.bind ret = p := by
  induction p with
  | ret a => rfl
  | cmd c k ih => exact congrArg (cmd c) (funext ih)

theorem bind_assoc {γ : Type} (p : Prog C R α) (f : α → Prog C R β) (g : β → Prog C R γ) :
    (p.bind f).bind g = p.bind fun a => (f a).bind g := by
  induction p with
  | ret a => rfl
  | cmd c k ih => exact congrArg (cmd c) (funext ih)

instance : LawfulMonad (Prog C R) := .mk' _ bind_ret (fun _ _ => rfl) bind_assoc

/-- One command. -/
def send (c : C) : Prog C R (R c) := cmd c ret

/-- Every command that the program can send satisfies `Q`. -/
def All (Q : C → Prop) : Prog C R α → Prop
  | ret _ => True
  | cmd c k => Q c ∧ ∀ r, (k r).All Q

theorem all_bind {Q : C → Prop} {p : Prog C R α} {f : α → Prog C R β} (hp : p.All Q)
    (hf : ∀ a, (f a).All Q) : (p >>= f).All Q := by
  induction p with
  | ret a => exact hf a
  | cmd c k ih => exact ⟨hp.1, fun r => ih r (hp.2 r)⟩

theorem All.imp {Q Q' : C → Prop} (h : ∀ c, Q c → Q' c) {p : Prog C R α} (hp : p.All Q) : p.All Q' := by
  induction p with
  | ret a => trivial
  | cmd c k ih => exact ⟨h c hp.1, fun r => ih r (hp.2 r)⟩

end Prog

/-! ## Programs that raise -/

/-- A program that returns or raises. -/
abbrev Proc (C : Type) (R : C → Type) (ε α : Type) : Type := ExceptT ε (Prog C R) α

namespace Proc

/-- One command. -/
def send (c : C) : Proc C R ε (R c) := ExceptT.lift (Prog.send c)

def All (Q : C → Prop) (p : Proc C R ε α) : Prop := Prog.All Q p.run

variable {Q : C → Prop}

theorem all_pure (a : α) : All Q (pure a : Proc C R ε α) := trivial

theorem all_throw (e : ε) : All Q (throw e : Proc C R ε α) := trivial

theorem all_bind {p : Proc C R ε α} {f : α → Proc C R ε β} (hp : All Q p) (hf : ∀ a, All Q (f a)) :
    All Q (p >>= f) := by
  refine Prog.all_bind hp fun a => ?_
  cases a with
  | error e => trivial
  | ok a => exact hf a

theorem all_send {c : C} (h : Q c) : All Q (send c : Proc C R ε (R c)) := ⟨h, fun _ => trivial⟩

/-- A command whose reply a program goes on with. -/
theorem all_send_bind {c : C} {f : R c → Proc C R ε β} (h : Q c) (hf : ∀ r, All Q (f r)) :
    All Q (send c >>= f) :=
  all_bind (all_send h) hf

end Proc

/-! ## One program -/

section
variable (Exec : (c : C) → σ → R c → σ → Prop)

/-- A program that runs alone: its result and the store it leaves. -/
inductive Runs : Prog C R α → σ → α → σ → Prop where
  | ret {a : α} {s : σ} : Runs (.ret a) s a s
  | cmd {c : C} {k : R c → Prog C R α} {s s' s'' : σ} {r : R c} {a : α} :
      Exec c s r s' → Runs (k r) s' a s'' → Runs (.cmd c k) s a s''

end

section
variable {Exec : (c : C) → σ → R c → σ → Prop}

theorem Runs.mono {Exec' : (c : C) → σ → R c → σ → Prop}
    (hexec : ∀ c s r s', Exec c s r s' → Exec' c s r s') {p : Prog C R α} {s s' : σ} {a : α}
    (h : Runs Exec p s a s') : Runs Exec' p s a s' := by
  induction h with
  | ret => exact .ret
  | cmd h _ ih => exact .cmd (hexec _ _ _ _ h) ih

theorem runs_keeps {Q : C → Prop} {I : σ → Prop}
    (hcmd : ∀ c s r s', Q c → I s → Exec c s r s' → I s') {p : Prog C R α} {s s' : σ} {a : α}
    (hp : p.All Q) (hs : I s) (h : Runs Exec p s a s') : I s' := by
  induction h with
  | ret => exact hs
  | cmd hexec _ ih => exact ih (hp.2 _) (hcmd _ _ _ _ hp.1 hs hexec)

theorem runs_bind {p : Prog C R α} {f : α → Prog C R β} {s s' s'' : σ} {a : α} {b : β}
    (hp : Runs Exec p s a s') (hf : Runs Exec (f a) s' b s'') : Runs Exec (p >>= f) s b s'' := by
  induction hp with
  | ret => exact hf
  | cmd hexec _ ih => exact .cmd hexec (ih hf)

theorem runs_bind_iff {p : Prog C R α} {f : α → Prog C R β} {s s'' : σ} {b : β} :
    Runs Exec (p >>= f) s b s'' ↔ ∃ a s', Runs Exec p s a s' ∧ Runs Exec (f a) s' b s'' := by
  constructor
  · intro h
    induction p generalizing s with
    | ret a => exact ⟨a, s, .ret, h⟩
    | cmd c k ih =>
      cases h with
      | cmd hexec hrest =>
        obtain ⟨a, s', hk, hf⟩ := ih _ hrest
        exact ⟨a, s', .cmd hexec hk, hf⟩
  · rintro ⟨a, s', hp, hf⟩
    exact runs_bind hp hf

end

section
variable (Exec : (c : C) → σ → R c → σ → Prop)

/-- The first commands of a program that runs alone: what is left of it, and the store. -/
inductive Advances : Prog C R α → σ → Prog C R α → σ → Prop where
  | refl {p : Prog C R α} {s : σ} : Advances p s p s
  | cmd {c : C} {k : R c → Prog C R α} {p : Prog C R α} {s s' s'' : σ} {r : R c} :
      Exec c s r s' → Advances (k r) s' p s'' → Advances (.cmd c k) s p s''

end

theorem Runs.advances {Exec : (c : C) → σ → R c → σ → Prop} {p : Prog C R α} {s s' : σ} {a : α}
    (h : Runs Exec p s a s') : Advances Exec p s (.ret a) s' := by
  induction h with
  | ret => exact .refl
  | cmd hexec _ ih => exact .cmd hexec ih

/-! ## Pre- and postconditions of a program that runs alone -/

namespace Proc

theorem runs_bind {Exec : (c : C) → σ → R c → σ → Prop} {p : Proc C R ε α} {f : α → Proc C R ε β}
    {s s' s'' : σ} {a : α} {b : Except ε β} (hp : Runs Exec p.run s (.ok a) s')
    (hf : Runs Exec (f a).run s' b s'') : Runs Exec (p >>= f).run s b s'' :=
  Programs.runs_bind hp hf

section
variable {Exec : (c : C) → σ → R c → σ → Prop} {s s' : σ}

theorem runs_pure_iff {a : α} {b : Except ε α} :
    Runs Exec (pure a : Proc C R ε α).run s b s' ↔ b = .ok a ∧ s' = s := by
  constructor
  · intro h
    cases h with
    | ret => exact ⟨rfl, rfl⟩
  · rintro ⟨rfl, rfl⟩
    exact .ret

theorem runs_throw_iff {e : ε} {b : Except ε α} :
    Runs Exec (throw e : Proc C R ε α).run s b s' ↔ b = .error e ∧ s' = s := by
  constructor
  · intro h
    cases h with
    | ret => exact ⟨rfl, rfl⟩
  · rintro ⟨rfl, rfl⟩
    exact .ret

theorem runs_send_bind_iff {c : C} {f : R c → Proc C R ε β} {b : Except ε β} :
    Runs Exec (send c >>= f).run s b s' ↔ ∃ r t, Exec c s r t ∧ Runs Exec (f r).run t b s' := by
  constructor
  · intro h
    cases h with
    | cmd hexec hrest => exact ⟨_, _, hexec, hrest⟩
  · rintro ⟨r, t, hexec, hrest⟩
    exact .cmd hexec hrest

/-- A program of which it is known how it runs. -/
theorem runs_bind_ok_iff {p : Proc C R ε α} {f : α → Proc C R ε β} {a : α} {t : σ} {b : Except ε β}
    (hp : ∀ a' t', Runs Exec p.run s a' t' ↔ a' = .ok a ∧ t' = t) :
    Runs Exec (p >>= f).run s b s' ↔ Runs Exec (f a).run t b s' := by
  constructor
  · intro h
    obtain ⟨a', t', hprun, hfrun⟩ := runs_bind_iff.1 h
    obtain ⟨rfl, rfl⟩ := (hp a' t').1 hprun
    exact hfrun
  · intro h
    exact Programs.runs_bind ((hp _ _).2 ⟨rfl, rfl⟩) h

end

/-- A program for each element of a list, none of which changes the store. -/
theorem runs_mapM_iff {Exec : (c : C) → σ → R c → σ → Prop} {s : σ} {f : α → Proc C R ε β} {g : α → β}
    (hf : ∀ a b t, Runs Exec (f a).run s b t ↔ b = .ok (g a) ∧ t = s) (l : List α)
    {b : Except ε (List β)} {t : σ} :
    Runs Exec (l.mapM f).run s b t ↔ b = .ok (l.map g) ∧ t = s := by
  induction l generalizing b t with
  | nil => exact runs_pure_iff
  | cons a l ih =>
    rw [List.mapM_cons]
    refine (runs_bind_ok_iff (hf a)).trans ?_
    refine (runs_bind_ok_iff fun _ _ => ih).trans ?_
    exact runs_pure_iff

/-- Every run of `p` from a store in `P` returns or raises in `M`. -/
def Triple (Exec : (c : C) → σ → R c → σ → Prop) (P : σ → Prop) (p : Proc C R ε α)
    (M : Except ε α → σ → Prop) : Prop :=
  ∀ s a s', P s → Runs Exec p.run s a s' → M a s'

section
variable {Exec : (c : C) → σ → R c → σ → Prop} {P : σ → Prop}

theorem triple_pure {a : α} {M : Except ε α → σ → Prop} (h : ∀ s, P s → M (.ok a) s) :
    Triple Exec P (pure a : Proc C R ε α) M := by
  intro s b s' hs hrun
  cases hrun with
  | ret => exact h s hs

theorem triple_throw {e : ε} {M : Except ε α → σ → Prop} (h : ∀ s, P s → M (.error e) s) :
    Triple Exec P (throw e : Proc C R ε α) M := by
  intro s b s' hs hrun
  cases hrun with
  | ret => exact h s hs

theorem triple_bind {p : Proc C R ε α} {f : α → Proc C R ε β} {K : Except ε α → σ → Prop}
    {M : Except ε β → σ → Prop} (hp : Triple Exec P p K)
    (herror : ∀ e s, K (.error e) s → M (.error e) s)
    (hf : ∀ a, Triple Exec (K (.ok a)) (f a) M) : Triple Exec P (p >>= f) M := by
  intro s b s' hs hrun
  obtain ⟨a, t, hprun, hfrun⟩ := runs_bind_iff.1 hrun
  have hk := hp s a t hs hprun
  cases a with
  | error e =>
    cases hfrun with
    | ret => exact herror e _ hk
  | ok a => exact hf a t b s' hk hfrun

theorem triple_send_bind {c : C} {f : R c → Proc C R ε β} {K : R c → σ → Prop}
    {M : Except ε β → σ → Prop} (hc : ∀ s r s', P s → Exec c s r s' → K r s')
    (hf : ∀ r, Triple Exec (K r) (f r) M) : Triple Exec P (send c >>= f) M := by
  intro s b s' hs hrun
  cases hrun with
  | cmd hexec hrest => exact hf _ _ b s' (hc s _ _ hs hexec) hrest

theorem Triple.weaken {p : Proc C R ε α} {P' : σ → Prop} {M M' : Except ε α → σ → Prop}
    (h : Triple Exec P p M) (hpre : ∀ s, P' s → P s) (hpost : ∀ a s, M a s → M' a s) :
    Triple Exec P' p M' :=
  fun s a s' hs hrun => hpost a s' (h s a s' (hpre s hs) hrun)

theorem Triple.restrict {Exec' : (c : C) → σ → R c → σ → Prop} {p : Proc C R ε α}
    {M : Except ε α → σ → Prop} (h : Triple Exec P p M)
    (hexec : ∀ c s r s', Exec' c s r s' → Exec c s r s') : Triple Exec' P p M :=
  fun s a s' hs hrun => h s a s' hs (hrun.mono hexec)

/-- What every command of a program keeps, the program keeps. -/
theorem triple_of_all {Q : C → Prop} {I : σ → Prop} {p : Proc C R ε α}
    (hcmd : ∀ c s r s', Q c → I s → Exec c s r s' → I s') (hp : All Q p) :
    Triple Exec I p fun _ => I :=
  fun _ _ _ hs hrun => runs_keeps hcmd hp hs hrun

end

end Proc

/-! ## Several programs -/

/-- The store, and what each caller has still to do. -/
structure State (C : Type) (R : C → Type) (α σ ι : Type) where
  store : σ
  prog : ι → Prog C R α

section
variable [DecidableEq ι] (Exec : (c : C) → σ → R c → σ → Prop) (Ok : σ → C → Prop)

/-- One command of one caller. -/
inductive Step : State C R α σ ι → State C R α σ ι → Prop where
  | cmd {S : State C R α σ ι} (i : ι) {c : C} {k : R c → Prog C R α} {r : R c} {s : σ} :
      S.prog i = .cmd c k → Ok S.store c → Exec c S.store r s →
      Step S { store := s, prog := Function.update S.prog i (k r) }

/-- What the interleavings reach whose commands all meet `Ok`. -/
def Reachable (S S' : State C R α σ ι) : Prop := Relation.ReflTransGen (Step Exec Ok) S S'

end

section
variable [DecidableEq ι] {Exec : (c : C) → σ → R c → σ → Prop} {Ok : σ → C → Prop}
  {Q : C → Prop} {S S' : State C R α σ ι}

theorem all_step (hall : ∀ i, (S.prog i).All Q) (h : Step Exec Ok S S') :
    ∀ i, (S'.prog i).All Q := by
  cases h with
  | @cmd i c k r s hprog _ _ =>
    intro j
    by_cases hj : j = i
    · subst hj
      have hi := hall j
      rw [hprog] at hi
      simpa using hi.2 r
    · simpa [hj] using hall j

theorem all_reachable (hall : ∀ i, (S.prog i).All Q) (h : Reachable Exec Ok S S') :
    ∀ i, (S'.prog i).All Q := by
  induction h with
  | refl => exact hall
  | tail _ hstep ih => exact all_step ih hstep

/-- What every command of the programs keeps. -/
theorem invariant {I : σ → Prop} (hcmd : ∀ c s r s', Q c → I s → Ok s c → Exec c s r s' → I s')
    (hall : ∀ i, (S.prog i).All Q) (hs : I S.store) (h : Reachable Exec Ok S S') : I S'.store := by
  induction h with
  | refl => exact hs
  | @tail S₁ S₂ hreach hstep ih =>
    have hall' := all_reachable hall hreach
    cases hstep with
    | cmd i hprog hok hexec =>
      have hi := hall' i
      rw [hprog] at hi
      exact hcmd _ _ _ _ hi.1 ih hok hexec

/-- How the stores before and after an interleaving are related. -/
theorem related {ρ : σ → σ → Prop} (hrefl : ∀ s, ρ s s) (htrans : ∀ s t u, ρ s t → ρ t u → ρ s u)
    (hcmd : ∀ c s r s', Q c → Ok s c → Exec c s r s' → ρ s s') (hall : ∀ i, (S.prog i).All Q)
    (h : Reachable Exec Ok S S') : ρ S.store S'.store := by
  refine invariant (I := fun s => ρ S.store s) ?_ hall (hrefl _) h
  intro c s r s' hq hs hok hexec
  exact htrans _ _ _ hs (hcmd c s r s' hq hok hexec)

/-- A caller that nobody interrupts for a while, and whose commands meet the condition. -/
theorem reachable_of_advances {p p' : Prog C R α} {s s' : σ}
    (h : Advances (fun c s r s' => Ok s c ∧ Exec c s r s') p s p' s') :
    ∀ {S : State C R α σ ι} {i : ι}, S.prog i = p → S.store = s →
      Reachable Exec Ok S { store := s', prog := Function.update S.prog i p' } := by
  induction h with
  | @refl p s =>
    intro S i hp hs
    have hS : S = { store := s, prog := Function.update S.prog i p } := by
      rw [← hp, Function.update_eq_self, ← hs]
    rw [← hS]
    exact .refl
  | cmd hexec _ ih =>
    intro S i hp hs
    subst hs
    have hstep : Step Exec Ok S _ := .cmd i hp hexec.1 hexec.2
    have hrest := ih (S := { store := _, prog := Function.update S.prog i _ })
      (Function.update_self i _ S.prog) rfl
    rw [Function.update_idem] at hrest
    exact (Relation.ReflTransGen.single hstep).trans hrest

/-- A caller that nobody interrupts to its end. -/
theorem reachable_of_runs {p : Prog C R α} {s s' : σ} {a : α}
    (h : Runs (fun c s r s' => Ok s c ∧ Exec c s r s') p s a s') :
    ∀ {S : State C R α σ ι} {i : ι}, S.prog i = p → S.store = s →
      Reachable Exec Ok S { store := s', prog := Function.update S.prog i (.ret a) } :=
  reachable_of_advances h.advances

end

end Lib.Programs
