import Mathlib.Data.List.Basic

/-!
# Graphs of nodes over one state

A node changes the state or fails; an edge, asked with the state it left, names the next node or ends
the run. `runFrom` runs so many nodes at most; `Runs` is a run to its end, however long.

* `Runs.unique`: a run ends in one state; `runs_next_iff`, `runs_last_iff`, `not_runs_of_error`: what its
  first node makes of it.
* `runFrom_ok_iff`: a bounded run returns this state exactly if the run ends in it after no more nodes
  than that, given a count of the nodes that are run.
-/

namespace Lib

/-- Nodes `ν` over states `σ`, with failures `ε`. -/
structure NodeGraph (σ ν ε : Type) where
  run : σ → ν → Except ε σ
  next : σ → ν → Option ν

namespace NodeGraph

variable {σ ν ε : Type} (g : NodeGraph σ ν ε)

/-- The run from a node on, of at most so many nodes; `limit` is the failure of a longer one. -/
def runFrom (limit : ε) : Nat → σ → ν → Except ε σ
  | 0, _, _ => .error limit
  | left + 1, s, node => do
    let s ← g.run s node
    match g.next s node with
    | some node => runFrom limit left s node
    | none => return s

/-- The run from a node on ends in this state. -/
inductive Runs : σ → ν → σ → Prop
  | last {s s' : σ} {node : ν} : g.run s node = .ok s' → g.next s' node = none → Runs s node s'
  | next {s s' fin : σ} {node node' : ν} : g.run s node = .ok s' → g.next s' node = some node' →
      Runs s' node' fin → Runs s node fin

variable {g} {s s' fin fin' : σ} {node node' : ν}

theorem runs_next_iff (hrun : g.run s node = .ok s') (hnext : g.next s' node = some node') :
    Runs g s node fin ↔ Runs g s' node' fin := by
  constructor
  · intro h
    cases h with
    | last hrun' hnext' =>
      cases Except.ok.inj (hrun.symm.trans hrun')
      cases hnext.symm.trans hnext'
    | next hrun' hnext' hruns =>
      cases Except.ok.inj (hrun.symm.trans hrun')
      cases Option.some.inj (hnext.symm.trans hnext')
      exact hruns
  · exact Runs.next hrun hnext

theorem runs_last_iff (hrun : g.run s node = .ok s') (hnext : g.next s' node = none) :
    Runs g s node fin ↔ fin = s' := by
  constructor
  · intro h
    cases h with
    | last hrun' _ => exact Except.ok.inj (hrun'.symm.trans hrun)
    | next hrun' hnext' _ =>
      cases Except.ok.inj (hrun.symm.trans hrun')
      cases hnext.symm.trans hnext'
  · rintro rfl
    exact Runs.last hrun hnext

theorem not_runs_of_error {e : ε} (hrun : g.run s node = .error e) : ¬ Runs g s node fin := by
  intro h
  cases h with
  | last hrun' _ => cases hrun.symm.trans hrun'
  | next hrun' _ _ => cases hrun.symm.trans hrun'

theorem Runs.unique (h : Runs g s node fin) (h' : Runs g s node fin') : fin = fin' := by
  induction h with
  | last hrun hnext => exact ((runs_last_iff hrun hnext).1 h').symm
  | next hrun hnext _ ih => exact ih ((runs_next_iff hrun hnext).1 h')

/-- `count` counts the nodes that were run. -/
theorem runFrom_ok_iff {limit : ε} {count : σ → Nat}
    (hcount : ∀ {s s' : σ} {node : ν}, g.run s node = .ok s' → count s' = count s + 1) {left : Nat} :
    g.runFrom limit left s node = .ok fin ↔ Runs g s node fin ∧ count fin ≤ count s + left := by
  induction left generalizing s node with
  | zero =>
    have hlonger : ∀ {s node}, Runs g s node fin → count s < count fin := by
      intro s node h
      induction h with
      | last hrun _ =>
        rw [hcount hrun]
        omega
      | next hrun _ _ ih =>
        rw [hcount hrun] at ih
        omega
    constructor
    · intro h
      cases h
    · rintro ⟨h, hle⟩
      have := hlonger h
      omega
  | succ left ih =>
    cases hrun : g.run s node with
    | error e =>
      simp [runFrom, hrun, not_runs_of_error hrun, bind, Except.bind]
    | ok s' =>
      have hs' := hcount hrun
      cases hnext : g.next s' node with
      | none =>
        simp only [runFrom, hrun, hnext, bind, Except.bind, pure, Except.pure, Except.ok.injEq,
          runs_last_iff hrun hnext]
        constructor
        · rintro rfl
          exact ⟨rfl, by omega⟩
        · exact fun h => h.1.symm
      | some node' =>
        simp only [runFrom, hrun, hnext, bind, Except.bind, runs_next_iff hrun hnext]
        rw [ih, hs']
        have : count s + 1 + left = count s + (left + 1) := by omega
        rw [this]

end NodeGraph

end Lib
