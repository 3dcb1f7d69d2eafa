import Mathlib.Algebra.BigOperators.Group.List.Basic
import Mathlib.Algebra.Group.Basic
import Mathlib.Algebra.Order.Group.Nat
import Mathlib.Order.Basic

/-!
# A log that every entry prunes

An entry that comes in drops the entries before its own cutoff, then is appended. What the log holds
depends on the order in which the entries came (`kept`), not only on their times, since a late entry meets
a log that was pruned for, and holds, newer ones.

* `kept_concat`: what is kept when one more entry comes in.
* `total_push_iff`: the total of the log is that of the window up to the new entry exactly when the
  newer entries in the log add up to the entries that the window misses.
-/

namespace Lib.EvictingLog

variable {α T : Type} [LinearOrder T] (time : α → T) (cutoff : T → T)

/-- The log when an entry has come in. -/
def push (log : List α) (a : α) : List α := log.filter (fun e => cutoff (time a) ≤ time e) ++ [a]

/-- The entries that nothing has evicted that came in later. -/
def kept : List α → List α
  | [] => []
  | e :: l => if ∃ x ∈ l, time e < cutoff (time x) then kept l else e :: kept l

/-- The other entries. -/
def evicted : List α → List α
  | [] => []
  | e :: l => if ∃ x ∈ l, time e < cutoff (time x) then e :: evicted l else evicted l

/-- The entries from the cutoff of `a` up to `a`. -/
def window (l : List α) (a : α) : List α :=
  l.filter fun e => cutoff (time a) ≤ time e ∧ time e ≤ time a

/-- The entries after `a`. -/
def newer (l : List α) (a : α) : List α := l.filter fun e => time a < time e

variable {time cutoff}

theorem kept_concat (l : List α) (a : α) :
    kept time cutoff (l ++ [a]) = push time cutoff (kept time cutoff l) a := by
  induction l with
  | nil => simp [kept, push]
  | cons e l ih =>
    have hmem : (∃ x ∈ l ++ [a], time e < cutoff (time x)) ↔
        (∃ x ∈ l, time e < cutoff (time x)) ∨ time e < cutoff (time a) := by
      simp [or_and_right, exists_or]
    rw [List.cons_append, kept, kept, ih]
    by_cases hl : ∃ x ∈ l, time e < cutoff (time x)
    · rw [if_pos (hmem.2 (.inl hl)), if_pos hl]
    · rw [if_neg hl]
      by_cases ha : time e < cutoff (time a)
      · rw [if_pos (hmem.2 (.inr ha)), push, push, List.filter_cons_of_neg]
        simpa using ha
      · rw [if_neg fun h => (hmem.1 h).elim hl ha, push, push, List.filter_cons_of_pos,
          List.cons_append]
        simpa using ha

theorem perm_kept_evicted (l : List α) : l.Perm (kept time cutoff l ++ evicted time cutoff l) := by
  induction l with
  | nil => exact .nil
  | cons e l ih =>
    rw [kept, evicted]
    split
    · exact (ih.cons e).trans List.perm_middle.symm
    · exact ih.cons e

theorem mem_of_mem_kept {l : List α} {e : α} (h : e ∈ kept time cutoff l) : e ∈ l :=
  (perm_kept_evicted l).mem_iff.2 (List.mem_append_left _ h)

theorem evicted_lt {l : List α} {e : α} (h : e ∈ evicted time cutoff l) :
    ∃ x ∈ l, time e < cutoff (time x) := by
  induction l with
  | nil => cases h
  | cons b l ih =>
    rw [evicted] at h
    split at h
    · rename_i hb
      cases h with
      | head =>
        obtain ⟨x, hx, hlt⟩ := hb
        exact ⟨x, List.mem_cons_of_mem _ hx, hlt⟩
      | tail _ h =>
        obtain ⟨x, hx, hlt⟩ := ih h
        exact ⟨x, List.mem_cons_of_mem _ hx, hlt⟩
    · obtain ⟨x, hx, hlt⟩ := ih h
      exact ⟨x, List.mem_cons_of_mem _ hx, hlt⟩

section Totals

variable {M : Type} [AddCancelCommMonoid M]

/-- What the entries of a list add up to. -/
def total (amount : α → M) (l : List α) : M := (l.map amount).sum

variable (amount : α → M)

theorem total_append (l l' : List α) : total amount (l ++ l') = total amount l + total amount l' := by
  rw [total, List.map_append, List.sum_append]
  rfl

theorem total_perm {l l' : List α} (h : l.Perm l') : total amount l = total amount l' :=
  (h.map amount).sum_eq

/-- The entries of a list, cut in two by a property. -/
theorem total_filter (p : α → Bool) (l : List α) :
    total amount l = total amount (l.filter p) + total amount (l.filter fun e => !p e) := by
  rw [← total_append]
  exact total_perm amount (List.filter_append_perm p l).symm

theorem total_push_iff (hcutoff : ∀ t, cutoff t ≤ t) (l : List α) (a : α) :
    total amount (push time cutoff (kept time cutoff l) a) =
        total amount (window time cutoff (l ++ [a]) a) ↔
      total amount (newer time (kept time cutoff l) a) =
        total amount (window time cutoff (evicted time cutoff l) a) := by
  have hwindow : total amount (window time cutoff (l ++ [a]) a) =
      total amount (window time cutoff (kept time cutoff l) a) +
        total amount (window time cutoff (evicted time cutoff l) a) + amount a := by
    have hself : window time cutoff [a] a = [a] := by
      simp [window, hcutoff]
    have hsplit : window time cutoff (l ++ [a]) a = window time cutoff l a ++ [a] := by
      rw [window, List.filter_append]
      exact congrArg _ hself
    have hperm : (window time cutoff l a).Perm (window time cutoff (kept time cutoff l) a ++
        window time cutoff (evicted time cutoff l) a) := by
      rw [window, window, window, ← List.filter_append]
      exact (perm_kept_evicted l).filter _
    rw [hsplit, total_append, total_perm amount hperm, total_append]
    simp [total]
  have hpush : total amount (push time cutoff (kept time cutoff l) a) =
      total amount (window time cutoff (kept time cutoff l) a) +
        total amount (newer time (kept time cutoff l) a) + amount a := by
    rw [push, total_append, total_filter amount (fun e => time e ≤ time a),
      List.filter_filter, List.filter_filter]
    have hold : ((kept time cutoff l).filter fun e =>
        (decide (time e ≤ time a)) && (decide (cutoff (time a) ≤ time e))) =
          window time cutoff (kept time cutoff l) a := by
      apply List.filter_congr
      intro e _
      simp [and_comm]
    have hnew : ((kept time cutoff l).filter fun e =>
        (!decide (time e ≤ time a)) && (decide (cutoff (time a) ≤ time e))) =
          newer time (kept time cutoff l) a := by
      apply List.filter_congr
      intro e _
      -- what is after `a` is after the cutoff of `a`
      have hle : time a < time e → cutoff (time a) ≤ time e :=
        fun h => (hcutoff _).trans h.le
      simpa [← decide_not] using hle
    rw [hold, hnew]
    simp [total]
  rw [hwindow, hpush, add_left_inj, add_right_inj]

end Totals

/-- An entry that comes in its order finds neither a newer one nor a gap. -/
theorem newer_eq_nil {l : List α} {a : α} (h : ∀ e ∈ l, time e ≤ time a) :
    newer time (kept time cutoff l) a = [] := by
  apply List.filter_eq_nil_iff.2
  intro e he
  simpa using h e (mem_of_mem_kept he)

theorem window_evicted_eq_nil (hmono : Monotone cutoff) {l : List α} {a : α}
    (h : ∀ e ∈ l, time e ≤ time a) : window time cutoff (evicted time cutoff l) a = [] := by
  apply List.filter_eq_nil_iff.2
  intro e he
  obtain ⟨x, hx, hlt⟩ := evicted_lt he
  have hbefore : time e < cutoff (time a) := hlt.trans_le (hmono (h x hx))
  simp [hbefore]

end Lib.EvictingLog
