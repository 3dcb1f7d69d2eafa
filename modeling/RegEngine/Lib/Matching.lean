import Mathlib.Data.List.Nodup
import Mathlib.Data.List.Perm.Basic

/-!
# Greedy one-to-one matching

Candidates are gone through in order; one is taken when it is acceptable and neither of its sides is used.

* `nodup_greedy_left`, `nodup_greedy_right`: no side is used twice.
* `perm_append_rest`: what is picked from a list, each key once, and the rest make up the list.
-/

namespace Lib

variable {ι α β : Type} [DecidableEq α] [DecidableEq β]

/-- The candidates that are taken, past the sides that are used. -/
def greedy (acceptable : ι → Bool) (left : ι → α) (right : ι → β) (usedLeft : List α) (usedRight : List β) :
    List ι → List ι
  | [] => []
  | c :: cs =>
    if left c ∈ usedLeft ∨ right c ∈ usedRight then greedy acceptable left right usedLeft usedRight cs
    else if acceptable c then
      c :: greedy acceptable left right (left c :: usedLeft) (right c :: usedRight) cs
    else greedy acceptable left right usedLeft usedRight cs

section
variable {acceptable : ι → Bool} {left : ι → α} {right : ι → β} {usedLeft : List α} {usedRight : List β}

theorem mem_of_mem_greedy {cs : List ι} {c : ι} (h : c ∈ greedy acceptable left right usedLeft usedRight cs) :
    c ∈ cs ∧ left c ∉ usedLeft ∧ right c ∉ usedRight := by
  induction cs generalizing usedLeft usedRight with
  | nil => cases h
  | cons d cs ih =>
    unfold greedy at h
    split at h
    · exact ⟨List.mem_cons_of_mem d (ih h).1, (ih h).2⟩
    · rename_i hfree
      obtain ⟨hleft, hright⟩ := not_or.1 hfree
      split at h
      · cases List.mem_cons.1 h with
        | inl heq =>
          subst heq
          exact ⟨List.mem_cons_self, hleft, hright⟩
        | inr hmem =>
          obtain ⟨hcs, hl, hr⟩ := ih hmem
          exact ⟨List.mem_cons_of_mem d hcs, fun hu => hl (List.mem_cons_of_mem _ hu),
            fun hu => hr (List.mem_cons_of_mem _ hu)⟩
      · exact ⟨List.mem_cons_of_mem d (ih h).1, (ih h).2⟩

theorem nodup_greedy_left (cs : List ι) :
    ((greedy acceptable left right usedLeft usedRight cs).map left).Nodup := by
  induction cs generalizing usedLeft usedRight with
  | nil => exact List.nodup_nil
  | cons d cs ih =>
    unfold greedy
    split
    · exact ih
    · split
      · rw [List.map_cons, List.nodup_cons]
        refine ⟨fun h => ?_, ih⟩
        obtain ⟨c, hc, heq⟩ := List.mem_map.1 h
        exact (mem_of_mem_greedy hc).2.1 (heq ▸ List.mem_cons_self)
      · exact ih

theorem nodup_greedy_right (cs : List ι) :
    ((greedy acceptable left right usedLeft usedRight cs).map right).Nodup := by
  induction cs generalizing usedLeft usedRight with
  | nil => exact List.nodup_nil
  | cons d cs ih =>
    unfold greedy
    split
    · exact ih
    · split
      · rw [List.map_cons, List.nodup_cons]
        refine ⟨fun h => ?_, ih⟩
        obtain ⟨c, hc, heq⟩ := List.mem_map.1 h
        exact (mem_of_mem_greedy hc).2.2 (heq ▸ List.mem_cons_self)
      · exact ih

end

/-- **Nothing is lost.** -/
theorem perm_append_rest {key : ι → α} {l picked : List ι} (hl : (l.map key).Nodup)
    (hpicked : (picked.map key).Nodup) (hsub : ∀ c ∈ picked, c ∈ l) :
    (picked ++ l.filter fun c => key c ∉ picked.map key).Perm l := by
  have hmem : ∀ c, c ∈ picked ++ l.filter (fun c => key c ∉ picked.map key) ↔ c ∈ l := by
    intro c
    rw [List.mem_append, List.mem_filter]
    constructor
    · intro h
      cases h with
      | inl h => exact hsub c h
      | inr h => exact h.1
    · intro hc
      by_cases hkey : key c ∈ picked.map key
      · obtain ⟨d, hd, heq⟩ := List.mem_map.1 hkey
        have hsame : d = c := List.inj_on_of_nodup_map hl (hsub d hd) hc heq
        exact .inl (hsame ▸ hd)
      · exact .inr ⟨hc, by simpa using hkey⟩
  refine (List.perm_ext_iff_of_nodup ?_ hl.of_map).2 hmem
  rw [List.nodup_append]
  refine ⟨hpicked.of_map, hl.of_map.filter _, fun c hc d hd heq => ?_⟩
  have hnot := (List.mem_filter.1 (heq ▸ hd)).2
  exact (by simpa using hnot : key c ∉ picked.map key) (List.mem_map_of_mem hc)

end Lib
