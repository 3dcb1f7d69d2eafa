import Mathlib.Data.List.Basic

/-!
# Results of checked computations

What a successful bind (`bind_ok_iff`) and map (`map_ok_iff`) consist of. `List.mapM` in `Except`:
it succeeds exactly when the check of every member does (`exists_mapM_ok_iff`), each result being
that of its member (`zip_mapM_ok`), and its results then determine the members (`map_mapM_ok`).
-/

namespace Lib.Except

variable {ε α β : Type} {f : α → Except ε β}

theorem bind_ok_iff {x : Except ε α} {b : β} :
    x >>= f = .ok b ↔ ∃ a, x = .ok a ∧ f a = .ok b := by
  cases x with
  | error e => simp [bind, Except.bind]
  | ok a => simp [bind, Except.bind]

theorem map_ok_iff {x : Except ε α} {g : α → β} {b : β} :
    x.map g = .ok b ↔ ∃ a, x = .ok a ∧ g a = b := by
  cases x <;> simp [Except.map]

theorem eq_ok_get : ∀ {x : Except ε α} (h : x.toOption.isSome = true), x = .ok (x.toOption.get h)
  | .ok _, _ => rfl

theorem mapM_cons_ok_iff {a : α} {l : List α} {bs : List β} :
    (a :: l).mapM f = .ok bs ↔ ∃ b bs', f a = .ok b ∧ l.mapM f = .ok bs' ∧ bs = b :: bs' := by
  rw [List.mapM_cons]
  cases ha : f a with
  | error e => simp [bind, Except.bind]
  | ok b =>
    cases hl : l.mapM f with
    | error e => simp [bind, Except.bind]
    | ok bs' => simp [bind, Except.bind, pure, Except.pure, eq_comm]

/-- Each result is that of the member it stands beside. -/
theorem zip_mapM_ok : ∀ {l : List α} {bs : List β}, l.mapM f = .ok bs →
    (∀ c ∈ l.zip bs, f c.1 = .ok c.2) ∧ l.length = bs.length
  | [], bs, h => by
    obtain rfl : [] = bs := by simpa [pure, Except.pure] using h
    simp
  | a :: l, bs, h => by
    obtain ⟨b, bs', hb, hl, rfl⟩ := mapM_cons_ok_iff.1 h
    obtain ⟨hzip, hlen⟩ := zip_mapM_ok hl
    refine ⟨fun c hc => ?_, by simp [hlen]⟩
    rw [List.zip_cons_cons] at hc
    rcases List.mem_cons.1 hc with rfl | hc
    · exact hb
    · exact hzip c hc

theorem exists_zip_left {l : List α} {bs : List β} (h : l.mapM f = .ok bs) {a : α} (ha : a ∈ l) :
    ∃ c ∈ l.zip bs, c.1 = a := by
  have hfst := List.map_fst_zip (Nat.le_of_eq (zip_mapM_ok h).2)
  rw [← hfst] at ha
  exact List.mem_map.1 ha

theorem exists_zip_right {l : List α} {bs : List β} (h : l.mapM f = .ok bs) {b : β}
    (hb : b ∈ bs) : ∃ c ∈ l.zip bs, c.2 = b := by
  have hsnd := List.map_snd_zip (Nat.le_of_eq (zip_mapM_ok h).2.symm)
  rw [← hsnd] at hb
  exact List.mem_map.1 hb

/-- The members are recovered from the results by any left inverse `g` of the check. -/
theorem map_mapM_ok {g : β → α} (hg : ∀ a b, f a = .ok b → g b = a) :
    ∀ {l : List α} {bs : List β}, l.mapM f = .ok bs → bs.map g = l
  | [], bs, h => by
    obtain rfl : [] = bs := by simpa [pure, Except.pure] using h
    rfl
  | a :: l, bs, h => by
    obtain ⟨b, bs', hb, hl, rfl⟩ := mapM_cons_ok_iff.1 h
    rw [List.map_cons, hg a b hb, map_mapM_ok hg hl]

theorem exists_mapM_ok_iff : ∀ {l : List α},
    (∃ bs, l.mapM f = .ok bs) ↔ ∀ a ∈ l, ∃ b, f a = .ok b
  | [] => by simp [pure, Except.pure]
  | a :: l => by
    simp only [mapM_cons_ok_iff, List.mem_cons, forall_eq_or_imp, ← exists_mapM_ok_iff (l := l)]
    constructor
    · rintro ⟨_, b, bs', hb, hl, -⟩
      exact ⟨⟨b, hb⟩, bs', hl⟩
    · rintro ⟨⟨b, hb⟩, bs', hl⟩
      exact ⟨_, b, bs', hb, hl, rfl⟩

end Lib.Except
