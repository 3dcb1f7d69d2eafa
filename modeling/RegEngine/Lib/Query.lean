import Mathlib.Data.List.Dedup
import Mathlib.Data.List.Nodup
import Mathlib.Data.List.Basic
import Mathlib.Data.List.Induction

/-!
# Joins, groups and dictionaries

What a query of a database does with lists of rows: an inner join, a `GROUP BY` with an aggregate, and
a dictionary made from the pairs that come back.

* `lookup_ofItems`: assigning the pairs one by one makes that dictionary; `dict_keeps_iff`: no pair is lost exactly
  when one key has one value.
* `getD_dict_groupBy`: the aggregate of one group, with the aggregate of no rows as default.
* `filter_join`, `countP_join`: a count over a join on a key is a count over the rows whose key is
  joined.
-/

namespace Lib.Query

variable {α β κ γ : Type}

/-- The pairs of rows that satisfy `on`. -/
def join (l : List α) (r : List β) (on : α → β → Bool) : List (α × β) :=
  l.flatMap fun a => (r.filter (on a)).map fun b => (a, b)

/-- A dictionary made of these pairs: the last value of a key stays. -/
def dict [DecidableEq κ] (pairs : List (κ × γ)) (k : κ) : Option γ :=
  (pairs.reverse.find? fun p => p.1 = k).map (·.2)

/-- The value under a key of a dictionary that is kept in the order of insertion. -/
def lookup [DecidableEq κ] (items : List (κ × γ)) (k : κ) : Option γ := (items.find? fun p => p.1 = k).map (·.2)

/-- `d[k] = v`: in place, or behind the other items. -/
def setItem [DecidableEq κ] (items : List (κ × γ)) (k : κ) (v : γ) : List (κ × γ) :=
  if k ∈ items.map (·.1) then items.map fun p => if p.1 = k then (k, v) else p else items ++ [(k, v)]

/-- The assignments of these pairs, one by one, to an empty dictionary. -/
def ofItems [DecidableEq κ] (pairs : List (κ × γ)) : List (κ × γ) :=
  pairs.foldl (fun items p => setItem items p.1 p.2) []

/-- One pair for each key that occurs, with the aggregate of its rows. -/
def groupBy [DecidableEq κ] (key : α → κ) (aggregate : List α → γ) (l : List α) : List (κ × γ) :=
  (l.map key).dedup.map fun k => (k, aggregate (l.filter fun a => key a = k))

section
variable [DecidableEq κ]

/-- A key whose pairs all have one value. -/
theorem dict_eq_some {pairs : List (κ × γ)} {k : κ} {c : γ} (hmem : (k, c) ∈ pairs)
    (hall : ∀ p ∈ pairs, p.1 = k → p.2 = c) : dict pairs k = some c := by
  obtain ⟨p, hp⟩ := Option.isSome_iff_exists.1 (List.find?_isSome.2
    ⟨(k, c), List.mem_reverse.2 hmem, by simp⟩ : (pairs.reverse.find? fun p => p.1 = k).isSome)
  have hk : p.1 = k := by simpa using List.find?_some hp
  rw [dict, hp, Option.map_some, hall p (List.mem_reverse.1 (List.mem_of_find?_eq_some hp)) hk]

theorem dict_eq_none {pairs : List (κ × γ)} {k : κ} (h : ∀ p ∈ pairs, p.1 ≠ k) :
    dict pairs k = none := by
  rw [dict, Option.map_eq_none_iff, List.find?_eq_none]
  intro p hp
  simpa using h p (List.mem_reverse.1 hp)

/-- A value of the dictionary is one that came in under its key. -/
theorem mem_of_dict_eq_some {pairs : List (κ × γ)} {k : κ} {c : γ} (h : dict pairs k = some c) :
    (k, c) ∈ pairs := by
  obtain ⟨p, hp, rfl⟩ := Option.map_eq_some_iff.1 h
  obtain rfl : p.1 = k := by simpa using List.find?_some hp
  exact List.mem_reverse.1 (List.mem_of_find?_eq_some hp)

/-- A key that came in has a value. -/
theorem exists_dict_eq_some {pairs : List (κ × γ)} {p : κ × γ} (h : p ∈ pairs) :
    ∃ c, dict pairs p.1 = some c := by
  obtain ⟨q, hq⟩ := Option.isSome_iff_exists.1 (List.find?_isSome.2
    ⟨p, List.mem_reverse.2 h, by simp⟩ : (pairs.reverse.find? fun q => q.1 = p.1).isSome)
  exact ⟨q.2, by rw [dict, hq, Option.map_some]⟩

theorem dict_concat (pairs : List (κ × γ)) (p : κ × γ) (k : κ) :
    dict (pairs ++ [p]) k = if p.1 = k then some p.2 else dict pairs k := by
  by_cases h : p.1 = k <;> simp [dict, h]

theorem dict_append (l m : List (κ × γ)) (k : κ) : dict (l ++ m) k = (dict m k).or (dict l k) := by
  simp only [dict, List.reverse_append, List.find?_append]
  cases m.reverse.find? fun p => p.1 = k <;> rfl

/-- **No pair is lost** exactly when the pairs of one key have one value. -/
theorem dict_keeps_iff {pairs : List (κ × γ)} : (∀ p ∈ pairs, dict pairs p.1 = some p.2) ↔
    ∀ p ∈ pairs, ∀ q ∈ pairs, p.1 = q.1 → p.2 = q.2 := by
  constructor
  · intro h p hp q hq hkey
    have hval := (h p hp).symm.trans ((congrArg (dict pairs) hkey).trans (h q hq))
    exact Option.some.inj hval
  · intro h p hp
    exact dict_eq_some hp fun q hq hkey => h q hq p hp hkey

theorem map_fst_setItem (items : List (κ × γ)) (k : κ) (v : γ) :
    (setItem items k v).map (·.1) = if k ∈ items.map (·.1) then items.map (·.1) else items.map (·.1) ++ [k] := by
  unfold setItem
  split
  · rw [List.map_map]
    refine List.map_congr_left fun p _ => ?_
    by_cases h : p.1 = k <;> simp [h]
  · rw [List.map_append]
    rfl

theorem nodup_setItem {items : List (κ × γ)} (h : (items.map (·.1)).Nodup) (k : κ) (v : γ) :
    ((setItem items k v).map (·.1)).Nodup := by
  rw [map_fst_setItem]
  split
  · exact h
  · rename_i hk
    refine List.nodup_append.2 ⟨h, List.nodup_singleton k, fun a ha b hb hab => ?_⟩
    rw [List.mem_singleton] at hb
    exact hk (hb ▸ hab ▸ ha)

theorem lookup_cons (p : κ × γ) (items : List (κ × γ)) (k : κ) :
    lookup (p :: items) k = if p.1 = k then some p.2 else lookup items k := by
  by_cases h : p.1 = k <;> simp [lookup, h]

theorem lookup_append (l m : List (κ × γ)) (k : κ) : lookup (l ++ m) k = (lookup l k).or (lookup m k) := by
  simp only [lookup, List.find?_append]
  cases l.find? fun p => p.1 = k <;> rfl

theorem lookup_eq_none_iff {items : List (κ × γ)} {k : κ} : lookup items k = none ↔ k ∉ items.map (·.1) := by
  simp only [lookup, Option.map_eq_none_iff, List.find?_eq_none, decide_eq_true_eq, List.mem_map, not_exists, not_and]

theorem mem_of_lookup_eq_some {items : List (κ × γ)} {k : κ} {v : γ} (h : lookup items k = some v) :
    (k, v) ∈ items := by
  obtain ⟨p, hp, rfl⟩ := Option.map_eq_some_iff.1 h
  obtain rfl : p.1 = k := by simpa using List.find?_some hp
  exact List.mem_of_find?_eq_some hp

theorem lookup_of_mem : ∀ {items : List (κ × γ)} {p : κ × γ}, (items.map (·.1)).Nodup → p ∈ items →
    lookup items p.1 = some p.2
  | q :: items, p, hnodup, hp => by
    rw [List.map_cons, List.nodup_cons] at hnodup
    rw [lookup_cons]
    rcases List.mem_cons.1 hp with rfl | hp
    · rw [if_pos rfl]
    · have hne : q.1 ≠ p.1 := fun h => hnodup.1 (List.mem_map.2 ⟨p, hp, h.symm⟩)
      rw [if_neg hne]
      exact lookup_of_mem hnodup.2 hp

theorem lookup_replace (items : List (κ × γ)) (k : κ) (v : γ) (k' : κ) :
    lookup (items.map fun p => if p.1 = k then (k, v) else p) k' =
      if k = k' then (lookup items k).map fun _ => v else lookup items k' := by
  induction items with
  | nil => simp [lookup]
  | cons p items ih =>
    rw [List.map_cons, lookup_cons, ih, lookup_cons, lookup_cons]
    by_cases hp : p.1 = k
    · by_cases hk : k = k'
      · simp [hp, hk]
      · simp [hp, hk]
    · by_cases hk : k = k'
      · simp [hk, hk ▸ hp]
      · simp [hp, hk]

theorem lookup_setItem (items : List (κ × γ)) (k : κ) (v : γ) (k' : κ) :
    lookup (setItem items k v) k' = if k = k' then some v else lookup items k' := by
  unfold setItem
  split
  · rename_i hk
    rw [lookup_replace]
    cases hval : lookup items k with
    | none => exact absurd hk (lookup_eq_none_iff.1 hval)
    | some u => rfl
  · rename_i hk
    rw [lookup_append, lookup_cons]
    by_cases hkk : k = k'
    · subst hkk
      rw [lookup_eq_none_iff.2 hk, if_pos rfl, if_pos rfl]
      rfl
    · rw [if_neg hkk, if_neg hkk]
      cases lookup items k' <;> rfl

/-- **Assigning pairs one by one** leaves the last value of each key, each key once. -/
theorem lookup_ofItems (pairs : List (κ × γ)) (k : κ) : lookup (ofItems pairs) k = dict pairs k := by
  induction pairs using List.reverseRecOn with
  | nil => rfl
  | append_singleton pairs p ih =>
    rw [ofItems, List.foldl_append, List.foldl_cons, List.foldl_nil, lookup_setItem, dict_concat, ← ih]
    rfl

theorem nodup_ofItems (pairs : List (κ × γ)) : ((ofItems pairs).map (·.1)).Nodup := by
  induction pairs using List.reverseRecOn with
  | nil => exact List.nodup_nil
  | append_singleton pairs p ih =>
    rw [ofItems, List.foldl_append, List.foldl_cons, List.foldl_nil]
    exact nodup_setItem ih p.1 p.2

theorem getD_dict_groupBy (key : α → κ) (aggregate : List α → γ) (l : List α) (k : κ) :
    (dict (groupBy key aggregate l) k).getD (aggregate []) =
      aggregate (l.filter fun a => key a = k) := by
  by_cases hk : k ∈ l.map key
  · have hmem : (k, aggregate (l.filter fun a => key a = k)) ∈ groupBy key aggregate l :=
      List.mem_map.2 ⟨k, List.mem_dedup.2 hk, rfl⟩
    rw [dict_eq_some hmem, Option.getD_some]
    intro p hp hpk
    obtain ⟨j, -, rfl⟩ := List.mem_map.1 hp
    rw [← hpk]
  · have hnil : l.filter (fun a => key a = k) = [] := by
      rw [List.filter_eq_nil_iff]
      intro a ha hak
      exact hk (List.mem_map.2 ⟨a, ha, by simpa using hak⟩)
    rw [dict_eq_none, hnil, Option.getD_none]
    intro p hp hpk
    obtain ⟨j, hj, rfl⟩ := List.mem_map.1 hp
    exact hk (hpk ▸ List.mem_dedup.1 hj)

end

/-! ## Joins -/

theorem filter_join (p : α → Bool) (l : List α) (r : List β) (on : α → β → Bool) :
    (join l r on).filter (fun x => p x.1) = join (l.filter p) r on := by
  induction l with
  | nil => rfl
  | cons a l ih =>
    simp only [join, List.flatMap_cons, List.filter_append] at ih ⊢
    rw [ih, List.filter_cons, List.filter_map]
    cases hp : p a with
    | true => simp [hp, Function.comp_def]
    | false => simp [hp, Function.comp_def]

/-- A count splits over two conditions that exclude each other. -/
theorem countP_or_of_disjoint {p q : β → Bool} (h : ∀ b, p b = true → q b = false) (r : List β) :
    r.countP (fun b => p b || q b) = r.countP p + r.countP q := by
  induction r with
  | nil => rfl
  | cons b r ih =>
    cases hp : p b with
    | true => simp [hp, h b hp, ih]; omega
    | false =>
      cases hq : q b with
      | true => simp [hp, hq, ih]; omega
      | false => simp [hp, hq, ih]

/-- **A count over a join on a key**: each row on the right is joined with at most one on the
left. -/
theorem countP_join [DecidableEq κ] {id : α → κ} (key : β → κ) {l : List α}
    (hnodup : (l.map id).Nodup) (q : β → Bool) (r : List β) :
    (join l r fun a b => key b = id a).countP (fun x => q x.2) =
      (r.filter fun b => key b ∈ l.map id).countP q := by
  induction l with
  | nil => simp [join]
  | cons a l ih =>
    rw [List.map_cons, List.nodup_cons] at hnodup
    have hrow : ((r.filter fun b => key b = id a).map fun b => (a, b)).countP (fun x => q x.2) =
        r.countP fun b => decide (key b = id a) && q b := by
      rw [List.countP_map, List.countP_filter]
      exact List.countP_congr fun b _ => by simp [and_comm]
    have hsplit := countP_or_of_disjoint (p := fun b => decide (key b = id a) && q b)
      (q := fun b => decide (key b ∈ l.map id) && q b) (fun b hb => ?_) r
    · rw [join, List.flatMap_cons, List.countP_append, hrow]
      have hrest := ih hnodup.2
      rw [join] at hrest
      rw [hrest, List.countP_filter, List.countP_filter]
      have hcomm : ∀ p : β → Bool, r.countP (fun b => q b && p b) = r.countP fun b => p b && q b :=
        fun p => List.countP_congr fun b _ => by simp [and_comm]
      rw [hcomm, hcomm, ← hsplit]
      exact List.countP_congr fun b _ => by
        rw [← Bool.and_or_distrib_right]
        simp
    · simp only [Bool.and_eq_true, decide_eq_true_eq] at hb
      simp [hb.1, hnodup.1]

end Lib.Query

/-!
## The first of each key

* `nodup_firstHits`: keeping the first element of each key leaves every key once.
* `find?_firstHits`: and for each key the element that the list has first.
-/

namespace Lib

variable {α κ : Type} [DecidableEq κ]

/-- The first element of each key, past the keys already seen. -/
def firstHits (key : α → κ) (seen : List κ) : List α → List α
  | [] => []
  | a :: l => if key a ∈ seen then firstHits key seen l else a :: firstHits key (key a :: seen) l

theorem notMem_firstHits {key : α → κ} {seen : List κ} {k : κ} (hk : k ∈ seen) (l : List α) :
    k ∉ (firstHits key seen l).map key := by
  induction l generalizing seen with
  | nil => simp [firstHits]
  | cons a l ih =>
    unfold firstHits
    split
    · exact ih hk
    · rename_i ha
      rw [List.map_cons, List.mem_cons, not_or]
      exact ⟨fun h => ha (h ▸ hk), ih (List.mem_cons_of_mem _ hk)⟩

theorem nodup_firstHits (key : α → κ) (seen : List κ) (l : List α) :
    ((firstHits key seen l).map key).Nodup := by
  induction l generalizing seen with
  | nil => simp [firstHits]
  | cons a l ih =>
    unfold firstHits
    split
    · exact ih seen
    · rw [List.map_cons, List.nodup_cons]
      exact ⟨notMem_firstHits List.mem_cons_self l, ih _⟩

theorem find?_firstHits {key : α → κ} {seen : List κ} {k : κ} (hk : k ∉ seen) (l : List α) :
    (firstHits key seen l).find? (key · = k) = l.find? (key · = k) := by
  induction l generalizing seen with
  | nil => rfl
  | cons a l ih =>
    unfold firstHits
    by_cases ha : key a = k
    · rw [if_neg (ha ▸ hk)]
      simp [ha]
    · split
      · rw [ih hk]
        simp [ha]
      · have hseen : k ∉ key a :: seen := by
          rw [List.mem_cons, not_or]
          exact ⟨Ne.symm ha, hk⟩
        rw [List.find?_cons_of_neg (by simpa using ha), List.find?_cons_of_neg (by simpa using ha),
          ih hseen]

/-! ### The first elements of a list in parts -/

theorem mem_of_mem_firstHits {key : α → κ} {seen : List κ} {l : List α} {a : α} (h : a ∈ firstHits key seen l) :
    a ∈ l := by
  induction l generalizing seen with
  | nil => exact h
  | cons b l ih =>
    unfold firstHits at h
    split at h
    · exact List.mem_cons_of_mem b (ih h)
    · cases List.mem_cons.1 h with
      | inl heq => exact heq ▸ List.mem_cons_self
      | inr hmem => exact List.mem_cons_of_mem b (ih hmem)

theorem mem_map_firstHits {key : α → κ} {seen : List κ} {l : List α} {k : κ} :
    k ∈ (firstHits key seen l).map key ↔ k ∈ l.map key ∧ k ∉ seen := by
  constructor
  · intro h
    refine ⟨?_, fun hk => notMem_firstHits hk l h⟩
    obtain ⟨a, ha, rfl⟩ := List.mem_map.1 h
    exact List.mem_map_of_mem (mem_of_mem_firstHits ha)
  · intro ⟨hmem, hseen⟩
    obtain ⟨a, ha, rfl⟩ := List.mem_map.1 hmem
    have hfind : (firstHits key seen l).find? (key · = key a) ≠ none := by
      rw [find?_firstHits hseen, Ne, List.find?_eq_none]
      exact fun h => h a ha (by simp)
    obtain ⟨b, hb⟩ := Option.ne_none_iff_exists'.1 hfind
    have hkey : key b = key a := by simpa using List.find?_some hb
    exact hkey ▸ List.mem_map_of_mem (List.mem_of_find?_eq_some hb)

/-- Elements whose keys were seen add nothing. -/
theorem firstHits_append_of_seen {key : α → κ} {seen : List κ} {l : List α} (h : ∀ a ∈ l, key a ∈ seen)
    (l' : List α) : firstHits key seen (l ++ l') = firstHits key seen l' := by
  induction l with
  | nil => rfl
  | cons a l ih =>
    obtain ⟨ha, hl⟩ := List.forall_mem_cons.1 h
    rw [List.cons_append, firstHits, if_pos ha, ih hl]

/-- Only what was seen of the keys of the list matters. -/
theorem firstHits_congr {key : α → κ} {seen seen' : List κ} {l : List α}
    (h : ∀ a ∈ l, (key a ∈ seen ↔ key a ∈ seen')) : firstHits key seen l = firstHits key seen' l := by
  induction l generalizing seen seen' with
  | nil => rfl
  | cons a l ih =>
    obtain ⟨ha, hl⟩ := List.forall_mem_cons.1 h
    have hseen : ∀ b ∈ l, (key b ∈ key a :: seen ↔ key b ∈ key a :: seen') := fun b hb => by
      rw [List.mem_cons, List.mem_cons, hl b hb]
    simp only [firstHits, ha, ih hl, ih hseen]

/-- Elements of one key, which the rest does not have, come first and once. -/
theorem firstHits_append_of_key {key : α → κ} {k : κ} {a : α} {l l' : List α}
    (hl : ∀ b ∈ a :: l, key b = k) (hl' : ∀ b ∈ l', key b ≠ k) :
    firstHits key [] (a :: l ++ l') = a :: firstHits key [] l' := by
  obtain ⟨ha, hl⟩ := List.forall_mem_cons.1 hl
  rw [List.cons_append, firstHits, if_neg List.not_mem_nil,
    firstHits_append_of_seen fun b hb => by rw [ha, hl b hb]; exact List.mem_cons_self]
  refine congrArg _ (firstHits_congr fun b hb => iff_of_false ?_ List.not_mem_nil)
  rw [ha, List.mem_singleton]
  exact hl' b hb

end Lib
