import Mathlib.Data.List.Basic
import Mathlib.Data.List.Nodup

/-!
# Tables with a serial primary key

A table is a list of rows under distinct keys below the next serial number; every operation keeps
that, so a row is found by its key (`get?_eq_some_iff`).

* `modify` changes rows in place, `update` one of them; `insert` adds a row under the next number;
  `delete` removes rows.
* `select_eq_nil_or_singleton`: what a query on unique columns finds.
* `get?_modify`, `get?_update`, `get?_insert`, `get?_delete`: what is found after each.
-/

namespace Lib

/-- Rows under distinct keys below `next`. -/
structure Table (α : Type) where
  rows : List (Nat × α)
  next : Nat
  nodup : (rows.map (·.1)).Nodup
  bound : ∀ r ∈ rows, r.1 < next

namespace Table

variable {α : Type}

def empty : Table α where
  rows := []
  next := 1
  nodup := List.nodup_nil
  bound := by simp

/-- The row under a key. -/
def get? (t : Table α) (k : Nat) : Option α := (t.rows.find? fun r => r.1 = k).map (·.2)

/-- The rows that satisfy `p`, in order. -/
def select (t : Table α) (p : α → Bool) : List (Nat × α) := t.rows.filter fun r => p r.2

/-- Every row changed by `f`. -/
def modify (t : Table α) (f : Nat → α → α) : Table α where
  rows := t.rows.map fun r => (r.1, f r.1 r.2)
  next := t.next
  nodup := by
    rw [List.map_map]
    exact t.nodup
  bound := by
    intro r hr
    obtain ⟨q, hq, rfl⟩ := List.mem_map.1 hr
    exact t.bound q hq

/-- The row under `k` changed by `f`. -/
def update (t : Table α) (k : Nat) (f : α → α) : Table α :=
  t.modify fun i a => if i = k then f a else a

/-- A new row under the next key. -/
def insert (t : Table α) (a : α) : Table α where
  rows := t.rows ++ [(t.next, a)]
  next := t.next + 1
  nodup := by
    rw [List.map_append, List.nodup_append]
    refine ⟨t.nodup, by simp, ?_⟩
    rintro k hk _ hl rfl
    obtain ⟨r, hr, rfl⟩ := List.mem_map.1 hk
    have := t.bound r hr
    simp only [List.map_cons, List.map_nil, List.mem_singleton] at hl
    omega
  bound := by
    intro r hr
    rcases List.mem_append.1 hr with hr | hr
    · exact Nat.lt_succ_of_lt (t.bound r hr)
    · obtain rfl := List.mem_singleton.1 hr
      exact Nat.lt_succ_self _

/-- The rows that satisfy `p` removed. -/
def delete (t : Table α) (p : α → Bool) : Table α where
  rows := t.rows.filter fun r => !p r.2
  next := t.next
  nodup := t.nodup.sublist (List.filter_sublist.map _)
  bound := fun r hr => t.bound r (List.mem_filter.1 hr).1

theorem get?_eq_some_iff {t : Table α} {k : Nat} {a : α} :
    t.get? k = some a ↔ (k, a) ∈ t.rows := by
  simp only [get?, Option.map_eq_some_iff]
  constructor
  · rintro ⟨r, hr, rfl⟩
    obtain rfl : r.1 = k := by simpa using List.find?_some hr
    exact List.mem_of_find?_eq_some hr
  · intro h
    obtain ⟨r, hr⟩ := Option.isSome_iff_exists.1
      (List.find?_isSome.2 ⟨_, h, by simp⟩ : (t.rows.find? fun r => r.1 = k).isSome)
    have hk : r.1 = k := by simpa using List.find?_some hr
    obtain rfl := List.inj_on_of_nodup_map t.nodup (List.mem_of_find?_eq_some hr) h hk
    exact ⟨_, hr, rfl⟩

theorem mem_select {t : Table α} {p : α → Bool} {r : Nat × α} :
    r ∈ t.select p ↔ t.get? r.1 = some r.2 ∧ p r.2 = true := by
  rw [get?_eq_some_iff, select, List.mem_filter]

/-- The only row that satisfies `p`. -/
theorem get?_of_select_eq {t : Table α} {p : α → Bool} {r : Nat × α} (h : t.select p = [r]) :
    t.get? r.1 = some r.2 ∧ p r.2 = true :=
  mem_select.1 (h ▸ List.mem_singleton_self r)

/-- At most one row satisfies `p`. -/
theorem select_eq_nil_or_singleton {t : Table α} {p : α → Bool}
    (h : ∀ i j a b, t.get? i = some a → t.get? j = some b → p a = true → p b = true → i = j) :
    t.select p = [] ∨ ∃ r, t.select p = [r] := by
  match hs : t.select p with
  | [] => exact .inl rfl
  | [r] => exact .inr ⟨r, rfl⟩
  | q :: r :: l =>
    have hnodup : ((t.select p).map (·.1)).Nodup := t.nodup.sublist (List.filter_sublist.map _)
    have hq := mem_select.1 (hs ▸ List.mem_cons_self : q ∈ t.select p)
    have hr := mem_select.1 (hs ▸ List.mem_cons_of_mem _ List.mem_cons_self : r ∈ t.select p)
    rw [hs, List.map_cons, List.map_cons, List.nodup_cons] at hnodup
    exact absurd (h q.1 r.1 q.2 r.2 hq.1 hr.1 hq.2 hr.2 ▸ List.mem_cons_self) hnodup.1

@[simp] theorem get?_empty (k : Nat) : (empty : Table α).get? k = none := rfl

theorem get?_modify (t : Table α) (f : Nat → α → α) (k : Nat) :
    (t.modify f).get? k = (t.get? k).map (f k) := by
  refine Option.ext fun b => ?_
  rw [get?_eq_some_iff, Option.map_eq_some_iff]
  simp only [get?_eq_some_iff, modify, List.mem_map, Prod.mk.injEq]
  constructor
  · rintro ⟨⟨i, a⟩, ha, rfl, rfl⟩
    exact ⟨a, ha, rfl⟩
  · rintro ⟨a, ha, rfl⟩
    exact ⟨(k, a), ha, rfl, rfl⟩

theorem get?_update (t : Table α) (i : Nat) (f : α → α) (k : Nat) :
    (t.update i f).get? k = if k = i then (t.get? k).map f else t.get? k := by
  rw [update, get?_modify]
  split <;> simp

theorem get?_insert (t : Table α) (a : α) (k : Nat) :
    (t.insert a).get? k = if k = t.next then some a else t.get? k := by
  refine Option.ext fun b => ?_
  have hnext : ∀ c, (t.next, c) ∉ t.rows := fun c hc => Nat.lt_irrefl _ (t.bound _ hc)
  rw [get?_eq_some_iff, insert, List.mem_append, List.mem_singleton, Prod.mk.injEq]
  by_cases hk : k = t.next
  · subst hk
    simp [hnext, eq_comm]
  · simp [hk, get?_eq_some_iff]

theorem get?_insert_self (t : Table α) (a : α) : (t.insert a).get? t.next = some a := by
  rw [get?_insert, if_pos rfl]

theorem lt_next_of_get? {t : Table α} {k : Nat} {a : α} (h : t.get? k = some a) : k < t.next :=
  t.bound _ (get?_eq_some_iff.1 h)

theorem get?_insert_of_get? {t : Table α} {k : Nat} {a : α} (b : α) (h : t.get? k = some a) :
    (t.insert b).get? k = some a := by
  rw [get?_insert, if_neg (Nat.ne_of_lt (lt_next_of_get? h)), h]

/-- A row after an insertion is the new one or an old one. -/
theorem get?_insert_cases {t : Table α} {k : Nat} {a b : α} (h : (t.insert b).get? k = some a) :
    (k = t.next ∧ a = b) ∨ t.get? k = some a := by
  rw [get?_insert] at h
  split at h
  · exact .inl ⟨‹_›, (Option.some.inj h).symm⟩
  · exact .inr h

theorem get?_update_of_ne (t : Table α) {i k : Nat} (f : α → α) (h : k ≠ i) :
    (t.update i f).get? k = t.get? k := by
  rw [get?_update, if_neg h]

/-- A row after an update is a changed one or an old one. -/
theorem get?_update_cases {t : Table α} {i k : Nat} {f : α → α} {b : α}
    (h : (t.update i f).get? k = some b) :
    (k = i ∧ ∃ a, t.get? k = some a ∧ b = f a) ∨ t.get? k = some b := by
  rw [get?_update] at h
  split at h
  · obtain ⟨a, ha, rfl⟩ := Option.map_eq_some_iff.1 h
    exact .inl ⟨‹_›, a, ha, rfl⟩
  · exact .inr h

theorem get?_update_self {t : Table α} {k : Nat} {a : α} (f : α → α) (h : t.get? k = some a) :
    (t.update k f).get? k = some (f a) := by
  rw [get?_update, if_pos rfl, h, Option.map_some]

theorem get?_delete (t : Table α) (p : α → Bool) (k : Nat) :
    (t.delete p).get? k = (t.get? k).filter fun a => !p a := by
  refine Option.ext fun b => ?_
  rw [get?_eq_some_iff, Option.filter_eq_some_iff, get?_eq_some_iff, delete, List.mem_filter]

@[simp] theorem next_modify (t : Table α) (f : Nat → α → α) : (t.modify f).next = t.next := rfl

@[simp] theorem next_update (t : Table α) (k : Nat) (f : α → α) : (t.update k f).next = t.next := rfl

@[simp] theorem next_insert (t : Table α) (a : α) : (t.insert a).next = t.next + 1 := rfl

@[simp] theorem next_delete (t : Table α) (p : α → Bool) : (t.delete p).next = t.next := rfl

end Table

end Lib
