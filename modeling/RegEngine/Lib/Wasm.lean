import Mathlib.Algebra.Group.Nat.Defs
import Mathlib.Data.List.Basic
import Mathlib.Logic.Function.Basic

/-!
# WebAssembly words, memory and loops

32-bit words, a linear memory of bytes whose accesses trap outside of it (`none`), and the loop that
counts a word up to a bound.

* `loop_rule`: an invariant of the body holds after the loop.
* `word_putWord`: a word is read as it was written.
* `storeBytes_spec`: bytes stored one behind the other.
* `Agree.trans`, `Agree.word`, `Agree.slice`: what two memories have in common outside some addresses.
-/

namespace Lib.Wasm

abbrev I32 := BitVec 32

/-- `i32.shl`. -/
def shl (x n : I32) : I32 := x <<< (n.toNat % 32)

/-- `i32.shr_u`. -/
def shrU (x n : I32) : I32 := x >>> (n.toNat % 32)

/-! ## Memory -/

structure Memory where
  size : Nat
  bytes : Nat → BitVec 8

namespace Memory

/-- `i32.load8_u`. -/
def load8 (m : Memory) (p : I32) : Option I32 :=
  if p.toNat < m.size then some ((m.bytes p.toNat).setWidth 32) else none

/-- The memory with a byte written at an address. -/
def putByte (m : Memory) (p : Nat) (v : BitVec 8) : Memory where
  size := m.size
  bytes := Function.update m.bytes p v

/-- `i32.store8`. -/
def store8 (m : Memory) (p v : I32) : Option Memory :=
  if p.toNat < m.size then some (m.putByte p.toNat (v.setWidth 8)) else none

/-- The four bytes at an address, the first of them least significant. -/
def word (m : Memory) (p : Nat) : I32 :=
  m.bytes (p + 3) ++ m.bytes (p + 2) ++ m.bytes (p + 1) ++ m.bytes p

/-- `i32.load`. -/
def load (m : Memory) (p : I32) : Option I32 :=
  if p.toNat + 4 ≤ m.size then some (m.word p.toNat) else none

/-- The memory with a word written at an address. -/
def putWord (m : Memory) (p : Nat) (v : I32) : Memory where
  size := m.size
  bytes := fun q =>
    if q = p then v.extractLsb' 0 8
    else if q = p + 1 then v.extractLsb' 8 8
    else if q = p + 2 then v.extractLsb' 16 8
    else if q = p + 3 then v.extractLsb' 24 8
    else m.bytes q

/-- `i32.store`. -/
def store (m : Memory) (p v : I32) : Option Memory :=
  if p.toNat + 4 ≤ m.size then some (m.putWord p.toNat v) else none

/-- The bytes from an address on. -/
def slice (m : Memory) (p n : Nat) : List (BitVec 8) := (List.range n).map fun i => m.bytes (p + i)

/-- Bytes written from an address on, by the host. -/
def set (m : Memory) (p : Nat) (content : List (BitVec 8)) : Memory where
  size := m.size
  bytes := fun q => if p ≤ q then content.getD (q - p) (m.bytes q) else m.bytes q

variable {m m' m'' : Memory} {p q v : I32}

theorem store8_eq (h : p.toNat < m.size) : m.store8 p v = some (m.putByte p.toNat (v.setWidth 8)) :=
  if_pos h

theorem store_eq (h : p.toNat + 4 ≤ m.size) : m.store p v = some (m.putWord p.toNat v) := if_pos h

theorem load8_eq (h : p.toNat < m.size) : m.load8 p = some ((m.bytes p.toNat).setWidth 32) := if_pos h

theorem load_eq (h : p.toNat + 4 ≤ m.size) : m.load p = some (m.word p.toNat) := if_pos h

/-- A word put together from its bytes. -/
theorem word_putWord (m : Memory) (p : Nat) (v : I32) : (m.putWord p v).word p = v := by
  have h1 : p + 1 ≠ p := by omega
  have h2 : p + 2 ≠ p ∧ p + 2 ≠ p + 1 := by omega
  have h3 : p + 3 ≠ p ∧ p + 3 ≠ p + 1 ∧ p + 3 ≠ p + 2 := by omega
  simp only [word, putWord, h1, h2.1, h2.2, h3.1, h3.2.1, h3.2.2, if_false, if_true]
  apply BitVec.eq_of_getLsbD_eq
  intro i hi
  simp only [BitVec.getLsbD_append, BitVec.getLsbD_extractLsb']
  by_cases ha : i < 8
  · simp [ha]
  · by_cases hb : i < 16
    · have : i - 8 < 8 := by omega
      have hi' : 8 + (i - 8) = i := by omega
      simp [ha, this, hi']
    · by_cases hc : i < 24
      · have h8 : ¬ i - 8 < 8 := by omega
        have h16 : i - 8 - 8 < 8 := by omega
        have hi' : 16 + (i - 8 - 8) = i := by omega
        simp [ha, h8, h16, hi']
      · have h8 : ¬ i - 8 < 8 := by omega
        have h16 : ¬ i - 8 - 8 < 8 := by omega
        have h24 : i - 8 - 8 - 8 < 8 := by omega
        have hi' : 24 + (i - 8 - 8 - 8) = i := by omega
        simp [ha, h8, h16, h24, hi']

/-- A word is read as its bytes are. -/
theorem word_congr {p : Nat} (h : ∀ i, i < 4 → m.bytes (p + i) = m'.bytes (p + i)) :
    m.word p = m'.word p := by
  have h0 : m.bytes p = m'.bytes p := h 0 (by decide)
  rw [word, word, h0, h 1 (by decide), h 2 (by decide), h 3 (by decide)]

/-! ## What a run leaves alone -/

/-- The two memories have one size and differ only at the given addresses. -/
structure Agree (m m' : Memory) (changed : Nat → Prop) : Prop where
  size : m'.size = m.size
  bytes : ∀ q, ¬ changed q → m'.bytes q = m.bytes q

variable {c c' : Nat → Prop}

theorem Agree.refl (m : Memory) (c : Nat → Prop) : Agree m m c := ⟨rfl, fun _ _ => rfl⟩

theorem Agree.trans (h : Agree m m' c) (h' : Agree m' m'' c) : Agree m m'' c where
  size := h'.size.trans h.size
  bytes := fun q hq => (h'.bytes q hq).trans (h.bytes q hq)

theorem Agree.mono (h : Agree m m' c) (hc : ∀ q, c q → c' q) : Agree m m' c' where
  size := h.size
  bytes := fun q hq => h.bytes q fun hc' => hq (hc q hc')

theorem Agree.word {p : Nat} (h : Agree m m' c) (hp : ∀ i, i < 4 → ¬ c (p + i)) :
    m'.word p = m.word p := word_congr fun i hi => h.bytes _ (hp i hi)

theorem Agree.slice {p n : Nat} (h : Agree m m' c) (hp : ∀ i, i < n → ¬ c (p + i)) :
    m'.slice p n = m.slice p n :=
  List.map_congr_left fun i hi => h.bytes _ (hp i (List.mem_range.1 hi))

theorem agree_putByte (m : Memory) (p : Nat) (v : BitVec 8) : Agree m (m.putByte p v) (· = p) where
  size := rfl
  bytes := fun q hq => by
    show Function.update m.bytes p v q = m.bytes q
    exact Function.update_of_ne hq v m.bytes

theorem agree_putWord (m : Memory) (p : Nat) (v : I32) :
    Agree m (m.putWord p v) (fun q => p ≤ q ∧ q < p + 4) where
  size := rfl
  bytes := fun q hq => by
    show ite _ _ _ = _
    rw [if_neg (by omega), if_neg (by omega), if_neg (by omega), if_neg (by omega)]

/-! ## Slices -/

@[simp] theorem length_slice (m : Memory) (p n : Nat) : (m.slice p n).length = n := by simp [slice]

theorem getElem_slice (m : Memory) (p n : Nat) {i : Nat} (h : i < (m.slice p n).length) :
    (m.slice p n)[i] = m.bytes (p + i) := by simp [slice]

theorem slice_add (m : Memory) (p n k : Nat) : m.slice p (n + k) = m.slice p n ++ m.slice (p + n) k := by
  rw [slice, List.range_add, List.map_append, List.map_map]
  exact congrArg _ (List.map_congr_left fun i _ => congrArg m.bytes (Nat.add_assoc p n i).symm)

theorem slice_one (m : Memory) (p : Nat) : m.slice p 1 = [m.bytes p] := rfl

theorem slice_set (m : Memory) (p : Nat) (content : List (BitVec 8)) :
    (m.set p content).slice p content.length = content := by
  apply List.ext_getElem
  · simp
  · intro i h h'
    rw [getElem_slice]
    simp [set, h']

theorem slice_putByte (m : Memory) (p n : Nat) (v : BitVec 8) :
    (m.putByte (p + n) v).slice p (n + 1) = m.slice p n ++ [v] := by
  have hagree := (agree_putByte m (p + n) v).slice (p := p) (n := n) fun i hi => by omega
  have hbyte : (m.putByte (p + n) v).bytes (p + n) = v := by
    show Function.update m.bytes (p + n) v (p + n) = v
    exact Function.update_self (p + n) v m.bytes
  rw [slice_add, hagree, slice_one, hbyte]

/-- `i32.store8` of one value after the other, the first at `p` plus `j`. -/
def storeBytes (m : Memory) (p : I32) : Nat → List I32 → Option Memory
  | _, [] => some m
  | j, v :: vs => (m.store8 (p + BitVec.ofNat 32 j) v).bind fun m => storeBytes m p (j + 1) vs

/-- **Bytes stored one behind the other.** -/
theorem storeBytes_spec (p : I32) (vs : List I32) : ∀ (m : Memory) (j : Nat),
    p.toNat + j + vs.length ≤ m.size → p.toNat + j + vs.length ≤ 2 ^ 32 →
    ∃ m', m.storeBytes p j vs = some m' ∧
      Agree m m' (fun q => p.toNat + j ≤ q ∧ q < p.toNat + j + vs.length) ∧
      m'.slice p.toNat (j + vs.length) = m.slice p.toNat j ++ vs.map (BitVec.setWidth 8) := by
  induction vs with
  | nil =>
    intro m j _ _
    exact ⟨m, rfl, Agree.refl _ _, by simp⟩
  | cons v vs ih =>
    intro m j hsize hmax
    rw [List.length_cons] at hsize hmax
    have haddr : (p + BitVec.ofNat 32 j).toNat = p.toNat + j := by
      rw [BitVec.toNat_add, BitVec.toNat_ofNat]
      omega
    have hstore := store8_eq (m := m) (v := v) (p := p + BitVec.ofNat 32 j) (by omega)
    rw [haddr] at hstore
    obtain ⟨m', hrest, hagree, hslice⟩ := ih (m.putByte (p.toNat + j) (v.setWidth 8)) (j + 1)
      (show _ ≤ m.size by omega) (by omega)
    refine ⟨m', ?_, ?_, ?_⟩
    · rw [storeBytes, hstore]
      exact hrest
    · rw [List.length_cons]
      exact Agree.trans ((agree_putByte m _ _).mono fun q hq => by omega)
        (hagree.mono fun q hq => by omega)
    · rw [List.length_cons, show j + (vs.length + 1) = j + 1 + vs.length by omega, hslice, slice_putByte,
        List.append_assoc]
      rfl

end Memory

/-! ## Loops -/

variable {σ : Type}

/-- A block around a loop that leaves when the counter has reached the bound, runs the body and adds
one to the counter. -/
def loop (bound : I32) (body : I32 → σ → Option σ) (i : I32) (s : σ) : Option σ :=
  if bound ≤ i then some s else (body i s).bind (loop bound body (i + 1))
termination_by bound.toNat - i.toNat
decreasing_by
  rename_i hlt
  have hlt' : i.toNat < bound.toNat := by
    rw [BitVec.not_le] at hlt
    exact hlt
  have hsucc : (i + 1).toNat = i.toNat + 1 := by
    rw [BitVec.toNat_add]
    have := bound.isLt
    exact Nat.mod_eq_of_lt (by simp; omega)
  omega

theorem toNat_succ {i bound : I32} (h : i.toNat < bound.toNat) : (i + 1).toNat = i.toNat + 1 := by
  rw [BitVec.toNat_add]
  have := bound.isLt
  exact Nat.mod_eq_of_lt (by simp; omega)

/-- **The rule of the loop**: what each pass carries from one counter to the next holds at the end. -/
theorem loop_rule (bound : I32) (body : I32 → σ → Option σ) (inv : Nat → σ → Prop)
    (hbody : ∀ i s, i.toNat < bound.toNat → inv i.toNat s →
      ∃ s', body i s = some s' ∧ inv (i.toNat + 1) s')
    {i : I32} {s : σ} (hi : i.toNat ≤ bound.toNat) (h : inv i.toNat s) :
    ∃ s', loop bound body i s = some s' ∧ inv bound.toNat s' := by
  induction hn : bound.toNat - i.toNat generalizing i s with
  | zero =>
    have heq : i.toNat = bound.toNat := by omega
    rw [loop, if_pos (by rw [BitVec.le_def]; omega)]
    exact ⟨s, rfl, heq ▸ h⟩
  | succ n ih =>
    have hlt : i.toNat < bound.toNat := by omega
    obtain ⟨s', hs', hinv⟩ := hbody i s hlt h
    have hsucc := toNat_succ hlt
    rw [loop, if_neg (by rw [BitVec.le_def]; omega), hs', Option.bind_some]
    exact ih (by omega) (hsucc ▸ hinv) (by omega)

end Lib.Wasm
