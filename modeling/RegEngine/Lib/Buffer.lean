import Mathlib.Data.Nat.Bits
import Mathlib.Data.Nat.ModEq
import Mathlib.Data.List.Basic

/-!
# Little-endian numbers

A number as a given count of bytes, the least significant first.

* `leNat_leBytes`: reading back what was written gives the number, if it fits.
-/

namespace Lib

/-- The `w` bytes of a number; what does not fit is dropped. -/
def leBytes : Nat → Nat → List UInt8
  | 0, _ => []
  | w + 1, n => UInt8.ofNat n :: leBytes w (n / 256)

/-- The number that bytes stand for. -/
def leNat (bytes : List UInt8) : Nat := bytes.foldr (fun b n => b.toNat + 256 * n) 0

@[simp] theorem length_leBytes (w n : Nat) : (leBytes w n).length = w := by
  induction w generalizing n with
  | zero => rfl
  | succ w ih => rw [leBytes, List.length_cons, ih]

theorem leNat_leBytes {w n : Nat} (h : n < 256 ^ w) : leNat (leBytes w n) = n := by
  induction w generalizing n with
  | zero =>
    have hn : n = 0 := by simpa using h
    rw [hn]
    rfl
  | succ w ih =>
    have hdiv : n / 256 < 256 ^ w := by
      rw [Nat.div_lt_iff_lt_mul (by decide), ← Nat.pow_succ]
      exact h
    have hbyte : (UInt8.ofNat n).toNat = n % 256 := UInt8.toNat_ofNat'
    show (UInt8.ofNat n).toNat + 256 * leNat (leBytes w (n / 256)) = n
    rw [ih hdiv, hbyte]
    omega

theorem leNat_lt (bytes : List UInt8) : leNat bytes < 256 ^ bytes.length := by
  induction bytes with
  | nil => decide
  | cons b bytes ih =>
    have hb := b.toNat_lt
    show b.toNat + 256 * leNat bytes < 256 ^ (bytes.length + 1)
    rw [Nat.pow_succ]
    omega

/-!
## C strings

An array of bytes read up to its terminator.

* `cString_eq_some_iff`: the text is what stands before the first NUL.
* `cString_padded`: a text with zeros behind it reads back, if it has no NUL and there is one zero.
-/

/-- The text in an array; none where the array holds no NUL, and a read leaves it. -/
def cString : List UInt8 → Option (List UInt8)
  | [] => none
  | byte :: bytes => if byte = 0 then some [] else (cString bytes).map (byte :: ·)

theorem cString_eq_some_iff {bytes text : List UInt8} :
    cString bytes = some text ↔ 0 ∉ text ∧ ∃ rest, bytes = text ++ 0 :: rest := by
  induction bytes generalizing text with
  | nil => simp [cString]
  | cons byte bytes ih =>
    rw [cString]
    by_cases hbyte : byte = 0
    · rw [if_pos hbyte, Option.some.injEq]
      constructor
      · intro htext
        subst htext
        exact ⟨List.not_mem_nil, bytes, by rw [hbyte]; rfl⟩
      · intro ⟨hnul, rest, hrest⟩
        cases text with
        | nil => rfl
        | cons first text =>
          rw [List.cons_append, List.cons.injEq] at hrest
          rw [← hrest.1, hbyte] at hnul
          exact absurd List.mem_cons_self hnul
    · rw [if_neg hbyte, Option.map_eq_some_iff]
      constructor
      · intro ⟨tail, htail, htext⟩
        subst htext
        obtain ⟨hnul, rest, hrest⟩ := ih.1 htail
        refine ⟨?_, rest, by rw [hrest]; rfl⟩
        rw [List.mem_cons, not_or]
        exact ⟨fun h => hbyte h.symm, hnul⟩
      · intro ⟨hnul, rest, hrest⟩
        cases text with
        | nil =>
          rw [List.nil_append, List.cons.injEq] at hrest
          exact absurd hrest.1 hbyte
        | cons first text =>
          rw [List.cons_append, List.cons.injEq] at hrest
          have hnulText : (0 : UInt8) ∉ text := fun h => hnul (List.mem_cons_of_mem _ h)
          exact ⟨text, ih.2 ⟨hnulText, rest, hrest.2⟩, by rw [hrest.1]⟩

theorem cString_padded {text : List UInt8} {n : Nat} (hnul : 0 ∉ text) (hn : 0 < n) :
    cString (text ++ List.replicate n 0) = some text := by
  obtain ⟨m, rfl⟩ := Nat.exists_eq_succ_of_ne_zero (Nat.pos_iff_ne_zero.1 hn)
  exact cString_eq_some_iff.2 ⟨hnul, List.replicate m 0, rfl⟩

/-!
## Buffers of fixed size

Bytes are put one after the other into an array of fixed size; there is no buffer once one of them went
past the end. `Appends` says what a writer puts behind what stands there, on which its text may depend.

* `Appends.bind`: one writer after another appends one text after the other.
* `Appends.isSome_iff`: a writer stays inside the array just when its text fits.
-/

/-- What stands in an array of `capacity` bytes. -/
structure Buffer (capacity : Nat) where
  bytes : List UInt8 := []
  fits : bytes.length ≤ capacity := by exact Nat.zero_le _

namespace Buffer

variable {capacity : Nat}

/-- `buf[pos++] = byte`. -/
def put (buffer : Buffer capacity) (byte : UInt8) : Option (Buffer capacity) :=
  if h : buffer.bytes.length < capacity then
    some ⟨buffer.bytes ++ [byte], by rw [List.length_append]; exact h⟩
  else none

/-- The loop over a text. -/
def puts (buffer : Buffer capacity) (text : List UInt8) : Option (Buffer capacity) :=
  text.foldlM put buffer

/-- What writes into a buffer. -/
abbrev Writer (capacity : Nat) : Type := Buffer capacity → Option (Buffer capacity)

/-- The writer appends `text`, if there is room for it. -/
def Appends (write : Writer capacity) (text : List UInt8 → List UInt8) :
    Prop :=
  ∀ buffer, (write buffer).map Buffer.bytes =
    if buffer.bytes.length + (text buffer.bytes).length ≤ capacity then
      some (buffer.bytes ++ text buffer.bytes)
    else none

variable {f g : Writer capacity} {s t : List UInt8 → List UInt8}

theorem appends_nil : Appends (fun buffer : Buffer capacity => some buffer) fun _ => [] := by
  intro buffer
  rw [List.length_nil, Nat.add_zero, if_pos buffer.fits, List.append_nil]
  rfl

theorem appends_put (byte : UInt8) :
    Appends (fun buffer : Buffer capacity => buffer.put byte) fun _ => [byte] := by
  intro buffer
  show (put buffer byte).map Buffer.bytes =
    if buffer.bytes.length + 1 ≤ capacity then some (buffer.bytes ++ [byte]) else none
  unfold put
  by_cases h : buffer.bytes.length < capacity
  · rw [dif_pos h, if_pos (Nat.succ_le_of_lt h)]
    rfl
  · rw [dif_neg h, if_neg (by omega)]
    rfl

theorem Appends.bind (hf : Appends f s) (hg : Appends g t) :
    Appends (fun buffer => f buffer >>= g) fun bytes => s bytes ++ t (bytes ++ s bytes) := by
  intro buffer
  have hs := hf buffer
  show ((f buffer).bind g).map Buffer.bytes = _
  rw [List.length_append]
  by_cases hroom : buffer.bytes.length + (s buffer.bytes).length ≤ capacity
  · rw [if_pos hroom] at hs
    obtain ⟨mid, hmid, hbytes⟩ := Option.map_eq_some_iff.1 hs
    have ht := hg mid
    rw [hbytes, List.length_append] at ht
    rw [hmid, Option.bind_some, ht, List.append_assoc, Nat.add_assoc]
  · rw [if_neg hroom, Option.map_eq_none_iff] at hs
    rw [hs, Option.bind_none, if_neg (by omega)]
    rfl

/-- A writer that looks at what stands there. -/
theorem Appends.look {f : List UInt8 → Writer capacity}
    {s : List UInt8 → List UInt8} (h : ∀ bytes, Appends (f bytes) fun _ => s bytes) :
    Appends (fun buffer => f buffer.bytes buffer) s :=
  fun buffer => h buffer.bytes buffer

theorem appends_puts (text : List UInt8) :
    Appends (fun buffer : Buffer capacity => buffer.puts text) fun _ => text := by
  induction text with
  | nil => exact appends_nil
  | cons byte text ih => exact (appends_put byte).bind ih

/-- A writer that starts in an empty array. -/
theorem Appends.bytes_eq (h : Appends f s) :
    (f {}).map Buffer.bytes = if (s []).length ≤ capacity then some (s []) else none := by
  have hempty := h {}
  rw [List.length_nil, Nat.zero_add, List.nil_append] at hempty
  exact hempty

theorem Appends.isSome_iff (h : Appends f s) : (f {}).isSome = true ↔ (s []).length ≤ capacity := by
  rw [← Option.isSome_map (f := Buffer.bytes), h.bytes_eq]
  by_cases hroom : (s []).length ≤ capacity
  · simp [hroom]
  · simp [hroom]

end Buffer

end Lib
