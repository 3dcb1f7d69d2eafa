import RegEngine.Lib.Sha256
import RegEngine.VerificationPortal.Sha256

/-!
# The portal's SHA-256 is SHA-256

The functions of the module against `Lib.Sha256`, and from them every run of an instance.

* `initK_spec`, `schedule_spec`, `rounds_spec`, `blockBody_spec`: what each loop computes.
* `pad_spec`, `hash_spec`: the message is padded, and the digest of it is written out.
* `answers_eq`: one instance, any number of messages.
-/

namespace RegEngine.VerificationPortal

open Lib Lib.Wasm Lib.Wasm.Memory

/-! ## Words -/

theorem toNat_add (x y : I32) : (x + y).toNat = Sha256.addW x.toNat y.toNat := BitVec.toNat_add x y

theorem toNat_shl (x n : I32) (h : n.toNat < 32) :
    (shl x n).toNat = x.toNat <<< n.toNat % 2 ^ 32 := by
  rw [shl, Nat.mod_eq_of_lt h, BitVec.toNat_shiftLeft]

theorem toNat_shrU (x n : I32) (h : n.toNat < 32) : (shrU x n).toNat = x.toNat >>> n.toNat := by
  rw [shrU, Nat.mod_eq_of_lt h, BitVec.toNat_ushiftRight]

theorem toNat_rotr (x n : I32) (h : 0 < n.toNat) (h' : n.toNat < 32) :
    (rotr x n).toNat = Sha256.rotr n.toNat x.toNat := by
  have hn : ((32 : I32) - n).toNat = 32 - n.toNat := by
    rw [BitVec.toNat_sub, show (32 : I32).toNat = 32 from rfl]
    omega
  rw [rotr, BitVec.toNat_or, toNat_shrU x n h', toNat_shl x (32 - n) (by omega), hn]
  rfl

theorem toNat_bigSigma0 (x : I32) :
    ((rotr x 2 ^^^ rotr x 13) ^^^ rotr x 22).toNat = Sha256.bigSigma0 x.toNat := by
  rw [BitVec.toNat_xor, BitVec.toNat_xor, toNat_rotr x 2 (by decide) (by decide),
    toNat_rotr x 13 (by decide) (by decide), toNat_rotr x 22 (by decide) (by decide)]
  rfl

theorem toNat_bigSigma1 (x : I32) :
    ((rotr x 6 ^^^ rotr x 11) ^^^ rotr x 25).toNat = Sha256.bigSigma1 x.toNat := by
  rw [BitVec.toNat_xor, BitVec.toNat_xor, toNat_rotr x 6 (by decide) (by decide),
    toNat_rotr x 11 (by decide) (by decide), toNat_rotr x 25 (by decide) (by decide)]
  rfl

theorem toNat_smallSigma0 (x : I32) :
    ((rotr x 7 ^^^ rotr x 18) ^^^ shrU x 3).toNat = Sha256.smallSigma0 x.toNat := by
  rw [BitVec.toNat_xor, BitVec.toNat_xor, toNat_rotr x 7 (by decide) (by decide),
    toNat_rotr x 18 (by decide) (by decide), toNat_shrU x 3 (by decide)]
  rfl

theorem toNat_smallSigma1 (x : I32) :
    ((rotr x 17 ^^^ rotr x 19) ^^^ shrU x 10).toNat = Sha256.smallSigma1 x.toNat := by
  rw [BitVec.toNat_xor, BitVec.toNat_xor, toNat_rotr x 17 (by decide) (by decide),
    toNat_rotr x 19 (by decide) (by decide), toNat_shrU x 10 (by decide)]
  rfl

theorem toNat_ch (x y z : I32) :
    ((x &&& y) ^^^ ((x ^^^ -1) &&& z)).toNat = Sha256.ch x.toNat y.toNat z.toNat := by
  have hnot : x ^^^ -1 = ~~~x := by
    rw [show (-1 : I32) = BitVec.allOnes 32 from rfl, BitVec.xor_allOnes]
  rw [hnot, BitVec.toNat_xor, BitVec.toNat_and, BitVec.toNat_and, BitVec.toNat_not]
  rfl

theorem toNat_maj (x y z : I32) :
    (((x &&& y) ^^^ (x &&& z)) ^^^ (y &&& z)).toNat = Sha256.maj x.toNat y.toNat z.toNat := by
  rw [BitVec.toNat_xor, BitVec.toNat_xor, BitVec.toNat_and, BitVec.toNat_and, BitVec.toNat_and]
  rfl

/-! ## Lists of words in memory -/

/-- The words from an address on. -/
def wordsAt (m : Memory) (p n : Nat) : List Nat := (List.range n).map fun t => (m.word (p + 4 * t)).toNat

@[simp] theorem length_wordsAt (m : Memory) (p n : Nat) : (wordsAt m p n).length = n := by simp [wordsAt]

theorem getD_wordsAt (m : Memory) (p : Nat) {n i : Nat} (h : i < n) :
    (wordsAt m p n).getD i 0 = (m.word (p + 4 * i)).toNat := by
  simp [wordsAt, h]

theorem getD_reverse_wordsAt (m : Memory) (p : Nat) {n i : Nat} (h : i < n) :
    (wordsAt m p n).reverse.getD i 0 = (m.word (p + 4 * (n - 1 - i))).toNat := by
  simp [wordsAt, h]

theorem wordsAt_agree {m m' : Memory} {c : Nat → Prop} (h : Agree m m' c) {p n : Nat}
    (hp : ∀ q, c q → q < p ∨ p + 4 * n ≤ q) : wordsAt m' p n = wordsAt m p n := by
  refine List.map_congr_left fun t ht => congrArg BitVec.toNat (h.word fun i hi hc => ?_)
  have := hp _ hc
  have := List.mem_range.1 ht
  omega

/-- A word stored behind the others. -/
theorem wordsAt_putWord (m : Memory) (p n : Nat) (v : I32) :
    wordsAt (m.putWord (p + 4 * n) v) p (n + 1) = wordsAt m p n ++ [v.toNat] := by
  have hagree := agree_putWord m (p + 4 * n) v
  rw [wordsAt, List.range_succ, List.map_append]
  show wordsAt _ p n ++ _ = _
  rw [wordsAt_agree hagree fun q hq => by omega]
  simp [word_putWord]

/-! ## The round constants -/

theorem initConstants_eq : initConstants.map BitVec.toNat = Sha256.roundK := by decide

/-- Constants stored one behind the other, the first of them with number `n`. -/
theorem foldlM_store (l : List I32) : ∀ (n : Nat) (mem : Memory), 4 * (n + l.length) ≤ mem.size →
    4 * (n + l.length) < 2 ^ 32 → ∃ mem', (l.zipIdx n).foldlM
        (fun mem c => mem.store (kPtr + BitVec.ofNat 32 (4 * c.2)) c.1) mem = some mem' ∧
      Agree mem mem' (fun q => 4 * n ≤ q ∧ q < 4 * (n + l.length)) ∧
      wordsAt mem' 0 (n + l.length) = wordsAt mem 0 n ++ l.map BitVec.toNat := by
  induction l with
  | nil =>
    intro n mem _ _
    exact ⟨mem, rfl, Agree.refl _ _, by simp⟩
  | cons k l ih =>
    intro n mem hsize hbound
    rw [List.length_cons] at hsize hbound
    have haddr : (kPtr + BitVec.ofNat 32 (4 * n)).toNat = 4 * n := by
      rw [kPtr, BitVec.toNat_add, BitVec.toNat_ofNat, show (0 : I32).toNat = 0 from rfl]
      omega
    have hstore := store_eq (m := mem) (v := k) (p := kPtr + BitVec.ofNat 32 (4 * n)) (by omega)
    rw [haddr] at hstore
    obtain ⟨mem', hfold, hagree, hwords⟩ := ih (n + 1) (mem.putWord (4 * n) k)
      (show _ ≤ mem.size by omega) (by omega)
    refine ⟨mem', ?_, ?_, ?_⟩
    · rw [List.zipIdx_cons, List.foldlM_cons, hstore]
      exact hfold
    · refine Agree.trans ((agree_putWord mem (4 * n) k).mono fun q hq => ?_)
        (hagree.mono fun q hq => ?_)
      · rw [List.length_cons]
        omega
      · rw [List.length_cons]
        omega
    · have hone := wordsAt_putWord mem 0 n k
      rw [Nat.zero_add] at hone
      rw [List.length_cons, show n + (l.length + 1) = n + 1 + l.length by omega, hwords, hone]
      simp

/-- **The constants stand at the front of the memory.** -/
theorem initK_spec {mem : Memory} (hsize : 256 ≤ mem.size) : ∃ mem', initK mem = some mem' ∧
    Agree mem mem' (· < 256) ∧ wordsAt mem' 0 64 = Sha256.roundK := by
  obtain ⟨mem', hinit, hagree, hwords⟩ := foldlM_store initConstants 0 mem hsize (by decide)
  refine ⟨mem', hinit, hagree.mono fun q hq => hq.2, ?_⟩
  rw [← initConstants_eq]
  exact hwords

/-! ## The words of a block -/

/-- The big-endian word at an address. -/
def wordBe (m : Memory) (p : Nat) : Nat :=
  (((m.bytes p).toNat * 256 + (m.bytes (p + 1)).toNat) * 256 + (m.bytes (p + 2)).toNat) * 256 +
    (m.bytes (p + 3)).toNat

/-- Four bytes as a word, the first of them most significant. -/
theorem toNat_be (b₀ b₁ b₂ b₃ : BitVec 8) :
    ((shl (b₀.setWidth 32) 24 ||| shl (b₁.setWidth 32) 16) |||
      (shl (b₂.setWidth 32) 8 ||| b₃.setWidth 32)).toNat =
      ((b₀.toNat * 256 + b₁.toNat) * 256 + b₂.toNat) * 256 + b₃.toNat := by
  have h₀ := b₀.isLt
  have h₁ := b₁.isLt
  have h₂ := b₂.isLt
  have h₃ := b₃.isLt
  have width : ∀ b : BitVec 8, (b.setWidth 32).toNat = b.toNat := fun b => by
    rw [BitVec.toNat_setWidth]
    exact Nat.mod_eq_of_lt (Nat.lt_trans b.isLt (by decide))
  rw [BitVec.toNat_or, BitVec.toNat_or, BitVec.toNat_or, toNat_shl _ 24 (by decide),
    toNat_shl _ 16 (by decide), toNat_shl _ 8 (by decide), width, width, width, width]
  show (b₀.toNat <<< 24 % 2 ^ 32 ||| b₁.toNat <<< 16 % 2 ^ 32) ||| (b₂.toNat <<< 8 % 2 ^ 32 ||| b₃.toNat) = _
  rw [Nat.mod_eq_of_lt (by rw [Nat.shiftLeft_eq]; omega), Nat.mod_eq_of_lt (by rw [Nat.shiftLeft_eq]; omega),
    Nat.mod_eq_of_lt (by rw [Nat.shiftLeft_eq]; omega), ← Nat.shiftLeft_add_eq_or_of_lt h₃,
    ← Nat.shiftLeft_add_eq_or_of_lt (by rw [Nat.shiftLeft_eq]; omega)]
  have hhigh : b₀.toNat <<< 24 + b₁.toNat <<< 16 = (b₀.toNat * 256 + b₁.toNat) <<< 16 := by
    rw [Nat.shiftLeft_eq, Nat.shiftLeft_eq, Nat.shiftLeft_eq]
    omega
  rw [hhigh, ← Nat.shiftLeft_add_eq_or_of_lt (by rw [Nat.shiftLeft_eq]; omega), Nat.shiftLeft_eq,
    Nat.shiftLeft_eq]
  omega

/-- The address of a word behind another. -/
theorem toNat_ofs {base t : I32} (h : base.toNat + 4 * t.toNat < 2 ^ 32) :
    (base + t * 4).toNat = base.toNat + 4 * t.toNat := by
  rw [BitVec.toNat_add, BitVec.toNat_mul, show (4 : I32).toNat = 4 from rfl]
  omega

theorem toNat_add_of_lt {x y : I32} (h : x.toNat + y.toNat < 2 ^ 32) :
    (x + y).toNat = x.toNat + y.toNat := by
  rw [BitVec.toNat_add]
  exact Nat.mod_eq_of_lt h

/-- The scratch words of the schedule. -/
def scratch (q : Nat) : Prop := 512 ≤ q ∧ q < 768

/-- **The first sixteen words** are those of the block. -/
theorem blockWords_spec (mem : Memory) (block : I32) (hlow : 768 ≤ block.toNat)
    (hsize : block.toNat + 64 ≤ mem.size) (hmax : mem.size ≤ 2 ^ 32) :
    ∃ mem', loop 16 (blockWord block) 0 mem = some mem' ∧ Agree mem mem' scratch ∧
      wordsAt mem' 512 16 = (List.range 16).map fun t => wordBe mem (block.toNat + 4 * t) := by
  refine loop_rule _ _ (fun t s => Agree mem s scratch ∧
    wordsAt s 512 t = (List.range t).map fun t => wordBe mem (block.toNat + 4 * t)) ?_
    (show 0 ≤ 16 by decide) ⟨Agree.refl _ _, rfl⟩
  intro t s ht hinv
  obtain ⟨hagree, hwords⟩ := hinv
  have ht16 : t.toNat < 16 := ht
  have hsz := hagree.size
  have hbase : (block + t * 4).toNat = block.toNat + 4 * t.toNat := toNat_ofs (by omega)
  have hbehind : ∀ c : I32, c.toNat < 4 →
      (block + t * 4 + c).toNat = block.toNat + 4 * t.toNat + c.toNat := fun c hc => by
    rw [toNat_add_of_lt (by rw [hbase]; omega), hbase]
  have h1 : (block + t * 4 + 1).toNat = block.toNat + 4 * t.toNat + 1 := hbehind 1 (by decide)
  have h2 : (block + t * 4 + 2).toNat = block.toNat + 4 * t.toNat + 2 := hbehind 2 (by decide)
  have h3 : (block + t * 4 + 3).toNat = block.toNat + 4 * t.toNat + 3 := hbehind 3 (by decide)
  have hw : (wPtr + t * 4).toNat = 512 + 4 * t.toNat := toNat_ofs (by show 512 + _ < _; omega)
  have hbyte : ∀ i, i < 4 → s.bytes (block.toNat + 4 * t.toNat + i) =
      mem.bytes (block.toNat + 4 * t.toNat + i) := fun i hi => hagree.bytes _ fun hc => by
    have := hc.2
    omega
  have hl0 := load8_eq (m := s) (p := block + t * 4) (by omega)
  have hl1 := load8_eq (m := s) (p := block + t * 4 + 1) (by omega)
  have hl2 := load8_eq (m := s) (p := block + t * 4 + 2) (by omega)
  have hl3 := load8_eq (m := s) (p := block + t * 4 + 3) (by omega)
  refine ⟨s.putWord (512 + 4 * t.toNat)
    ((shl ((s.bytes (block.toNat + 4 * t.toNat)).setWidth 32) 24 |||
        shl ((s.bytes (block.toNat + 4 * t.toNat + 1)).setWidth 32) 16) |||
      (shl ((s.bytes (block.toNat + 4 * t.toNat + 2)).setWidth 32) 8 |||
        (s.bytes (block.toNat + 4 * t.toNat + 3)).setWidth 32)), ?_, ?_, ?_⟩
  · rw [blockWord, hl0, hl1, hl2, hl3, hbase, h1, h2, h3, ← hw]
    exact store_eq (by omega)
  · exact hagree.trans ((agree_putWord _ _ _).mono fun q hq => by
      show 512 ≤ q ∧ q < 768
      omega)
  · have h0 := hbyte 0 (by decide)
    rw [Nat.add_zero] at h0
    rw [wordsAt_putWord, hwords, toNat_be, h0, hbyte 1 (by decide), hbyte 2 (by decide),
      hbyte 3 (by decide), List.range_succ, List.map_append]
    rfl

/-! ## The schedule -/

/-- The next word of the schedule, from those before it, newest first. -/
def nextWord (ws : List Nat) : Nat :=
  Sha256.addW (Sha256.addW (Sha256.smallSigma1 (ws.getD 1 0)) (ws.getD 6 0))
    (Sha256.addW (Sha256.smallSigma0 (ws.getD 14 0)) (ws.getD 15 0))

theorem extend_succ (n : Nat) (ws : List Nat) :
    Sha256.extend (n + 1) ws = nextWord (Sha256.extend n ws) :: Sha256.extend n ws := by
  induction n generalizing ws with
  | zero => rfl
  | succ n ih =>
    have hstep : ∀ k, Sha256.extend (k + 1) ws = Sha256.extend k (nextWord ws :: ws) := fun _ => rfl
    rw [hstep (n + 1), ih, hstep n]

theorem toNat_back {t c : I32} (h : c.toNat ≤ t.toNat) (ht : t.toNat < 64) :
    (wPtr + (t - c) * 4).toNat = 512 + 4 * (t.toNat - c.toNat) := by
  have hsub : (t - c).toNat = t.toNat - c.toNat := BitVec.toNat_sub_of_le h
  rw [toNat_ofs (by rw [hsub]; show 512 + _ < _; omega), hsub]
  rfl

/-- A pass of the schedule: the next word, behind the others. -/
theorem scheduleWord_eq {s : Memory} {t : I32} (hle : 16 ≤ t.toNat) (ht : t.toNat < 64)
    (hsize : 768 ≤ s.size) : ∃ v, scheduleWord t s = some (s.putWord (512 + 4 * t.toNat) v) ∧
      v.toNat = nextWord (wordsAt s 512 t.toNat).reverse := by
  have h15 : (wPtr + (t - 15) * 4).toNat = 512 + 4 * (t.toNat - 15) :=
    toNat_back (show 15 ≤ t.toNat by omega) ht
  have h2 : (wPtr + (t - 2) * 4).toNat = 512 + 4 * (t.toNat - 2) :=
    toNat_back (show 2 ≤ t.toNat by omega) ht
  have h16 : (wPtr + (t - 16) * 4).toNat = 512 + 4 * (t.toNat - 16) := toNat_back hle ht
  have h7 : (wPtr + (t - 7) * 4).toNat = 512 + 4 * (t.toNat - 7) :=
    toNat_back (show 7 ≤ t.toNat by omega) ht
  have hw : (wPtr + t * 4).toNat = 512 + 4 * t.toNat := toNat_ofs (by show 512 + _ < _; omega)
  have hl15 := load_eq (m := s) (p := wPtr + (t - 15) * 4) (by omega)
  have hl2 := load_eq (m := s) (p := wPtr + (t - 2) * 4) (by omega)
  have hl16 := load_eq (m := s) (p := wPtr + (t - 16) * 4) (by omega)
  have hl7 := load_eq (m := s) (p := wPtr + (t - 7) * 4) (by omega)
  rw [h15] at hl15
  rw [h2] at hl2
  rw [h16] at hl16
  rw [h7] at hl7
  refine ⟨(((rotr (s.word (512 + 4 * (t.toNat - 15))) 7 ^^^ rotr (s.word (512 + 4 * (t.toNat - 15))) 18) ^^^
      shrU (s.word (512 + 4 * (t.toNat - 15))) 3) + s.word (512 + 4 * (t.toNat - 16))) +
    (((rotr (s.word (512 + 4 * (t.toNat - 2))) 17 ^^^ rotr (s.word (512 + 4 * (t.toNat - 2))) 19) ^^^
      shrU (s.word (512 + 4 * (t.toNat - 2))) 10) + s.word (512 + 4 * (t.toNat - 7))), ?_, ?_⟩
  · rw [scheduleWord, hl15, hl2, hl16, hl7, ← hw]
    exact store_eq (by omega)
  · rw [nextWord, getD_reverse_wordsAt s 512 (show 1 < t.toNat by omega),
      getD_reverse_wordsAt s 512 (show 6 < t.toNat by omega),
      getD_reverse_wordsAt s 512 (show 14 < t.toNat by omega),
      getD_reverse_wordsAt s 512 (show 15 < t.toNat by omega),
      show t.toNat - 1 - 1 = t.toNat - 2 by omega, show t.toNat - 1 - 6 = t.toNat - 7 by omega,
      show t.toNat - 1 - 14 = t.toNat - 15 by omega, show t.toNat - 1 - 15 = t.toNat - 16 by omega,
      ← toNat_smallSigma0, ← toNat_smallSigma1, ← toNat_add, ← toNat_add, ← toNat_add]
    exact congrArg BitVec.toNat (BitVec.add_comm _ _)

/-- **The sixty-four words** are the schedule of the block. -/
theorem schedule_spec {mem : Memory} {block : List Nat} (hblock : wordsAt mem 512 16 = block)
    (hsize : 768 ≤ mem.size) : ∃ mem', loop 64 scheduleWord 16 mem = some mem' ∧
      Agree mem mem' scratch ∧ wordsAt mem' 512 64 = Sha256.schedule block := by
  have hstart : (wordsAt mem 512 16).reverse = Sha256.extend (16 - 16) block.reverse := by
    rw [hblock]
    rfl
  have hbody : ∀ (t : I32) (s : Memory), t.toNat < 64 →
      (16 ≤ t.toNat ∧ Agree mem s scratch ∧
        (wordsAt s 512 t.toNat).reverse = Sha256.extend (t.toNat - 16) block.reverse) →
      ∃ s', scheduleWord t s = some s' ∧ 16 ≤ t.toNat + 1 ∧ Agree mem s' scratch ∧
        (wordsAt s' 512 (t.toNat + 1)).reverse = Sha256.extend (t.toNat + 1 - 16) block.reverse := by
    intro t s ht hinv
    obtain ⟨hle, hagree, hwords⟩ := hinv
    obtain ⟨v, hstep, hv⟩ := scheduleWord_eq hle ht (hagree.size ▸ hsize)
    refine ⟨_, hstep, by omega, ?_, ?_⟩
    · exact hagree.trans ((agree_putWord _ _ _).mono fun q hq => by
        show 512 ≤ q ∧ q < 768
        omega)
    · rw [wordsAt_putWord, List.reverse_append, hv, hwords,
        show t.toNat + 1 - 16 = (t.toNat - 16) + 1 by omega, extend_succ]
      rfl
  obtain ⟨mem', hloop, hle, hagree, hwords⟩ := loop_rule 64 scheduleWord (i := 16) (s := mem)
    (fun t s => 16 ≤ t ∧ Agree mem s scratch ∧
      (wordsAt s 512 t).reverse = Sha256.extend (t - 16) block.reverse) hbody
    (show 16 ≤ (64 : I32).toNat by decide) ⟨Nat.le_refl 16, Agree.refl _ _, hstart⟩
  refine ⟨mem', hloop, hagree, ?_⟩
  rw [Sha256.schedule, ← List.reverse_reverse (wordsAt mem' 512 64)]
  exact congrArg List.reverse hwords

/-! ## The rounds -/

def Registers.toState (v : Registers) : Sha256.State where
  a := v.a.toNat
  b := v.b.toNat
  c := v.c.toNat
  d := v.d.toNat
  e := v.e.toNat
  f := v.f.toNat
  g := v.g.toNat
  h := v.h.toNat

/-- A round, with the constant and the word of the counter. -/
theorem roundBody_eq {mem : Memory} {t : I32} (ht : t.toNat < 64) (hsize : 768 ≤ mem.size)
    (v : Registers) : ∃ v', roundBody mem t v = some v' ∧ v'.toState = Sha256.round v.toState
      ((mem.word (0 + 4 * t.toNat)).toNat, (mem.word (512 + 4 * t.toNat)).toNat) := by
  have hkt : (kPtr + t * 4).toNat = 0 + 4 * t.toNat := toNat_ofs (by show 0 + _ < _; omega)
  have hwt : (wPtr + t * 4).toNat = 512 + 4 * t.toNat := toNat_ofs (by show 512 + _ < _; omega)
  have hlk := load_eq (m := mem) (p := kPtr + t * 4) (by omega)
  have hlw := load_eq (m := mem) (p := wPtr + t * 4) (by omega)
  rw [hkt] at hlk
  rw [hwt] at hlw
  generalize hk : mem.word (0 + 4 * t.toNat) = k at hlk
  generalize hw : mem.word (512 + 4 * t.toNat) = w at hlw
  have htemp : Sha256.addW (Sha256.addW (Sha256.addW v.h.toNat (Sha256.bigSigma1 v.e.toNat))
      (Sha256.addW (Sha256.ch v.e.toNat v.f.toNat v.g.toNat) k.toNat)) w.toNat =
      ((v.h + ((rotr v.e 6 ^^^ rotr v.e 11) ^^^ rotr v.e 25)) +
        (((v.e &&& v.f) ^^^ ((v.e ^^^ -1) &&& v.g)) + (k + w))).toNat := by
    rw [← toNat_bigSigma1, ← toNat_ch, ← toNat_add, ← toNat_add, ← toNat_add, ← toNat_add]
    simp only [BitVec.add_assoc]
  generalize htemp1 : (v.h + ((rotr v.e 6 ^^^ rotr v.e 11) ^^^ rotr v.e 25)) +
    (((v.e &&& v.f) ^^^ ((v.e ^^^ -1) &&& v.g)) + (k + w)) = temp1 at htemp
  refine ⟨{
    a := temp1 + (((rotr v.a 2 ^^^ rotr v.a 13) ^^^ rotr v.a 22) +
      (((v.a &&& v.b) ^^^ (v.a &&& v.c)) ^^^ (v.b &&& v.c)))
    b := v.a
    c := v.b
    d := v.c
    e := v.d + temp1
    f := v.e
    g := v.f
    h := v.g }, ?_, ?_⟩
  · rw [roundBody, hlk, hlw, ← htemp1]
    rfl
  · simp only [Registers.toState, Sha256.round, htemp, ← toNat_bigSigma0, ← toNat_maj, ← toNat_add]

/-- **The sixty-four rounds.** -/
theorem rounds_spec {mem : Memory} {w : List Nat} (hk : wordsAt mem 0 64 = Sha256.roundK)
    (hw : wordsAt mem 512 64 = w) (hsize : 768 ≤ mem.size) (v : Registers) :
    ∃ v', loop 64 (roundBody mem) 0 v = some v' ∧
      v'.toState = (Sha256.roundK.zip w).foldl Sha256.round v.toState := by
  have hlen : (Sha256.roundK.zip w).length = 64 := by
    rw [List.length_zip, ← hk, ← hw, length_wordsAt, length_wordsAt]
    exact Nat.min_self 64
  have hbody : ∀ (t : I32) (s : Registers), t.toNat < 64 →
      s.toState = ((Sha256.roundK.zip w).take t.toNat).foldl Sha256.round v.toState →
      ∃ s', roundBody mem t s = some s' ∧
        s'.toState = ((Sha256.roundK.zip w).take (t.toNat + 1)).foldl Sha256.round v.toState := by
    intro t s ht hinv
    obtain ⟨s', hstep, hs'⟩ := roundBody_eq ht hsize s
    refine ⟨s', hstep, ?_⟩
    have hlt : t.toNat < (Sha256.roundK.zip w).length := by omega
    have hget : (Sha256.roundK.zip w)[t.toNat] =
        ((mem.word (0 + 4 * t.toNat)).toNat, (mem.word (512 + 4 * t.toNat)).toNat) := by
      simp only [List.getElem_zip, ← hk, ← hw, wordsAt, List.getElem_map, List.getElem_range]
    rw [List.take_succ_eq_append_getElem hlt, List.foldl_append, ← hinv, hget, hs']
    rfl
  obtain ⟨v', hloop, hstate⟩ := loop_rule 64 (roundBody mem) (i := 0) (s := v)
    (fun t s => s.toState = ((Sha256.roundK.zip w).take t).foldl Sha256.round v.toState) hbody
    (show 0 ≤ (64 : I32).toNat by decide) rfl
  exact ⟨v', hloop, hstate.trans (congrArg (List.foldl _ _) (List.take_of_length_le (Nat.le_of_eq hlen)))⟩

/-! ## The blocks -/

/-- The words of the block at an address. -/
def blockAt (m : Memory) (p : Nat) : List Nat := (List.range 16).map fun t => wordBe m (p + 4 * t)

theorem toWords_slice (m : Memory) (p k : Nat) : Sha256.toWords ((m.slice p (4 * k)).map BitVec.toNat) =
    (List.range k).map fun i => wordBe m (p + 4 * i) := by
  induction k generalizing p with
  | zero => rfl
  | succ k ih =>
    have hfour : (m.slice p 4).map BitVec.toNat = [(m.bytes p).toNat, (m.bytes (p + 1)).toNat,
      (m.bytes (p + 2)).toNat, (m.bytes (p + 3)).toNat] := rfl
    rw [show 4 * (k + 1) = 4 + 4 * k by omega, slice_add, List.map_append, hfour]
    show wordBe m p :: Sha256.toWords ((m.slice (p + 4) (4 * k)).map BitVec.toNat) = _
    rw [ih, List.range_succ_eq_map, List.map_cons, List.map_map]
    refine congrArg _ (List.map_congr_left fun i _ => congrArg (wordBe m) ?_)
    show p + 4 + 4 * i = p + 4 * (i + 1)
    omega

theorem blocks_range (n : Nat) (f : Nat → Nat) : Sha256.blocks n ((List.range (16 * n)).map f) =
    (List.range n).map fun b => (List.range 16).map fun t => f (16 * b + t) := by
  induction n generalizing f with
  | zero => rfl
  | succ n ih =>
    have hsplit : (List.range (16 * (n + 1))).map f =
        (List.range 16).map f ++ (List.range (16 * n)).map fun i => f (16 + i) := by
      rw [show 16 * (n + 1) = 16 + 16 * n by omega, List.range_add, List.map_append, List.map_map]
      rfl
    have hlen : ((List.range 16).map f).length = 16 := by simp
    rw [hsplit, Sha256.blocks, List.take_left' hlen, List.drop_left' hlen, ih, List.range_succ_eq_map (n := n),
      List.map_cons, List.map_map]
    refine congr (congrArg _ (List.map_congr_left fun t _ => ?_)) (List.map_congr_left fun b _ => ?_)
    · rw [Nat.mul_zero, Nat.zero_add]
    · refine List.map_congr_left fun t _ => congrArg f ?_
      show 16 + (16 * b + t) = 16 * (b + 1) + t
      omega

/-- The blocks of a padded message in memory. -/
theorem blocks_slice (m : Memory) (p n : Nat) :
    Sha256.blocks n (Sha256.toWords ((m.slice p (64 * n)).map BitVec.toNat)) =
      (List.range n).map fun b => blockAt m (p + 64 * b) := by
  rw [show 64 * n = 4 * (16 * n) by omega, toWords_slice, blocks_range]
  refine List.map_congr_left fun b _ => List.map_congr_left fun t _ => congrArg (wordBe m) ?_
  omega

theorem blockAt_agree {m m' : Memory} (h : Agree m m' scratch) {p : Nat} (hp : 768 ≤ p) :
    blockAt m' p = blockAt m p := by
  refine List.map_congr_left fun t _ => ?_
  have hbyte : ∀ i, m'.bytes (p + 4 * t + i) = m.bytes (p + 4 * t + i) := fun i =>
    h.bytes _ fun hq => by
      have := hq.2
      omega
  have h0 : m'.bytes (p + 4 * t) = m.bytes (p + 4 * t) := hbyte 0
  rw [wordBe, wordBe, h0, hbyte 1, hbyte 2, hbyte 3]

theorem toState_add (s v : Registers) : (s.add v).toState = s.toState.add v.toState := by
  simp only [Registers.toState, Registers.add, Sha256.State.add, toNat_add]

/-- **A pass of the block loop** compresses the block of the counter. -/
theorem blockBody_spec {b : I32} {s : Memory × Registers} (hk : wordsAt s.1 0 64 = Sha256.roundK)
    (hsize : 65536 + 64 * (b.toNat + 1) ≤ s.1.size) (hmax : s.1.size ≤ 2 ^ 32) :
    ∃ s', blockBody b s = some s' ∧ Agree s.1 s'.1 scratch ∧
      s'.2.toState = Sha256.compress s.2.toState (blockAt s.1 (65536 + 64 * b.toNat)) := by
  have hblock : (inputPtr + b * 64).toNat = 65536 + 64 * b.toNat := by
    rw [BitVec.toNat_add, BitVec.toNat_mul, show (64 : I32).toNat = 64 from rfl,
      show inputPtr.toNat = 65536 from rfl]
    omega
  obtain ⟨mem, hblockLoop, hagree, hwords⟩ := blockWords_spec s.1 (inputPtr + b * 64)
    (by omega) (by omega) hmax
  rw [hblock] at hwords
  obtain ⟨mem', hscheduleLoop, hagree', hschedule⟩ := schedule_spec hwords (by
    rw [hagree.size]
    omega)
  have hboth := hagree.trans hagree'
  have hk' : wordsAt mem' 0 64 = Sha256.roundK :=
    (wordsAt_agree hboth fun q hq => .inr (Nat.le_trans (by decide) hq.1)).trans hk
  obtain ⟨v, hrounds, hstate⟩ := rounds_spec hk' hschedule (by
    rw [hboth.size]
    omega) s.2
  refine ⟨(mem', s.2.add v), ?_, hboth, ?_⟩
  · show (do
      let mem ← loop 16 (blockWord (inputPtr + b * 64)) 0 s.1
      let mem ← loop 64 scheduleWord 16 mem
      let v ← loop 64 (roundBody mem) 0 s.2
      pure (mem, s.2.add v)) = _
    rw [hblockLoop, Option.bind_eq_bind, Option.bind_some, hscheduleLoop, Option.bind_eq_bind,
      Option.bind_some, hrounds]
    rfl
  · rw [toState_add, hstate]
    rfl

/-- **The block loop** compresses the blocks in turn. -/
theorem blocks_spec {mem : Memory} {n : I32} (hk : wordsAt mem 0 64 = Sha256.roundK)
    (hsize : 65536 + 64 * n.toNat ≤ mem.size) (hmax : mem.size ≤ 2 ^ 32) :
    ∃ s, loop n blockBody 0 (mem, initialRegisters) = some s ∧ Agree mem s.1 scratch ∧
      s.2.toState = ((List.range n.toNat).map fun b => blockAt mem (65536 + 64 * b)).foldl
        Sha256.compress Sha256.State.init := by
  refine loop_rule n blockBody (fun b s => Agree mem s.1 scratch ∧
    s.2.toState = ((List.range b).map fun b => blockAt mem (65536 + 64 * b)).foldl
      Sha256.compress Sha256.State.init) (fun b s hb hinv => ?_) (Nat.zero_le _) ⟨Agree.refl _ _, rfl⟩
  obtain ⟨hagree, hstate⟩ := hinv
  have hsz := hagree.size
  obtain ⟨s', hbody, hagree', hstate'⟩ := blockBody_spec (b := b) (s := s)
    ((wordsAt_agree hagree fun q hq => .inr (Nat.le_trans (by decide) hq.1)).trans hk) (by omega) (by omega)
  refine ⟨s', hbody, hagree.trans hagree', ?_⟩
  rw [hstate', hstate, blockAt_agree hagree (by omega), List.range_succ, List.map_append, List.foldl_append]
  rfl

/-! ## Padding -/

/-- The zeros behind the first bit of the padding. -/
theorem zeros_spec {mem : Memory} {p k : I32} (hsize : p.toNat + k.toNat ≤ mem.size)
    (hmax : mem.size ≤ 2 ^ 32) : ∃ mem', loop k (fun i mem => mem.store8 (p + i) 0) 0 mem = some mem' ∧
      Agree mem mem' (fun q => p.toNat ≤ q ∧ q < p.toNat + k.toNat) ∧
      mem'.slice p.toNat k.toNat = List.replicate k.toNat 0 := by
  refine loop_rule k _ (fun i s => Agree mem s (fun q => p.toNat ≤ q ∧ q < p.toNat + k.toNat) ∧
    s.slice p.toNat i = List.replicate i 0) (fun i s hi hinv => ?_) (Nat.zero_le _) ⟨Agree.refl _ _, rfl⟩
  obtain ⟨hagree, hzeros⟩ := hinv
  have hsz := hagree.size
  have haddr : (p + i).toNat = p.toNat + i.toNat := toNat_add_of_lt (by omega)
  refine ⟨s.putByte (p.toNat + i.toNat) 0, ?_, ?_, ?_⟩
  · rw [← haddr]
    exact store8_eq (by omega)
  · exact hagree.trans ((agree_putByte _ _ _).mono fun q hq => by omega)
  · rw [slice_putByte, hzeros, ← List.replicate_succ']

/-- The number of zeros. -/
theorem toNat_zeros {len : I32} (h : len.toNat + 65608 ≤ 2 ^ 32) :
    ((56 - (len + 1) % 64 + 64) % 64 : I32).toNat = (119 - len.toNat % 64) % 64 := by
  have hsucc : (len + 1).toNat = len.toNat + 1 := toNat_add_of_lt (show len.toNat + 1 < 2 ^ 32 by omega)
  rw [BitVec.toNat_umod, BitVec.toNat_add, BitVec.toNat_sub, BitVec.toNat_umod, hsucc]
  show ((2 ^ 32 - (len.toNat + 1) % 64 + 56) % 2 ^ 32 + 64) % 2 ^ 32 % 64 = _
  omega

/-- The length in bits, as `pad` writes it. -/
theorem lengthBytes_eq (len : I32) :
    [shrU (shrU len 29) 24, shrU (shrU len 29) 16, shrU (shrU len 29) 8, shrU len 29,
      shrU (shl len 3) 24, shrU (shl len 3) 16, shrU (shl len 3) 8, shl len 3].map
        (BitVec.toNat ∘ BitVec.setWidth 8) = Sha256.lengthBytes (8 * len.toNat) := by
  have hlt := len.isLt
  have hhi : (shrU len 29).toNat = len.toNat / 2 ^ 29 := by
    rw [toNat_shrU len 29 (by decide), Nat.shiftRight_eq_div_pow]
    rfl
  have hlo : (shl len 3).toNat = len.toNat * 8 % 2 ^ 32 := by
    rw [toNat_shl len 3 (by decide), Nat.shiftLeft_eq]
    rfl
  have hbyte : ∀ (x n : I32) (k : Nat), n.toNat = k → k < 32 →
      (BitVec.toNat ∘ BitVec.setWidth 8) (shrU x n) = x.toNat / 2 ^ k % 256 := fun x n k hk hn => by
    rw [Function.comp_apply, BitVec.toNat_setWidth, toNat_shrU x n (hk ▸ hn), hk, Nat.shiftRight_eq_div_pow]
  have hlast : ∀ x : I32, (BitVec.toNat ∘ BitVec.setWidth 8) x = x.toNat % 256 := fun x => by
    rw [Function.comp_apply, BitVec.toNat_setWidth]
  simp only [List.map_cons, List.map_nil, hbyte _ 24 24 rfl (by decide), hbyte _ 16 16 rfl (by decide),
    hbyte _ 8 8 rfl (by decide), hlast, hhi, hlo, Sha256.lengthBytes, List.range, List.range.loop,
    List.cons.injEq, and_true, Nat.reduceSub, Nat.reducePow]
  exact ⟨by omega, by omega, by omega, by omega, by omega, by omega, by omega, by omega⟩

/-- `pad`, its last eight stores taken together. -/
theorem pad_eq (mem : Memory) (len : I32) : pad mem len =
    (mem.store8 (inputPtr + len) 0x80).bind fun mem =>
      (loop ((56 - (len + 1) % 64 + 64) % 64) (fun i mem => mem.store8 (inputPtr + (len + 1) + i) 0) 0
        mem).bind fun mem =>
        (mem.storeBytes (inputPtr + (len + 1 + ((56 - (len + 1) % 64 + 64) % 64 + 8)) - 8) 0
          [shrU (shrU len 29) 24, shrU (shrU len 29) 16, shrU (shrU len 29) 8, shrU len 29,
            shrU (shl len 3) 24, shrU (shl len 3) 16, shrU (shl len 3) 8, shl len 3]).bind fun mem =>
          some (mem, len + 1 + ((56 - (len + 1) % 64 + 64) % 64 + 8)) := by
  simp only [pad, storeBytes, Option.bind_assoc, Option.bind_some]
  rfl

/-- **The message is padded in place.** -/
theorem pad_spec {mem : Memory} {len : I32} {msg : List Nat}
    (hmsg : (mem.slice 65536 len.toNat).map BitVec.toNat = msg)
    (hsize : len.toNat + 65608 ≤ mem.size) (hmax : mem.size ≤ 2 ^ 32) :
    ∃ mem' total, pad mem len = some (mem', total) ∧ mem'.size = mem.size ∧
      total.toNat = (Sha256.pad msg).length ∧
      (mem'.slice 65536 total.toNat).map BitVec.toNat = Sha256.pad msg := by
  have hlen : msg.length = len.toNat := by
    rw [← hmsg, List.length_map, length_slice]
  have hk := @toNat_zeros len (by omega)
  have hk64 : (119 - len.toNat % 64) % 64 < 64 := Nat.mod_lt _ (by decide)
  rw [pad_eq]
  generalize (56 - (len + 1) % 64 + 64) % 64 = k at hk
  have hstart : (inputPtr + len).toNat = 65536 + len.toNat :=
    toNat_add_of_lt (show 65536 + len.toNat < 2 ^ 32 by omega)
  have hsucc : (len + 1).toNat = len.toNat + 1 := toNat_add_of_lt (show len.toNat + 1 < 2 ^ 32 by omega)
  have hzero : (inputPtr + (len + 1)).toNat = 65536 + (len.toNat + 1) := by
    rw [toNat_add_of_lt (by rw [hsucc]; show 65536 + _ < _; omega), hsucc]
    rfl
  have hk8 : (k + 8).toNat = k.toNat + 8 := toNat_add_of_lt (show k.toNat + 8 < 2 ^ 32 by omega)
  have htotal : (len + 1 + (k + 8)).toNat = len.toNat + 1 + k.toNat + 8 := by
    rw [toNat_add_of_lt (by omega), hsucc, hk8]
    omega
  -- with a full memory the end of the message is one beyond the last address
  have hlast : (inputPtr + (len + 1 + (k + 8)) - 8).toNat = 65536 + (len.toNat + 1 + k.toNat) := by
    rw [BitVec.toNat_sub, BitVec.toNat_add, htotal, show inputPtr.toNat = 65536 from rfl,
      show (8 : I32).toNat = 8 from rfl]
    omega
  -- the first bit
  have hbit : mem.store8 (inputPtr + len) 0x80 = some (mem.putByte (65536 + len.toNat) 0x80) := by
    rw [store8_eq (by omega), hstart]
    rfl
  have hslice1 := slice_putByte mem 65536 len.toNat 0x80
  -- the zeros
  obtain ⟨mem₂, hloop, hagree₂, hzeros⟩ := @zeros_spec (mem.putByte (65536 + len.toNat) 0x80)
    (inputPtr + (len + 1)) k (by rw [hzero]; show _ ≤ mem.size; omega) hmax
  rw [hzero] at hagree₂ hzeros
  have hslice2 : mem₂.slice 65536 (len.toNat + 1 + k.toNat) =
      mem.slice 65536 len.toNat ++ [0x80] ++ List.replicate k.toNat 0 := by
    rw [slice_add, hagree₂.slice fun i hi => by omega, hslice1, hzeros]
  -- the length
  obtain ⟨mem₃, hstores, hagree₃, hlengthBytes⟩ := storeBytes_spec
    (inputPtr + (len + 1 + (k + 8)) - 8) [shrU (shrU len 29) 24, shrU (shrU len 29) 16,
      shrU (shrU len 29) 8, shrU len 29, shrU (shl len 3) 24, shrU (shl len 3) 16, shrU (shl len 3) 8,
      shl len 3] mem₂ 0 (by
        rw [hlast, hagree₂.size]
        show _ + 0 + 8 ≤ mem.size
        omega) (by
        rw [hlast]
        show _ + 0 + 8 ≤ _
        omega)
  rw [hlast] at hagree₃ hlengthBytes
  have hslice3 : mem₃.slice 65536 (len.toNat + 1 + k.toNat + 8) =
      mem.slice 65536 len.toNat ++ [0x80] ++ List.replicate k.toNat 0 ++
        [shrU (shrU len 29) 24, shrU (shrU len 29) 16, shrU (shrU len 29) 8, shrU len 29,
          shrU (shl len 3) 24, shrU (shl len 3) 16, shrU (shl len 3) 8, shl len 3].map
            (BitVec.setWidth 8) := by
    rw [slice_add, hagree₃.slice fun i hi => by omega, hslice2]
    exact congrArg _ hlengthBytes
  have hpad : (mem₃.slice 65536 (len.toNat + 1 + k.toNat + 8)).map BitVec.toNat = Sha256.pad msg := by
    rw [hslice3, List.map_append, List.map_map, lengthBytes_eq, List.map_append, List.map_append, hmsg,
      List.map_replicate, Sha256.pad, hlen, hk, List.append_assoc, List.append_assoc]
    rfl
  refine ⟨mem₃, len + 1 + (k + 8), ?_, hagree₃.size.trans hagree₂.size, ?_, ?_⟩
  · rw [hbit, Option.bind_some, hloop, Option.bind_some, hstores]
    rfl
  · rw [htotal, ← hpad, List.length_map, length_slice]
  · rw [htotal]
    exact hpad

/-! ## The digest -/

theorem storeBe32_eq (mem : Memory) (ptr v : I32) :
    storeBe32 mem ptr v = mem.storeBytes ptr 0 [shrU v 24, shrU v 16, shrU v 8, v] := by
  simp only [storeBe32, storeBytes, Option.bind_fun_some]
  rfl

theorem wordBytes_eq (v : I32) : [shrU v 24, shrU v 16, shrU v 8, v].map
    (BitVec.toNat ∘ BitVec.setWidth 8) = Sha256.wordBytes v.toNat := by
  have hlt := v.isLt
  have hbyte : ∀ (n : I32) (k : Nat), n.toNat = k → k < 32 →
      (BitVec.toNat ∘ BitVec.setWidth 8) (shrU v n) = v.toNat / 2 ^ k % 256 := fun n k hk hn => by
    rw [Function.comp_apply, BitVec.toNat_setWidth, toNat_shrU v n (hk ▸ hn), hk, Nat.shiftRight_eq_div_pow]
  have hlast : (BitVec.toNat ∘ BitVec.setWidth 8) v = v.toNat % 256 := by
    rw [Function.comp_apply, BitVec.toNat_setWidth]
  simp only [List.map_cons, List.map_nil, hbyte 24 24 rfl (by decide), hbyte 16 16 rfl (by decide),
    hbyte 8 8 rfl (by decide), hlast, Sha256.wordBytes, List.range, List.range.loop, Nat.reduceSub,
    Nat.reducePow, Nat.div_one]

/-- Words written out from `outPtr` on, the first of them with number `j`. -/
def storeWords : Memory → Nat → List I32 → Option Memory
  | mem, _, [] => some mem
  | mem, j, v :: vs => (storeBe32 mem (outPtr + BitVec.ofNat 32 (4 * j)) v).bind fun mem =>
    storeWords mem (j + 1) vs

theorem storeWords_spec (vs : List I32) : ∀ (mem : Memory) (j : Nat),
    1024 + 4 * (j + vs.length) ≤ mem.size → mem.size ≤ 2 ^ 32 → ∃ mem', storeWords mem j vs = some mem' ∧
      mem'.size = mem.size ∧ (mem'.slice 1024 (4 * (j + vs.length))).map BitVec.toNat =
        (mem.slice 1024 (4 * j)).map BitVec.toNat ++ (vs.map BitVec.toNat).flatMap Sha256.wordBytes := by
  induction vs with
  | nil =>
    intro mem j _ _
    exact ⟨mem, rfl, rfl, by simp⟩
  | cons v vs ih =>
    intro mem j hsize hmax
    rw [List.length_cons] at hsize
    have haddr : (outPtr + BitVec.ofNat 32 (4 * j)).toNat = 1024 + 4 * j := by
      rw [BitVec.toNat_add, BitVec.toNat_ofNat, show outPtr.toNat = 1024 from rfl]
      omega
    obtain ⟨mem₁, hstore, hagree, hbytes⟩ := storeBytes_spec (outPtr + BitVec.ofNat 32 (4 * j))
      [shrU v 24, shrU v 16, shrU v 8, v] mem 0 (by
        rw [haddr]
        show _ + 0 + 4 ≤ _
        omega) (by
        rw [haddr]
        show _ + 0 + 4 ≤ _
        omega)
    rw [haddr] at hagree hbytes
    obtain ⟨mem', hrest, hsize', hslice⟩ := ih mem₁ (j + 1) (by
      rw [hagree.size]
      omega) (hagree.size ▸ hmax)
    refine ⟨mem', ?_, hsize'.trans hagree.size, ?_⟩
    · rw [storeWords, storeBe32_eq, hstore]
      exact hrest
    · have hfour : (mem₁.slice (1024 + 4 * j) 4).map BitVec.toNat = Sha256.wordBytes v.toNat := by
        rw [← wordBytes_eq, ← List.map_map]
        exact congrArg _ hbytes
      rw [List.length_cons, show j + (vs.length + 1) = j + 1 + vs.length by omega, hslice,
        show 4 * (j + 1) = 4 * j + 4 by omega, slice_add, List.map_append, hfour,
        hagree.slice fun i hi => by omega, List.map_cons, List.flatMap_cons, List.append_assoc]

theorem hash_eq (mem : Memory) (paddedLen : I32) : hash mem paddedLen =
    (initK mem).bind fun mem => (loop (paddedLen / 64) blockBody 0 (mem, initialRegisters)).bind fun s =>
      storeWords s.1 0 [s.2.a, s.2.b, s.2.c, s.2.d, s.2.e, s.2.f, s.2.g, s.2.h] := by
  simp only [hash, storeWords, Option.bind_fun_some]
  rfl

/-- **The digest of a padded message is written out.** -/
theorem hash_spec {mem : Memory} {total : I32} {msg : List Nat}
    (hmsg : (mem.slice 65536 total.toNat).map BitVec.toNat = Sha256.pad msg)
    (hsize : 65536 + total.toNat ≤ mem.size) (hmax : mem.size ≤ 2 ^ 32) : ∃ mem',
    hash mem total = some mem' ∧ mem'.size = mem.size ∧
      (mem'.slice 1024 32).map BitVec.toNat = Sha256.digest msg := by
  have hlen : (Sha256.pad msg).length = total.toNat := by
    rw [← hmsg, List.length_map, length_slice]
  have hmul : 64 * (total.toNat / 64) = total.toNat := by
    rw [← hlen, Sha256.pad, List.length_append, List.length_cons, List.length_append,
      List.length_replicate]
    show 64 * ((msg.length + ((119 - msg.length % 64) % 64 + 8 + 1)) / 64) =
      msg.length + ((119 - msg.length % 64) % 64 + 8 + 1)
    omega
  have hn : (total / 64).toNat = total.toNat / 64 := BitVec.toNat_udiv
  obtain ⟨mem₁, hinit, hagree₁, hk⟩ := @initK_spec mem (by omega)
  have hmsg₁ : (mem₁.slice 65536 total.toNat).map BitVec.toNat = Sha256.pad msg := by
    rw [hagree₁.slice fun i _ => by omega, hmsg]
  obtain ⟨s, hloop, hagree₂, hstate⟩ := blocks_spec (n := total / 64) hk (by
    rw [hn, hmul, hagree₁.size]
    exact hsize) (hagree₁.size ▸ hmax)
  obtain ⟨mem', hout, hsize', hdigest⟩ := storeWords_spec
    [s.2.a, s.2.b, s.2.c, s.2.d, s.2.e, s.2.f, s.2.g, s.2.h] s.1 0 (by
      rw [hagree₂.size, hagree₁.size]
      show 1024 + 4 * (0 + 8) ≤ _
      omega) (by rw [hagree₂.size, hagree₁.size]; exact hmax)
  have hsha : s.2.toState = Sha256.sha256 msg := by
    have hblocks := blocks_slice mem₁ 65536 (total.toNat / 64)
    rw [hmul, hmsg₁] at hblocks
    have hwords : (Sha256.toWords (Sha256.pad msg)).length / 16 = total.toNat / 64 := by
      have hslice := toWords_slice mem₁ 65536 (16 * (total.toNat / 64))
      rw [show 4 * (16 * (total.toNat / 64)) = total.toNat by omega, hmsg₁] at hslice
      rw [hslice, List.length_map, List.length_range]
      omega
    rw [hstate, hn, ← hblocks, Sha256.sha256, hwords]
  refine ⟨mem', ?_, ?_, ?_⟩
  · rw [hash_eq, hinit, Option.bind_some, hloop, Option.bind_some, hout]
  · rw [hsize', hagree₂.size, hagree₁.size]
  · rw [Sha256.digest, ← hsha]
    exact hdigest

/-! ## Instances -/

/-- A message fits in a 32-bit memory, with the room `_ensureCapacity` asks for. -/
def Fits (content : List UInt8) : Prop := 65536 + content.length + 72 ≤ 2 ^ 32

instance (content : List UInt8) : Decidable (Fits content) := Nat.decLe _ _

/-- The digest of a byte string. -/
def digestOf (content : List UInt8) : List UInt8 :=
  (Sha256.digest (content.map UInt8.toNat)).map UInt8.ofNat

/-- **There is room** after `_ensureCapacity`, which throws exactly when the message does not fit. -/
theorem ensureCapacity_spec (inst : WasmSha256) (content : List UInt8) :
    if Fits content then ∃ inst' : WasmSha256,
      ensureCapacity inst.memory content.length = some inst'.memory ∧
        65536 + content.length + 72 ≤ inst'.memory.size
    else ensureCapacity inst.memory content.length = none := by
  have hsize := inst.size_eq
  have hle := inst.sixteen_le
  have hmax := inst.le_maxPages
  have hneeded : inputPtr.toNat + content.length + 9 + 63 = 65536 + content.length + 72 := by
    show 65536 + content.length + 9 + 63 = _
    omega
  simp only [pageSize, maxPages] at hsize hmax
  simp only [ensureCapacity, hneeded, grow, pageSize, maxPages]
  split
  · rename_i hfits
    simp only [Fits] at hfits
    split
    · rename_i hlt
      refine ⟨⟨⟨inst.memory.size +
          (65536 + content.length + 72 - inst.memory.size + (65536 - 1)) / 65536 * 65536,
          fun q => if q < inst.memory.size then inst.memory.bytes q else 0⟩,
        inst.pages + (65536 + content.length + 72 - inst.memory.size + (65536 - 1)) / 65536,
        ?_, by omega, ?_⟩, ?_, ?_⟩
      · simp only [pageSize]
        omega
      · simp only [maxPages]
        omega
      · rw [if_pos (by omega)]
      · show _ ≤ inst.memory.size + _
        omega
    · rename_i hlt
      exact ⟨inst, rfl, by omega⟩
  · rename_i hfits
    simp only [Fits] at hfits
    rw [if_pos (by omega), if_neg (by omega)]

/-- **One message**: the digest of it, and an instance again. -/
theorem hashBytes_spec (inst : WasmSha256) (content : List UInt8) :
    if Fits content then ∃ inst' : WasmSha256,
      hashBytes inst.memory content = some (inst'.memory, digestOf content)
    else hashBytes inst.memory content = none := by
  have hroom := ensureCapacity_spec inst content
  split
  · rename_i hfits
    rw [if_pos hfits] at hroom
    obtain ⟨inst₁, hgrow, hsize⟩ := hroom
    have hsize₁ := inst₁.size_eq
    have hpages := inst₁.le_maxPages
    simp only [pageSize, maxPages] at hsize₁ hpages
    simp only [Fits] at hfits
    have hlen : (BitVec.ofNat 32 content.length).toNat = content.length := by
      rw [BitVec.toNat_ofNat]
      omega
    have hslice := slice_set inst₁.memory 65536 (content.map UInt8.toBitVec)
    rw [List.length_map] at hslice
    obtain ⟨mem₂, total, hpad, hsize₂, htotal, hpadded⟩ := @pad_spec
      (inst₁.memory.set 65536 (content.map UInt8.toBitVec)) (BitVec.ofNat 32 content.length)
      (content.map UInt8.toNat)
      (by rw [hlen, hslice, List.map_map]; rfl) (by rw [hlen]; show _ ≤ inst₁.memory.size; omega)
      (show inst₁.memory.size ≤ _ by omega)
    have hbound : total.toNat ≤ content.length + 72 := by
      rw [htotal, Sha256.pad, List.length_append, List.length_cons, List.length_append,
        List.length_replicate, List.length_map]
      show content.length + ((119 - content.length % 64) % 64 + 8 + 1) ≤ _
      omega
    have hsize₂' : mem₂.size = inst₁.memory.size := hsize₂
    obtain ⟨mem₃, hhash, hsize₃, hdigest⟩ := hash_spec hpadded (by omega) (by omega)
    refine ⟨⟨mem₃, inst₁.pages, hsize₃.trans (hsize₂'.trans inst₁.size_eq), inst₁.sixteen_le,
      inst₁.le_maxPages⟩, ?_⟩
    have hout : (mem₃.slice 1024 32).map UInt8.ofBitVec = digestOf content := by
      rw [digestOf, ← hdigest, List.map_map]
      exact List.map_congr_left fun b _ => (UInt8.ofNat_bitVecToNat b).symm
    rw [hashBytes, hgrow]
    show (pad (inst₁.memory.set 65536 (content.map UInt8.toBitVec)) _).bind _ = _
    rw [hpad, Option.bind_some]
    show (hash mem₂ total).bind _ = _
    rw [hhash, Option.bind_some, ← hout]
    rfl
  · rename_i hfits
    rw [if_neg hfits] at hroom
    rw [hashBytes, hroom]
    rfl

/-- What an instance answers to messages one after the other. A call that throws does so in `grow`, before
anything is written. -/
def answers (mem : Memory) : List (List UInt8) → List (Option (List UInt8))
  | [] => []
  | content :: contents =>
    match hashBytes mem content with
    | some r => some r.2 :: answers r.1 contents
    | none => none :: answers mem contents

/-- **Every call answers with the digest of its own message**, whatever the instance hashed before; it
throws exactly when the message does not fit. -/
theorem answers_eq (inst : WasmSha256) (contents : List (List UInt8)) :
    answers inst.memory contents = contents.map fun content =>
      if Fits content then some (digestOf content) else none := by
  induction contents generalizing inst with
  | nil => rfl
  | cons content contents ih =>
    have hone := hashBytes_spec inst content
    rw [answers, List.map_cons]
    split at hone
    · rename_i hfits
      obtain ⟨inst', hhash⟩ := hone
      rw [hhash, if_pos hfits, ← ih inst']
    · rename_i hfits
      rw [hone, if_neg hfits, ← ih inst]

theorem mem_digest_lt {msg : List Nat} {b : Nat} (h : b ∈ Sha256.digest msg) : b < 256 := by
  rw [Sha256.digest, List.mem_flatMap] at h
  obtain ⟨w, -, hb⟩ := h
  rw [Sha256.wordBytes, List.mem_map] at hb
  obtain ⟨i, -, hi⟩ := hb
  rw [← hi]
  exact Nat.mod_lt _ (by decide)

theorem bytesToHex_digestOf (content : List UInt8) : bytesToHex (digestOf content) =
    String.ofList ((Sha256.sha256 (content.map UInt8.toNat)).words.flatMap Sha256.hexWord) := by
  have hbytes : ∀ b ∈ Sha256.digest (content.map UInt8.toNat), (UInt8.ofNat b).toNat = b := fun b hb =>
    UInt8.toNat_ofNat_of_lt' (mem_digest_lt hb)
  rw [bytesToHex, digestOf, List.flatMap_map, List.flatMap_congr fun b hb => congrArg _ (hbytes b hb),
    Sha256.digest, List.flatMap_assoc, List.flatMap_congr fun w _ => (Sha256.hexWord_eq_flatMap w).symm]

/-- The digest of a text, in hexadecimal digits, is that of the server. -/
theorem hexOfUtf8_eq (inst : WasmSha256) {s : String}
    (hfits : Fits (s.toList.flatMap String.utf8EncodeChar)) : ∃ inst' : WasmSha256,
      hexOfUtf8 inst.memory s = some (inst'.memory, Sha256.hexdigest s) := by
  have hone := hashBytes_spec inst (s.toList.flatMap String.utf8EncodeChar)
  rw [if_pos hfits] at hone
  obtain ⟨inst', hhash⟩ := hone
  refine ⟨inst', ?_⟩
  rw [hexOfUtf8, hhash, Option.map_some, bytesToHex_digestOf]
  rfl

end RegEngine.VerificationPortal
