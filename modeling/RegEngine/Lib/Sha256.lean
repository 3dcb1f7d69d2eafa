import Mathlib.Data.List.Basic
import Mathlib.Data.Nat.Digits.Defs

/-!
# SHA-256

SHA-256 on byte lists, words being naturals below `2 ^ 32` with explicit reduction, and the
hexadecimal digest of a UTF-8 text (`hexdigest`). A digest has 64 characters (`length_hexdigest`).
-/

namespace Lib.Sha256

/-! ## Words -/

def addW (x y : Nat) : Nat := (x + y) % 2 ^ 32

/-- Right rotation of a 32-bit word. -/
def rotr (n x : Nat) : Nat := (x >>> n) ||| (x <<< (32 - n) % 2 ^ 32)

def bigSigma0 (x : Nat) : Nat := rotr 2 x ^^^ rotr 13 x ^^^ rotr 22 x
def bigSigma1 (x : Nat) : Nat := rotr 6 x ^^^ rotr 11 x ^^^ rotr 25 x
def smallSigma0 (x : Nat) : Nat := rotr 7 x ^^^ rotr 18 x ^^^ (x >>> 3)
def smallSigma1 (x : Nat) : Nat := rotr 17 x ^^^ rotr 19 x ^^^ (x >>> 10)

def ch (x y z : Nat) : Nat := (x &&& y) ^^^ ((2 ^ 32 - 1 - x) &&& z)
def maj (x y z : Nat) : Nat := (x &&& y) ^^^ (x &&& z) ^^^ (y &&& z)

/-- The round constants. -/
def roundK : List Nat :=
  [0x428a2f98, 0x71374491, 0xb5c0fbcf, 0xe9b5dba5, 0x3956c25b, 0x59f111f1, 0x923f82a4, 0xab1c5ed5,
   0xd807aa98, 0x12835b01, 0x243185be, 0x550c7dc3, 0x72be5d74, 0x80deb1fe, 0x9bdc06a7, 0xc19bf174,
   0xe49b69c1, 0xefbe4786, 0x0fc19dc6, 0x240ca1cc, 0x2de92c6f, 0x4a7484aa, 0x5cb0a9dc, 0x76f988da,
   0x983e5152, 0xa831c66d, 0xb00327c8, 0xbf597fc7, 0xc6e00bf3, 0xd5a79147, 0x06ca6351, 0x14292967,
   0x27b70a85, 0x2e1b2138, 0x4d2c6dfc, 0x53380d13, 0x650a7354, 0x766a0abb, 0x81c2c92e, 0x92722c85,
   0xa2bfe8a1, 0xa81a664b, 0xc24b8b70, 0xc76c51a3, 0xd192e819, 0xd6990624, 0xf40e3585, 0x106aa070,
   0x19a4c116, 0x1e376c08, 0x2748774c, 0x34b0bcb5, 0x391c0cb3, 0x4ed8aa4a, 0x5b9cca4f, 0x682e6ff3,
   0x748f82ee, 0x78a5636f, 0x84c87814, 0x8cc70208, 0x90befffa, 0xa4506ceb, 0xbef9a3f7, 0xc67178f2]

/-- The eight chaining words. -/
structure State where
  a : Nat
  b : Nat
  c : Nat
  d : Nat
  e : Nat
  f : Nat
  g : Nat
  h : Nat
  deriving DecidableEq

/-- The initial chaining value. -/
def State.init : State where
  a := 0x6a09e667
  b := 0xbb67ae85
  c := 0x3c6ef372
  d := 0xa54ff53a
  e := 0x510e527f
  f := 0x9b05688c
  g := 0x1f83d9ab
  h := 0x5be0cd19

def State.add (s t : State) : State where
  a := addW s.a t.a
  b := addW s.b t.b
  c := addW s.c t.c
  d := addW s.d t.d
  e := addW s.e t.e
  f := addW s.f t.f
  g := addW s.g t.g
  h := addW s.h t.h

def State.words (s : State) : List Nat := [s.a, s.b, s.c, s.d, s.e, s.f, s.g, s.h]

/-! ## Compression -/

/-- The message schedule, newest word first: `n` further words after those in `ws`. -/
def extend : Nat → List Nat → List Nat
  | 0, ws => ws
  | n + 1, ws =>
    extend n (addW (addW (smallSigma1 (ws.getD 1 0)) (ws.getD 6 0))
      (addW (smallSigma0 (ws.getD 14 0)) (ws.getD 15 0)) :: ws)

/-- The 64 words of the schedule of a 16-word block. -/
def schedule (block : List Nat) : List Nat := (extend 48 block.reverse).reverse

/-- One round with constant and schedule word `kw`. -/
def round (s : State) (kw : Nat × Nat) : State :=
  let t1 := addW (addW (addW s.h (bigSigma1 s.e)) (addW (ch s.e s.f s.g) kw.1)) kw.2
  let t2 := addW (bigSigma0 s.a) (maj s.a s.b s.c)
  ⟨addW t1 t2, s.a, s.b, s.c, addW s.d t1, s.e, s.f, s.g⟩

def compress (s : State) (block : List Nat) : State :=
  s.add ((roundK.zip (schedule block)).foldl round s)

/-! ## Messages -/

/-- The message length in bits as eight big-endian bytes. -/
def lengthBytes (bits : Nat) : List Nat := (List.range 8).map fun i => bits / 256 ^ (7 - i) % 256

/-- Padding to a whole number of 64-byte blocks. -/
def pad (msg : List Nat) : List Nat :=
  msg ++ 0x80 :: (List.replicate ((119 - msg.length % 64) % 64) 0 ++ lengthBytes (8 * msg.length))

/-- Bytes as big-endian words. -/
def toWords : List Nat → List Nat
  | a :: b :: c :: d :: rest => (((a * 256 + b) * 256 + c) * 256 + d) :: toWords rest
  | _ => []

/-- The first `n` 16-word blocks. -/
def blocks : Nat → List Nat → List (List Nat)
  | 0, _ => []
  | n + 1, ws => ws.take 16 :: blocks n (ws.drop 16)

/-- The chaining value of a byte string. -/
def sha256 (msg : List Nat) : State :=
  let ws := toWords (pad msg)
  (blocks (ws.length / 16) ws).foldl compress State.init

/-- A word as four big-endian bytes. -/
def wordBytes (w : Nat) : List Nat := (List.range 4).map fun i => w / 256 ^ (3 - i) % 256

/-- The 32 bytes of the digest of a byte string. -/
def digest (msg : List Nat) : List Nat := (sha256 msg).words.flatMap wordBytes

/-- A word as eight lower-case hexadecimal digits. -/
def hexWord (w : Nat) : List Char := (List.range 8).map fun i => Nat.digitChar (w / 16 ^ (7 - i) % 16)

/-- The UTF-8 bytes of a text. -/
def utf8 (s : String) : List Nat := (s.toList.flatMap String.utf8EncodeChar).map UInt8.toNat

/-- `sha256(text.encode("utf-8")).hexdigest()`. -/
def hexdigest (s : String) : String := String.ofList ((sha256 (utf8 s)).words.flatMap hexWord)

theorem length_hexWord (w : Nat) : (hexWord w).length = 8 := by simp [hexWord]

/-- A byte as two lower-case hexadecimal digits. -/
def hexByte (b : Nat) : List Char := [Nat.digitChar (b / 16), Nat.digitChar (b % 16)]

theorem hexWord_eq_flatMap (w : Nat) : hexWord w = (wordBytes w).flatMap hexByte := by
  simp only [hexWord, wordBytes, hexByte, List.range, List.range.loop, List.map_cons, List.map_nil,
    List.flatMap_cons, List.flatMap_nil, List.cons_append, List.nil_append, Nat.reduceSub, Nat.reducePow,
    List.cons.injEq, and_true]
  exact ⟨congrArg _ (by omega), congrArg _ (by omega), congrArg _ (by omega), congrArg _ (by omega),
    congrArg _ (by omega), congrArg _ (by omega), congrArg _ (by omega), congrArg _ (by omega)⟩

/-- **A digest has 64 characters.** -/
theorem length_hexdigest (s : String) : (hexdigest s).toList.length = 64 := by
  simp [hexdigest, State.words, length_hexWord]

end Lib.Sha256
