import RegEngine.Lib.Sha256
import RegEngine.Lib.Wasm

/-!
# The portal's SHA-256

`verification-portal/sha256.wat`, function by function over `Lib.Wasm`, and the class `WasmSha256` of
`verification-portal/custody-chain.html` that calls it. The globals `$H0` … `$H7` are set by `hash` before it
reads them, so an instance is its memory. An engine that runs out of memory of its own is left out.
-/

namespace RegEngine.VerificationPortal

open Lib Lib.Wasm

/-! ## `sha256.wat` -/

def inputPtr : I32 := 65536
def kPtr : I32 := 0
def wPtr : I32 := 512
def outPtr : I32 := 1024

/-- `$rotr`. -/
def rotr (x n : I32) : I32 := shrU x n ||| shl x (32 - n)

/-- The constants of `$init_k`, in the order of their stores. -/
def initConstants : List I32 :=
  [0x428a2f98, 0x71374491, 0xb5c0fbcf, 0xe9b5dba5, 0x3956c25b, 0x59f111f1, 0x923f82a4, 0xab1c5ed5,
   0xd807aa98, 0x12835b01, 0x243185be, 0x550c7dc3, 0x72be5d74, 0x80deb1fe, 0x9bdc06a7, 0xc19bf174,
   0xe49b69c1, 0xefbe4786, 0x0fc19dc6, 0x240ca1cc, 0x2de92c6f, 0x4a7484aa, 0x5cb0a9dc, 0x76f988da,
   0x983e5152, 0xa831c66d, 0xb00327c8, 0xbf597fc7, 0xc6e00bf3, 0xd5a79147, 0x06ca6351, 0x14292967,
   0x27b70a85, 0x2e1b2138, 0x4d2c6dfc, 0x53380d13, 0x650a7354, 0x766a0abb, 0x81c2c92e, 0x92722c85,
   0xa2bfe8a1, 0xa81a664b, 0xc24b8b70, 0xc76c51a3, 0xd192e819, 0xd6990624, 0xf40e3585, 0x106aa070,
   0x19a4c116, 0x1e376c08, 0x2748774c, 0x34b0bcb5, 0x391c0cb3, 0x4ed8aa4a, 0x5b9cca4f, 0x682e6ff3,
   0x748f82ee, 0x78a5636f, 0x84c87814, 0x8cc70208, 0x90befffa, 0xa4506ceb, 0xbef9a3f7, 0xc67178f2]

/-- `$init_k`: the constant with number `i` goes to `4 * i`. -/
def initK (mem : Memory) : Option Memory :=
  initConstants.zipIdx.foldlM (fun mem c => mem.store (kPtr + BitVec.ofNat 32 (4 * c.2)) c.1) mem

/-- `pad`: the memory and the padded length. -/
def pad (mem : Memory) (len : I32) : Option (Memory × I32) := do
  let k := (56 - (len + 1) % 64 + 64) % 64
  let mem ← mem.store8 (inputPtr + len) 0x80
  let zeroStart := inputPtr + (len + 1)
  let mem ← loop k (fun i mem => mem.store8 (zeroStart + i) 0) 0 mem
  let total := (len + 1) + (k + 8)
  let bitlenLo := shl len 3
  let bitlenHi := shrU len 29
  let i := (inputPtr + total) - 8
  let mem ← mem.store8 (i + 0) (shrU bitlenHi 24)
  let mem ← mem.store8 (i + 1) (shrU bitlenHi 16)
  let mem ← mem.store8 (i + 2) (shrU bitlenHi 8)
  let mem ← mem.store8 (i + 3) bitlenHi
  let mem ← mem.store8 (i + 4) (shrU bitlenLo 24)
  let mem ← mem.store8 (i + 5) (shrU bitlenLo 16)
  let mem ← mem.store8 (i + 6) (shrU bitlenLo 8)
  let mem ← mem.store8 (i + 7) bitlenLo
  pure (mem, total)

/-- Eight words: the globals `$H0` … `$H7`, or the locals `$a` … `$h`. -/
structure Registers where
  a : I32
  b : I32
  c : I32
  d : I32
  e : I32
  f : I32
  g : I32
  h : I32

/-- What `hash` sets the globals to. -/
def initialRegisters : Registers where
  a := 0x6a09e667
  b := 0xbb67ae85
  c := 0x3c6ef372
  d := 0xa54ff53a
  e := 0x510e527f
  f := 0x9b05688c
  g := 0x1f83d9ab
  h := 0x5be0cd19

/-- A pass of `$w0_loop`. -/
def blockWord (block t : I32) (mem : Memory) : Option Memory := do
  let byte0 ← mem.load8 (block + t * 4)
  let byte1 ← mem.load8 (block + t * 4 + 1)
  let byte2 ← mem.load8 (block + t * 4 + 2)
  let byte3 ← mem.load8 (block + t * 4 + 3)
  mem.store (wPtr + t * 4) ((shl byte0 24 ||| shl byte1 16) ||| (shl byte2 8 ||| byte3))

/-- A pass of `$w1_loop`. -/
def scheduleWord (t : I32) (mem : Memory) : Option Memory := do
  let wordPtr := wPtr + t * 4
  let w15 ← mem.load (wPtr + (t - 15) * 4)
  let s0 := (rotr w15 7 ^^^ rotr w15 18) ^^^ shrU w15 3
  let w2 ← mem.load (wPtr + (t - 2) * 4)
  let s1 := (rotr w2 17 ^^^ rotr w2 19) ^^^ shrU w2 10
  let w16 ← mem.load (wPtr + (t - 16) * 4)
  let w7 ← mem.load (wPtr + (t - 7) * 4)
  mem.store wordPtr ((s0 + w16) + (s1 + w7))

/-- A pass of `$rounds_loop`. -/
def roundBody (mem : Memory) (t : I32) (v : Registers) : Option Registers := do
  let bigS1 := (rotr v.e 6 ^^^ rotr v.e 11) ^^^ rotr v.e 25
  let ch := (v.e &&& v.f) ^^^ ((v.e ^^^ -1) &&& v.g)
  let k ← mem.load (kPtr + t * 4)
  let w ← mem.load (wPtr + t * 4)
  let temp1 := (v.h + bigS1) + (ch + (k + w))
  let bigS0 := (rotr v.a 2 ^^^ rotr v.a 13) ^^^ rotr v.a 22
  let maj := ((v.a &&& v.b) ^^^ (v.a &&& v.c)) ^^^ (v.b &&& v.c)
  let temp2 := bigS0 + maj
  pure
    { h := v.g
      g := v.f
      f := v.e
      e := v.d + temp1
      d := v.c
      c := v.b
      b := v.a
      a := temp1 + temp2 }

/-- The locals are added to the globals. -/
def Registers.add (s v : Registers) : Registers where
  a := s.a + v.a
  b := s.b + v.b
  c := s.c + v.c
  d := s.d + v.d
  e := s.e + v.e
  f := s.f + v.f
  g := s.g + v.g
  h := s.h + v.h

/-- A pass of `$block_loop`: the memory and the globals. -/
def blockBody (b : I32) (s : Memory × Registers) : Option (Memory × Registers) := do
  let block := inputPtr + b * 64
  let mem ← loop 16 (blockWord block) 0 s.1
  let mem ← loop 64 scheduleWord 16 mem
  let v ← loop 64 (roundBody mem) 0 s.2
  pure (mem, s.2.add v)

/-- `$store_be32`. -/
def storeBe32 (mem : Memory) (ptr v : I32) : Option Memory := do
  let mem ← mem.store8 (ptr + 0) (shrU v 24)
  let mem ← mem.store8 (ptr + 1) (shrU v 16)
  let mem ← mem.store8 (ptr + 2) (shrU v 8)
  mem.store8 (ptr + 3) v

/-- `hash`. -/
def hash (mem : Memory) (paddedLen : I32) : Option Memory := do
  let mem ← initK mem
  let numBlocks := paddedLen / 64
  let s ← loop numBlocks blockBody 0 (mem, initialRegisters)
  let mem ← storeBe32 s.1 (outPtr + 0) s.2.a
  let mem ← storeBe32 mem (outPtr + 4) s.2.b
  let mem ← storeBe32 mem (outPtr + 8) s.2.c
  let mem ← storeBe32 mem (outPtr + 12) s.2.d
  let mem ← storeBe32 mem (outPtr + 16) s.2.e
  let mem ← storeBe32 mem (outPtr + 20) s.2.f
  let mem ← storeBe32 mem (outPtr + 24) s.2.g
  storeBe32 mem (outPtr + 28) s.2.h

/-! ## `WasmSha256` -/

def pageSize : Nat := 65536

/-- A page more than a 32-bit address reaches. -/
def maxPages : Nat := 65536

/-- `memory.grow`: whole pages of zeros, up to the last page there can be; it throws beyond that. -/
def grow (mem : Memory) (pages : Nat) : Option Memory :=
  if mem.size + pages * pageSize ≤ maxPages * pageSize then
    some
      { size := mem.size + pages * pageSize
        bytes := fun q => if q < mem.size then mem.bytes q else 0 }
  else none

/-- An instance of the module: a memory of whole pages, sixteen of them at least. -/
structure WasmSha256 where
  memory : Memory
  pages : Nat
  size_eq : memory.size = pages * pageSize
  sixteen_le : 16 ≤ pages
  le_maxPages : pages ≤ maxPages

/-- `_ensureCapacity`. -/
def ensureCapacity (mem : Memory) (len : Nat) : Option Memory :=
  let needed := inputPtr.toNat + len + 9 + 63
  if mem.size < needed then grow mem ((needed - mem.size + (pageSize - 1)) / pageSize) else some mem

/-- `hash`: the memory after it and the digest; none if it throws. -/
def hashBytes (mem : Memory) (content : List UInt8) : Option (Memory × List UInt8) := do
  let mem ← ensureCapacity mem content.length
  let mem := mem.set inputPtr.toNat (content.map UInt8.toBitVec)
  let padded ← pad mem (BitVec.ofNat 32 content.length)
  let mem ← hash padded.1 padded.2
  pure (mem, (mem.slice outPtr.toNat 32).map UInt8.ofBitVec)

def bytesToHex (bytes : List UInt8) : String :=
  String.ofList (bytes.flatMap fun b => Lib.Sha256.hexByte b.toNat)

/-- `hexOfUtf8`: the bytes of the text are those of a `TextEncoder`. -/
def hexOfUtf8 (mem : Memory) (s : String) : Option (Memory × String) :=
  (hashBytes mem (s.toList.flatMap String.utf8EncodeChar)).map fun r => (r.1, bytesToHex r.2)

end RegEngine.VerificationPortal
