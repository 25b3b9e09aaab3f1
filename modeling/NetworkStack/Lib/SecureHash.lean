import NetworkStack.Lib.BlockHash
import NetworkStack.Lib.Bytes

/-!
# The secure hash standard

SHA-1 in the words of the standard: a message is padded to whole blocks of 64 bytes, and each
block is compressed with a schedule of 80 words.
-/

namespace NetworkStack.SecureHash

open Bytes

/-- The five words of a digest. -/
structure Digest where
  a : BitVec 32
  b : BitVec 32
  c : BitVec 32
  d : BitVec 32
  e : BitVec 32

namespace Digest

/-- The digest before the first block. -/
def initial : Digest where
  a := 0x67452301#32
  b := 0xEFCDAB89#32
  c := 0x98BADCFE#32
  d := 0x10325476#32
  e := 0xC3D2E1F0#32

def add (x y : Digest) : Digest where
  a := x.a + y.a
  b := x.b + y.b
  c := x.c + y.c
  d := x.d + y.d
  e := x.e + y.e

/-- The 20 bytes of the digest. -/
def bytes (x : Digest) : List Byte := be32 x.a ++ be32 x.b ++ be32 x.c ++ be32 x.d ++ be32 x.e

@[simp] theorem length_bytes (x : Digest) : x.bytes.length = 20 := rfl

end Digest

/-- A word of the block. -/
def word (block : List Byte) (t : Nat) : BitVec 32 :=
  block.getD (4 * t) 0 ++ block.getD (4 * t + 1) 0 ++ block.getD (4 * t + 2) 0 ++
    block.getD (4 * t + 3) 0

/-- The message schedule `W`. -/
def schedule (block : List Byte) (t : Nat) : BitVec 32 :=
  if t < 16 then word block t
  else
    (schedule block (t - 3) ^^^ schedule block (t - 8) ^^^ schedule block (t - 14) ^^^
      schedule block (t - 16)).rotateLeft 1
termination_by t

/-- The function of round `t`. -/
def f (t : Nat) (b c d : BitVec 32) : BitVec 32 :=
  if t < 20 then (b &&& c) ||| (~~~b &&& d)
  else if t < 40 then b ^^^ c ^^^ d
  else if t < 60 then (b &&& c) ||| (b &&& d) ||| (c &&& d)
  else b ^^^ c ^^^ d

/-- The constant of round `t`. -/
def k (t : Nat) : BitVec 32 :=
  if t < 20 then 0x5A827999#32
  else if t < 40 then 0x6ED9EBA1#32
  else if t < 60 then 0x8F1BBCDC#32
  else 0xCA62C1D6#32

section Round

variable {t : Nat}

theorem f_choose (h : t < 20) : f t = fun b c d => (b &&& c) ||| (~~~b &&& d) := by
  funext b c d
  rw [f, if_pos h]

theorem f_parity (h : 20 ≤ t ∧ t < 40 ∨ 60 ≤ t) : f t = fun b c d => b ^^^ c ^^^ d := by
  funext b c d
  rw [f, if_neg (by omega)]
  rcases h with ⟨-, h⟩ | h
  · rw [if_pos h]
  · rw [if_neg (by omega), if_neg (by omega)]

theorem f_majority (h : 40 ≤ t) (h' : t < 60) :
    f t = fun b c d => (b &&& c) ||| (b &&& d) ||| (c &&& d) := by
  funext b c d
  rw [f, if_neg (by omega), if_neg (by omega), if_pos h']

theorem k_first (h : t < 20) : k t = 0x5A827999#32 := by
  rw [k, if_pos h]

theorem k_second (h : 20 ≤ t) (h' : t < 40) : k t = 0x6ED9EBA1#32 := by
  rw [k, if_neg (by omega), if_pos h']

theorem k_third (h : 40 ≤ t) (h' : t < 60) : k t = 0x8F1BBCDC#32 := by
  rw [k, if_neg (by omega), if_neg (by omega), if_pos h']

theorem k_fourth (h : 60 ≤ t) : k t = 0xCA62C1D6#32 := by
  rw [k, if_neg (by omega), if_neg (by omega), if_neg (by omega)]

end Round

/-- Round `t`. -/
def round (block : List Byte) (x : Digest) (t : Nat) : Digest where
  a := x.a.rotateLeft 5 + f t x.b x.c x.d + x.e + schedule block t + k t
  b := x.a
  c := x.b.rotateLeft 30
  d := x.c
  e := x.d

/-- The digest after one more block. -/
def compress (x : Digest) (block : List Byte) : Digest :=
  x.add ((List.range 80).foldl (round block) x)

/-- What follows a message of this many bytes: a one, the fewest zeros that make whole blocks,
and the number of its bits. -/
def padding (length : Nat) : List Byte :=
  0x80#8 :: List.replicate ((119 - length % 64) % 64) 0#8 ++
    (be32 (BitVec.ofNat 32 (8 * length / 2 ^ 32)) ++ be32 (BitVec.ofNat 32 (8 * length)))

/-- The digest of a message of less than 2^64 bits. -/
def digest (message : List Byte) : Digest :=
  BlockHash.hash compress 64 .initial (message ++ padding message.length)

end NetworkStack.SecureHash
