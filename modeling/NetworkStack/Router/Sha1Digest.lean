import NetworkStack.Lib.Computation
import NetworkStack.Router.Sha1Block

/-!
# The digest of a message in pieces

Whatever calls are made on a context after its reset, no store leaves the message block, and
`SHA1Result` gives the digest of the standard for the bytes of all pieces, unless a piece came
after the result or there were 2^64 bits of them.

## Implementation notes

`Hashing` is kept by everything that stores a byte, padding included, so that the padded
message is one more message whose blocks are absorbed.
-/

namespace NetworkStack.Router

open Bytes BlockHash NetworkStack.Computation SecureHash Transition

variable {context context' : SHA1Context} {seen pending : List Byte}

/-- The digest and the front of the message block stand for what was seen. -/
structure Hashing (context : SHA1Context) (seen pending : List Byte) : Prop where
  index : context.messageBlockIndex = pending.length
  bytes : context.messageBlock.toList.take pending.length = pending
  absorbed : Absorbed compress 64 .initial seen context.digest pending

/-- Nothing but the digest, the block and its index has changed. -/
structure SameCounts (context context' : SHA1Context) : Prop where
  lengthLow : context'.lengthLow = context.lengthLow
  lengthHigh : context'.lengthHigh = context.lengthHigh
  computed : context'.computed = context.computed
  corrupted : context'.corrupted = context.corrupted

theorem SameCounts.trans {c₁ c₂ c₃ : SHA1Context} (h : SameCounts c₁ c₂) (h' : SameCounts c₂ c₃) :
    SameCounts c₁ c₃ where
  lengthLow := h'.lengthLow.trans h.lengthLow
  lengthHigh := h'.lengthHigh.trans h.lengthHigh
  computed := h'.computed.trans h.computed
  corrupted := h'.corrupted.trans h.corrupted

namespace Hashing

theorem putByte (h : Hashing context seen pending) (hroom : pending.length < 64) (b : Byte) :
    ∃ context', Router.putByte context b = some context' ∧
      Hashing context' (seen ++ [b]) (pending ++ [b]) ∧ SameCounts context context' := by
  have hindex : context.messageBlockIndex < 64 := by rw [h.index]; exact hroom
  refine ⟨_, by simp only [Router.putByte, setBlockByte, dif_pos hindex]; rfl, ⟨?_, ?_, ?_⟩, ?_⟩
  · simp [h.index]
  · have hlen : pending.length < context.messageBlock.toList.length := by simpa using hroom
    simp only [Vector.toList_set, h.index, List.length_append, List.length_singleton]
    rw [List.take_set, List.take_succ_eq_append_getElem hlen, h.bytes]
    simp
  · exact h.absorbed.append [b]
  · exact ⟨rfl, rfl, rfl, rfl⟩

theorem putZeros (h : Hashing context seen pending) {count : Nat}
    (hroom : pending.length + count ≤ 64) :
    ∃ context', Router.putZeros count context = some context' ∧
      Hashing context' (seen ++ List.replicate count 0) (pending ++ List.replicate count 0) ∧
      SameCounts context context' := by
  induction count generalizing context seen pending with
  | zero => exact ⟨context, rfl, by simpa using h, rfl, rfl, rfl, rfl⟩
  | succ count ih =>
      obtain ⟨c₁, hput, h₁, hsame⟩ := h.putByte (by omega) 0
      obtain ⟨c₂, hrest, h₂, hsame'⟩ := ih h₁ (by rw [List.length_append]; simp; omega)
      refine ⟨c₂, ?_, ?_, hsame.trans hsame'⟩
      · rw [Router.putZeros, hput]
        exact hrest
      · simpa [List.replicate_succ] using h₂

theorem zerosUpTo (h : Hashing context seen pending) (limit : Nat) (hlimit : limit ≤ 64)
    (hle : pending.length ≤ limit) :
    ∃ context', Router.zerosUpTo limit context = some context' ∧
      Hashing context' (seen ++ List.replicate (limit - pending.length) 0)
        (pending ++ List.replicate (limit - pending.length) 0) ∧
      SameCounts context context' := by
  rw [Router.zerosUpTo, h.index]
  exact h.putZeros (by omega)

end Hashing

/-- A block that completes what was seen is processed. -/
theorem process_of_absorbed
    (h : Absorbed compress 64 .initial seen context.digest context.messageBlock.toList) :
    ∃ context', sha1ProcessMessageBlock context = some context' ∧ Hashing context' seen [] ∧
      SameCounts context context' := by
  obtain ⟨s, hprocess, hdigest⟩ := sha1ProcessMessageBlock_spec context
  refine ⟨_, hprocess, ⟨rfl, rfl, ?_⟩, rfl, rfl, rfl, rfl⟩
  rw [hdigest]
  exact h.full (by omega) (by simp)

/-- The block is full. -/
theorem Hashing.process (h : Hashing context seen pending) (hfull : pending.length = 64) :
    ∃ context', sha1ProcessMessageBlock context = some context' ∧ Hashing context' seen [] ∧
      SameCounts context context' := by
  have hblock : context.messageBlock.toList = pending := by
    rw [← h.bytes, hfull, List.take_of_length_le (by simp)]
  exact process_of_absorbed (hblock ▸ h.absorbed)

/-! ## Padding -/

/-- The message length as the last eight bytes of a block. -/
def lengthBytes (context : SHA1Context) : List Byte :=
  be32 context.lengthHigh ++ be32 context.lengthLow

theorem SameCounts.lengthBytes_eq {context' : SHA1Context} (h : SameCounts context context') :
    lengthBytes context' = lengthBytes context := by
  rw [lengthBytes, lengthBytes, h.lengthHigh, h.lengthLow]

/-- Stores that together replace the last eight bytes of a list. -/
theorem set_eight {front back : List Byte} {i : Nat} (hfront : front.length = i)
    (hback : back.length = 8) (b₀ b₁ b₂ b₃ b₄ b₅ b₆ b₇ : Byte) :
    ((((((((front ++ back).set i b₀).set (i + 1) b₁).set (i + 2) b₂).set (i + 3) b₃).set
      (i + 4) b₄).set (i + 5) b₅).set (i + 6) b₆).set (i + 7) b₇ =
        front ++ [b₀, b₁, b₂, b₃, b₄, b₅, b₆, b₇] := by
  subst hfront
  match back, hback with
  | [_, _, _, _, _, _, _, _], _ => simp

/-- A byte of a word as the code takes it. -/
theorem byteOf_eq (x : Word) (n : Nat) :
    ((x >>> n) &&& 0xFF#32).setWidth 8 = x.extractLsb' n 8 := by
  apply BitVec.eq_of_toNat_eq
  have hmask : (x.toNat >>> n) &&& 255 = (x.toNat >>> n) % 2 ^ 8 :=
    Nat.and_two_pow_sub_one_eq_mod _ 8
  simp only [BitVec.toNat_setWidth, BitVec.toNat_and, BitVec.toNat_ushiftRight,
    BitVec.toNat_ofNat, Nat.reducePow, Nat.reduceMod, hmask, BitVec.extractLsb'_toNat,
    Nat.mod_mod]

theorem Hashing.putLength (h : Hashing context seen pending) (hlen : pending.length = 56) :
    ∃ context', Router.putLength context = some context' ∧
      context'.messageBlock.toList = pending ++ lengthBytes context ∧
      context'.digest = context.digest ∧ SameCounts context context' := by
  have hblock : context.messageBlock.toList =
      pending ++ context.messageBlock.toList.drop 56 := by
    have htake : context.messageBlock.toList.take 56 = pending := by rw [← hlen, h.bytes]
    rw [← htake, List.take_append_drop]
  have hback : (context.messageBlock.toList.drop 56).length = 8 := by simp
  have hlast (x : Word) : (x &&& 0xFF#32).setWidth 8 = x.extractLsb' 0 8 := by
    simpa using byteOf_eq x 0
  refine ⟨_, by simp only [Router.putLength, setBlockByte, Nat.reduceLT, dif_pos,
    Option.bind_eq_bind, Option.bind_some]; rfl, ?_⟩
  refine ⟨?_, rfl, rfl, rfl, rfl, rfl⟩
  simp only [Vector.toList_set, byteOf_eq]
  rw [hlast, hlast, hblock]
  exact set_eight hlen hback _ _ _ _ _ _ _ _

/-- A context between two calls that has taken in `seen` and can still take in more. -/
structure Taking (context : SHA1Context) (seen : List Byte) : Prop where
  hashing : ∃ pending, Hashing context seen pending ∧ pending.length < 64
  bits : context.lengthHigh.toNat * 2 ^ 32 + context.lengthLow.toNat = 8 * seen.length
  open_ : context.computed = false
  sound : context.corrupted = false

theorem Taking.length_lt (h : Taking context seen) : seen.length < 2 ^ 61 := by
  have hbits := h.bits
  have hhigh := context.lengthHigh.isLt
  have hlow := context.lengthLow.isLt
  omega

theorem lengthBytes_eq (h : Taking context seen) :
    lengthBytes context =
      be32 (BitVec.ofNat 32 (8 * seen.length / 2 ^ 32)) ++ be32 (BitVec.ofNat 32 (8 * seen.length)) := by
  have hbits := h.bits
  have hlow := context.lengthLow.isLt
  have hhigh : BitVec.ofNat 32 (8 * seen.length / 2 ^ 32) = context.lengthHigh := by
    apply BitVec.eq_of_toNat_eq
    have hlt := context.lengthHigh.isLt
    rw [BitVec.toNat_ofNat]
    omega
  have hlow' : BitVec.ofNat 32 (8 * seen.length) = context.lengthLow := by
    apply BitVec.eq_of_toNat_eq
    rw [BitVec.toNat_ofNat]
    omega
  rw [lengthBytes, hhigh, hlow']

/-- The last block of the padding is filled up to its length and processed. -/
theorem Hashing.finish (h : Hashing context seen pending) (hle : pending.length ≤ 56) :
    ∃ c₁ c₂ c₃, Router.zerosUpTo 56 context = some c₁ ∧ Router.putLength c₁ = some c₂ ∧
      sha1ProcessMessageBlock c₂ = some c₃ ∧ SameCounts context c₃ ∧
      Hashing c₃ (seen ++ List.replicate (56 - pending.length) 0 ++ lengthBytes context) [] := by
  obtain ⟨c₁, hzeros, h₁, hsame₁⟩ := h.zerosUpTo 56 (by omega) hle
  have hlen : (pending ++ List.replicate (56 - pending.length) 0).length = 56 := by
    rw [List.length_append, List.length_replicate]
    omega
  obtain ⟨c₂, hput, hblock, hdigest, hsame₂⟩ := h₁.putLength hlen
  have hbytes := hsame₁.lengthBytes_eq
  have habsorbed := h₁.absorbed.append (lengthBytes context)
  rw [← hdigest, ← hbytes, ← hblock, hbytes] at habsorbed
  obtain ⟨c₃, hprocess, h₃, hsame₃⟩ := process_of_absorbed habsorbed
  exact ⟨c₁, c₂, c₃, hzeros, hput, hprocess, (hsame₁.trans hsame₂).trans hsame₃, h₃⟩

/-- The padding of a message, from the zeros that are stored behind its first byte. -/
theorem Taking.padding_eq (h : Taking context seen) (zeros : Nat)
    (hzeros : zeros = (119 - seen.length % 64) % 64) :
    seen ++ [0x80] ++ List.replicate zeros 0 ++ lengthBytes context =
      seen ++ padding seen.length := by
  rw [lengthBytes_eq h, padding, hzeros]
  simp

/-- Padding completes the digest. -/
theorem Taking.pad (h : Taking context seen) :
    ∃ context', sha1PadMessage context = some context' ∧
      context'.digest = SecureHash.digest seen ∧ SameCounts context context' := by
  obtain ⟨pending, hhash, hlt⟩ := h.hashing
  have hindex := hhash.index
  have hmod := hhash.absorbed.length_pending hlt
  obtain ⟨c₁, hput, h₁, hsame₁⟩ := hhash.putByte hlt 0x80
  suffices ∃ context', sha1PadMessage context = some context' ∧ SameCounts context context' ∧
      Hashing context' (seen ++ padding seen.length) [] by
    obtain ⟨context', hpad, hsame, hfinal⟩ := this
    exact ⟨context', hpad, hfinal.absorbed.state_eq, hsame⟩
  rcases Nat.lt_or_ge 55 pending.length with hlong | hshort
  · -- The length does not fit behind the first padding byte.
    have hlen : (pending ++ [0x80]).length = pending.length + 1 := List.length_append
    obtain ⟨c₂, hzeros, h₂, hsame₂⟩ := h₁.zerosUpTo 64 (by omega) (by omega)
    obtain ⟨c₃, hprocess, h₃, hsame₃⟩ := h₂.process (by
      rw [List.length_append, List.length_replicate]
      omega)
    obtain ⟨c₄, c₅, c₆, hzeros', hlength, hprocess', hsame, h₆⟩ := h₃.finish (by simp)
    have hfront := (hsame₁.trans hsame₂).trans hsame₃
    have hbytes := hfront.lengthBytes_eq
    refine ⟨c₆, ?_, hfront.trans hsame, ?_⟩
    · rw [sha1PadMessage, if_pos (by omega), bind_of_some hput, bind_of_some hzeros,
        bind_of_some hprocess, bind_of_some hzeros', bind_of_some hlength, hprocess']
    · rw [← h.padding_eq (64 - (pending.length + 1) + 56) (by omega), List.replicate_add]
      simpa [hbytes, hlen] using h₆
  · have hlen : (pending ++ [0x80]).length = pending.length + 1 := List.length_append
    obtain ⟨c₂, c₃, c₄, hzeros, hlength, hprocess, hsame, h₄⟩ := h₁.finish (by omega)
    have hbytes := hsame₁.lengthBytes_eq
    refine ⟨c₄, ?_, hsame₁.trans hsame, ?_⟩
    · rw [sha1PadMessage, if_neg (by omega), bind_of_some hput, bind_of_some hzeros,
        bind_of_some hlength, hprocess]
    · rw [← h.padding_eq (56 - (pending.length + 1)) (by omega)]
      rwa [hbytes, hlen] at h₄

/-! ## Input -/

theorem Hashing.countByte (h : Hashing context seen pending) :
    Hashing (Router.countByte context) seen pending := by
  unfold Router.countByte
  dsimp only
  split
  · exact ⟨h.index, h.bytes, h.absorbed⟩
  · exact ⟨h.index, h.bytes, h.absorbed⟩

@[simp] theorem computed_countByte (context : SHA1Context) :
    (countByte context).computed = context.computed := by
  unfold countByte
  dsimp only
  split <;> rfl

/-- The two halves of the count are one number of 64 bits, and only its overflow corrupts. -/
theorem countByte_spec {n : Nat}
    (h : context.lengthHigh.toNat * 2 ^ 32 + context.lengthLow.toNat = 8 * n) :
    (n + 1 < 2 ^ 61 →
      (countByte context).lengthHigh.toNat * 2 ^ 32 + (countByte context).lengthLow.toNat =
        8 * (n + 1) ∧ (countByte context).corrupted = context.corrupted) ∧
    (2 ^ 61 ≤ n + 1 → (countByte context).corrupted = true) := by
  have hhigh := context.lengthHigh.isLt
  have hlow := context.lengthLow.isLt
  have hlowSum : (context.lengthLow + 8#32).toNat = (context.lengthLow.toNat + 8) % 2 ^ 32 :=
    BitVec.toNat_add _ _
  have hhighSum : (context.lengthHigh + 1#32).toNat = (context.lengthHigh.toNat + 1) % 2 ^ 32 :=
    BitVec.toNat_add _ _
  have hzero {x : Word} : x = 0#32 ↔ x.toNat = 0 := BitVec.toNat_eq.trans Iff.rfl
  by_cases hcarry : context.lengthLow + 8#32 = 0#32
  · have hlow0 := hzero.mp hcarry
    by_cases hover : context.lengthHigh + 1#32 = 0#32
    · have hhigh0 := hzero.mp hover
      have hcount : (countByte context).corrupted = true := by
        simp [countByte, hcarry, hover]
      exact ⟨fun hlt => by omega, fun _ => hcount⟩
    · have hhigh0 := mt hzero.mpr hover
      have hcount : countByte context =
          { context with
            lengthLow := context.lengthLow + 8#32
            lengthHigh := context.lengthHigh + 1#32 } := by
        simp [countByte, and_mask, hcarry, hover]
      have hlow' : (countByte context).lengthLow = context.lengthLow + 8#32 := by rw [hcount]
      have hhigh' : (countByte context).lengthHigh = context.lengthHigh + 1#32 := by rw [hcount]
      refine ⟨fun _ => ⟨?_, by rw [hcount]⟩, fun hge => by omega⟩
      have hnext : (context.lengthHigh + 1#32).toNat = context.lengthHigh.toNat + 1 := by omega
      have hfull : context.lengthLow.toNat + 8 = 2 ^ 32 := by omega
      calc
        (countByte context).lengthHigh.toNat * 2 ^ 32 + (countByte context).lengthLow.toNat
            = context.lengthHigh.toNat * 2 ^ 32 + (context.lengthLow.toNat + 8) := by
          rw [hlow', hhigh', hnext, hlow0, Nat.add_zero, Nat.succ_mul, hfull]
        _ = 8 * (n + 1) := by rw [← Nat.add_assoc, h, Nat.mul_succ]
  · have hlow0 := mt hzero.mpr hcarry
    have hcount : countByte context = { context with lengthLow := context.lengthLow + 8#32 } := by
      simp [countByte, and_mask, hcarry]
    have hlow' : (countByte context).lengthLow = context.lengthLow + 8#32 := by rw [hcount]
    have hhigh' : (countByte context).lengthHigh = context.lengthHigh := by rw [hcount]
    refine ⟨fun _ => ⟨?_, by rw [hcount]⟩, fun hge => by omega⟩
    rw [hlow', hhigh']
    omega

/-- What a context has come to: it takes in a message, has its digest, or has failed. -/
inductive HashStatus where
  | taking (seen : List Byte)
  | done (message : List Byte)
  | failed

/-- The message so far, if it can still be counted. -/
def HashStatus.of (seen : List Byte) : HashStatus :=
  if seen.length < 2 ^ 61 then .taking seen else .failed

theorem HashStatus.of_lt {seen : List Byte} (h : seen.length < 2 ^ 61) :
    HashStatus.of seen = .taking seen := if_pos h

theorem HashStatus.of_ge {seen : List Byte} (h : 2 ^ 61 ≤ seen.length) :
    HashStatus.of seen = .failed := if_neg (Nat.not_lt.mpr h)

/-- What a call makes of it. -/
def HashStatus.next : HashStatus → Sha1Call → HashStatus
  | .taking seen, .input bytes => .of (seen ++ bytes)
  | .taking seen, .result => .done seen
  | .done message, .input bytes => if bytes.length = 0 then .done message else .failed
  | .done message, .result => .done message
  | .failed, _ => .failed

/-- The digest that a result gives, if it gives one. -/
def HashStatus.digest? : HashStatus → Option Digest
  | .taking seen => some (SecureHash.digest seen)
  | .done message => some (SecureHash.digest message)
  | .failed => none

/-- A context stands for a status. -/
def Realizes (context : SHA1Context) : HashStatus → Prop
  | .taking seen => Taking context seen
  | .done message =>
      context.computed = true ∧ context.corrupted = false ∧
        context.digest = SecureHash.digest message
  | .failed => context.corrupted = true

/-- One more byte is taken in, unless it makes 2^64 bits of the message. -/
theorem Taking.inputByte (h : Taking context seen) (b : Byte) :
    ∃ context', Router.inputByte context b = some context' ∧
      Realizes context' (.of (seen ++ [b])) := by
  obtain ⟨pending, hhash, hlt⟩ := h.hashing
  obtain ⟨c₁, hput, h₁, hsame₁⟩ := hhash.putByte hlt b
  have h₂ := h₁.countByte
  have hseen : (seen ++ [b]).length = seen.length + 1 := List.length_append
  have hlen : (pending ++ [b]).length = pending.length + 1 := List.length_append
  have hrealizes {c : SHA1Context} (hsame : SameCounts (countByte c₁) c)
      (hhash : ∃ pending, Hashing c (seen ++ [b]) pending ∧ pending.length < 64) :
      Realizes c (.of (seen ++ [b])) := by
    have hbits₁ : c₁.lengthHigh.toNat * 2 ^ 32 + c₁.lengthLow.toNat = 8 * seen.length := by
      rw [hsame₁.lengthHigh, hsame₁.lengthLow, h.bits]
    obtain ⟨hfits, hover⟩ := countByte_spec hbits₁
    rcases Nat.lt_or_ge (seen.length + 1) (2 ^ 61) with hlt | hge
    · obtain ⟨hbits, hcorrupted⟩ := hfits hlt
      rw [HashStatus.of_lt (by omega)]
      exact
        { hashing := hhash
          bits := by rw [hsame.lengthHigh, hsame.lengthLow, hbits, hseen]
          open_ := by rw [hsame.computed, computed_countByte, hsame₁.computed, h.open_]
          sound := by rw [hsame.corrupted, hcorrupted, hsame₁.corrupted, h.sound] }
    · rw [HashStatus.of_ge (by omega)]
      exact hsame.corrupted.trans (hover hge)
  rw [Router.inputByte, bind_of_some hput]
  by_cases hfull : pending.length + 1 = 64
  · obtain ⟨c₃, hprocess, h₃, hsame₃⟩ := h₂.process (by omega)
    have hindex : (countByte c₁).messageBlockIndex = 64 := by rw [h₂.index]; omega
    refine ⟨c₃, ?_, hrealizes hsame₃ ⟨[], h₃, by simp⟩⟩
    dsimp only
    rw [if_pos hindex, hprocess]
  · have hindex : (countByte c₁).messageBlockIndex ≠ 64 := by rw [h₂.index]; omega
    refine ⟨countByte c₁, ?_, hrealizes ⟨rfl, rfl, rfl, rfl⟩ ⟨_, h₂, by omega⟩⟩
    dsimp only
    rw [if_neg hindex]
    rfl

theorem inputLoop_of_corrupted (h : context.corrupted = true) (bytes : List Byte) :
    inputLoop context bytes = some context := by
  cases bytes with
  | nil => rfl
  | cons b rest => rw [inputLoop, if_pos h]

theorem Taking.inputLoop (h : Taking context seen) (bytes : List Byte) :
    ∃ context', Router.inputLoop context bytes = some context' ∧
      Realizes context' (.of (seen ++ bytes)) := by
  induction bytes generalizing context seen with
  | nil =>
      rw [List.append_nil, HashStatus.of_lt h.length_lt]
      exact ⟨context, rfl, h⟩
  | cons b rest ih =>
      obtain ⟨c₁, hbyte, h₁⟩ := h.inputByte b
      have hcons : seen ++ [b] ++ rest = seen ++ b :: rest := by simp
      rw [Router.inputLoop, if_neg (by simp [h.sound]), bind_of_some hbyte, ← hcons]
      rcases Nat.lt_or_ge (seen ++ [b]).length (2 ^ 61) with hlt | hge
      · rw [HashStatus.of_lt hlt] at h₁
        exact ih h₁
      · rw [HashStatus.of_ge hge] at h₁
        rw [HashStatus.of_ge (by rw [List.length_append]; omega)]
        exact ⟨c₁, inputLoop_of_corrupted h₁ rest, h₁⟩

/-! ## Runs -/

theorem realizes_reset (context : SHA1Context) : Realizes (sha1Reset context) (.taking []) where
  hashing := ⟨[], ⟨rfl, rfl, .start _⟩, by simp⟩
  bits := by simp [sha1Reset]
  open_ := rfl
  sound := rfl

theorem sha1Input_of_nil (context : SHA1Context) : sha1Input context [] = some context := rfl

theorem sha1Input_of_closed (h : context.computed = true ∨ context.corrupted = true)
    {bytes : List Byte} (hne : bytes.length ≠ 0) :
    sha1Input context bytes = some { context with corrupted := true } := by
  rw [sha1Input, if_neg hne, if_pos h]

/-- A result returns 1 with the digest, unless the context has failed. -/
theorem realizes_result {status : HashStatus} (h : Realizes context status) :
    ∃ context', sha1Result context = some (if status.digest?.isSome then 1 else 0, context') ∧
      Realizes context' (status.next .result) ∧
      ∀ digest ∈ status.digest?, context'.digest = digest := by
  cases status with
  | taking seen =>
      obtain ⟨hhash, hbits, hopen, hsound⟩ := h
      obtain ⟨c, hpad, hdigest, hsame⟩ := Taking.pad ⟨hhash, hbits, hopen, hsound⟩
      refine ⟨{ c with computed := true }, ?_, ⟨rfl, hsame.corrupted.trans hsound, hdigest⟩, ?_⟩
      · rw [sha1Result, if_neg (by simp [hsound]), if_pos (by simp [hopen]), bind_of_some hpad]
        rfl
      · rintro digest ⟨⟩
        exact hdigest
  | done message =>
      obtain ⟨hcomputed, hsound, hdigest⟩ := h
      refine ⟨context, ?_, ⟨hcomputed, hsound, hdigest⟩, ?_⟩
      · rw [sha1Result, if_neg (by simp [hsound]), if_neg (by simp [hcomputed])]
        rfl
      · rintro digest ⟨⟩
        exact hdigest
  | failed =>
      refine ⟨context, ?_, h, by rintro digest ⟨⟩⟩
      have hcorrupted : context.corrupted = true := h
      rw [sha1Result, if_pos hcorrupted]
      rfl

/-- Pieces without a byte change nothing. -/
theorem realizes_input {status : HashStatus} (h : Realizes context status) (bytes : List Byte) :
    ∃ context', sha1Input context bytes = some context' ∧
      Realizes context' (status.next (.input bytes)) := by
  rcases Nat.eq_zero_or_pos bytes.length with hnil | hpos
  · obtain rfl : bytes = [] := List.length_eq_zero_iff.mp hnil
    refine ⟨context, sha1Input_of_nil context, ?_⟩
    cases status with
    | taking seen =>
        rw [HashStatus.next, List.append_nil, HashStatus.of_lt (Taking.length_lt h)]
        exact h
    | done message => exact h
    | failed => exact h
  · have hne : bytes.length ≠ 0 := Nat.ne_of_gt hpos
    cases status with
    | taking seen =>
        obtain ⟨c, hloop, hc⟩ := Taking.inputLoop h bytes
        refine ⟨c, ?_, hc⟩
        rw [sha1Input, if_neg hne, if_neg (by simp [h.open_, h.sound]), hloop]
    | done message =>
        refine ⟨_, sha1Input_of_closed (.inl h.1) hne, ?_⟩
        rw [HashStatus.next, if_neg hne]
        rfl
    | failed => exact ⟨_, sha1Input_of_closed (.inr h) hne, rfl⟩

/-- Every call is safe and does to the context what it does to the status. -/
theorem realizes_step {status : HashStatus} (h : Realizes context status) (call : Sha1Call) :
    ∃ context', sha1Step context call = some context' ∧ Realizes context' (status.next call) := by
  cases call with
  | input bytes => exact realizes_input h bytes
  | result =>
      obtain ⟨context', hresult, hnext, -⟩ := realizes_result h
      exact ⟨context', by rw [sha1Step, hresult]; rfl, hnext⟩

theorem realizes_exec {status : HashStatus} (h : Realizes context status) (calls : List Sha1Call) :
    ∃ context', exec sha1Step context calls = some context' ∧
      Realizes context' (calls.foldl HashStatus.next status) := by
  induction calls generalizing context status with
  | nil => exact ⟨context, rfl, h⟩
  | cons call rest ih =>
      obtain ⟨c, hstep, hc⟩ := realizes_step h call
      obtain ⟨context', hrest, hfinal⟩ := ih hc
      exact ⟨context', by rw [exec, hstep, Option.bind_some, hrest], hfinal⟩

/-- The calls on a context, in any number and order after its reset, never store outside of its
block, and a result then gives the digest that the calls make. -/
theorem sha1Result_of_calls (context : SHA1Context) (calls : List Sha1Call) :
    ∃ c c', exec sha1Step (sha1Reset context) calls = some c ∧
      sha1Result c =
        some (if (calls.foldl HashStatus.next (.taking [])).digest?.isSome then 1 else 0, c') ∧
      ∀ digest ∈ (calls.foldl HashStatus.next (.taking [])).digest?, c'.digest = digest := by
  obtain ⟨c, hcalls, hc⟩ := realizes_exec (realizes_reset context) calls
  obtain ⟨c', hresult, -, hdigest⟩ := realizes_result hc
  exact ⟨c, c', hcalls, hresult, hdigest⟩

theorem foldl_next_input {seen : List Byte} {pieces : List (List Byte)}
    (h : (seen ++ pieces.flatten).length < 2 ^ 61) :
    (pieces.map Sha1Call.input).foldl HashStatus.next (.taking seen) =
      .taking (seen ++ pieces.flatten) := by
  induction pieces generalizing seen with
  | nil => simp
  | cons piece rest ih =>
      rw [List.flatten_cons, ← List.append_assoc] at h ⊢
      have hlen : (seen ++ piece ++ rest.flatten).length =
          (seen ++ piece).length + rest.flatten.length := List.length_append
      rw [List.map_cons, List.foldl_cons, HashStatus.next, HashStatus.of_lt (by omega), ih h]

/-- However a message is cut, its digest is that of the standard. -/
theorem sha1Result_of_pieces (context : SHA1Context) {pieces : List (List Byte)}
    (h : pieces.flatten.length < 2 ^ 61) :
    ∃ c c', exec sha1Step (sha1Reset context) (pieces.map .input) = some c ∧
      sha1Result c = some (1, c') ∧ c'.digest = SecureHash.digest pieces.flatten := by
  obtain ⟨c, hcalls, hc⟩ := realizes_exec (realizes_reset context) (pieces.map Sha1Call.input)
  rw [foldl_next_input (by simpa using h), List.nil_append] at hc
  obtain ⟨c', hresult, -, hdigest⟩ := realizes_result hc
  exact ⟨c, c', hcalls, hresult, hdigest _ rfl⟩

/-- A context that was never reset. -/
def staleContext : SHA1Context where
  messageDigest := .replicate 5 0
  lengthLow := 0
  lengthHigh := 0
  messageBlock := .replicate 64 0
  messageBlockIndex := 0
  computed := true
  corrupted := true

theorem sha1Result_of_two :
    ∃ c c', exec sha1Step (sha1Reset staleContext) ([[97], [98, 99]].map .input) = some c ∧
      sha1Result c = some (1, c') ∧ c'.digest = SecureHash.digest [[97], [98, 99]].flatten :=
  sha1Result_of_pieces staleContext (by decide)

/-- The digest of `abc`, which the standard gives as an example. -/
example :
    (do
      let c ← sha1Input (sha1Reset staleContext) [97, 98, 99]
      let r ← sha1Result c
      return (r.1, r.2.messageDigest)) =
    some (1, #v[0xa9993e36#32, 0x4706816a#32, 0xba3e2571#32, 0x7850c26c#32, 0x9cd0d89d#32]) := by
  decide +kernel

end NetworkStack.Router
