import Mathlib.Data.List.Basic
import NetworkStack.Lib.Bytes
import NetworkStack.Lib.Transition

/-!
# The SHA-1 code

A context takes in the pieces of a message and gives its digest. `none` is an access outside
of an array.

## Implementation notes

`W` of `SHA1ProcessMessageBlock` is filled from the front, so it is the list of the words
stored so far. A `Message_Block` keeps what it held before `SHA1Reset`.
-/

namespace NetworkStack.Router

open Bytes Transition

abbrev Word := BitVec 32

structure SHA1Context where
  messageDigest : Vector Word 5
  lengthLow : Word
  lengthHigh : Word
  messageBlock : Vector Byte 64
  messageBlockIndex : Nat
  computed : Bool
  corrupted : Bool
  deriving DecidableEq

/-- `SHA1CircularShift`. -/
def sha1CircularShift (bits : Nat) (word : Word) : Word :=
  ((word <<< bits) &&& 0xFFFFFFFF#32) ||| (word >>> (32 - bits))

/-- `SHA1Reset`. -/
def sha1Reset (context : SHA1Context) : SHA1Context :=
  { context with
    lengthLow := 0
    lengthHigh := 0
    messageBlockIndex := 0
    messageDigest :=
      #v[0x67452301#32, 0xEFCDAB89#32, 0x98BADCFE#32, 0x10325476#32, 0xC3D2E1F0#32]
    computed := false
    corrupted := false }

/-! ## One block -/

/-- The constants `K`. -/
def sha1K : Vector Word 4 := #v[0x5A827999#32, 0x6ED9EBA1#32, 0x8F1BBCDC#32, 0xCA62C1D6#32]

/-- A word of the block in the first loop. -/
def blockWord (block : Vector Byte 64) (t : Nat) : Option Word := do
  let w := (← block[t * 4]?).setWidth 32 <<< 24
  let w := w ||| (← block[t * 4 + 1]?).setWidth 32 <<< 16
  let w := w ||| (← block[t * 4 + 2]?).setWidth 32 <<< 8
  return w ||| (← block[t * 4 + 3]?).setWidth 32

/-- A word of the second loop. -/
def expandedWord (w : List Word) (t : Nat) : Option Word := do
  return sha1CircularShift 1 ((← w[t - 3]?) ^^^ (← w[t - 8]?) ^^^ (← w[t - 14]?) ^^^ (← w[t - 16]?))

/-- `count` passes of a loop that stores `W[t]`. -/
def fillW (word : List Word → Nat → Option Word) : Nat → Nat → List Word → Option (List Word)
  | 0, _, w => some w
  | count + 1, t, w => do
      let x ← word w t
      fillW word count (t + 1) (w ++ [x])

/-- The word sequence of a block. -/
def wordSequence (block : Vector Byte 64) : Option (List Word) := do
  let w ← fillW (fun _ t => blockWord block t) 16 0 []
  fillW expandedWord 64 16 w

/-- The word buffers. -/
structure WordBuffers where
  A : Word
  B : Word
  C : Word
  D : Word
  E : Word

/-- `count` passes of one of the four loops, which differ in `f` and `k`. -/
def rounds (f : Word → Word → Word → Word) (k : Word) (w : List Word) :
    Nat → Nat → WordBuffers → Option WordBuffers
  | 0, _, s => some s
  | count + 1, t, s => do
      let temp := sha1CircularShift 5 s.A + f s.B s.C s.D + s.E + (← w[t]?) + k
      let temp := temp &&& 0xFFFFFFFF#32
      rounds f k w count (t + 1)
        { A := temp, B := s.A, C := sha1CircularShift 30 s.B, D := s.C, E := s.D }

/-- The four loops of a block. -/
def fourLoops (w : List Word) (s : WordBuffers) : Option WordBuffers := do
  let s ← rounds (fun B C D => (B &&& C) ||| (~~~B &&& D)) sha1K[0] w 20 0 s
  let s ← rounds (fun B C D => B ^^^ C ^^^ D) sha1K[1] w 20 20 s
  let s ← rounds (fun B C D => (B &&& C) ||| (B &&& D) ||| (C &&& D)) sha1K[2] w 20 40 s
  rounds (fun B C D => B ^^^ C ^^^ D) sha1K[3] w 20 60 s

/-- The word buffers before the first round. -/
def SHA1Context.buffers (context : SHA1Context) : WordBuffers where
  A := context.messageDigest[0]
  B := context.messageDigest[1]
  C := context.messageDigest[2]
  D := context.messageDigest[3]
  E := context.messageDigest[4]

/-- What a block stores in the context. -/
def SHA1Context.addBuffers (context : SHA1Context) (s : WordBuffers) : SHA1Context :=
  let digest := context.messageDigest
  { context with
    messageDigest := #v[
      (digest[0] + s.A) &&& 0xFFFFFFFF#32,
      (digest[1] + s.B) &&& 0xFFFFFFFF#32,
      (digest[2] + s.C) &&& 0xFFFFFFFF#32,
      (digest[3] + s.D) &&& 0xFFFFFFFF#32,
      (digest[4] + s.E) &&& 0xFFFFFFFF#32]
    messageBlockIndex := 0 }

/-- `SHA1ProcessMessageBlock`. -/
def sha1ProcessMessageBlock (context : SHA1Context) : Option SHA1Context := do
  let w ← wordSequence context.messageBlock
  let s ← fourLoops w context.buffers
  return context.addBuffers s

/-! ## Input and padding -/

/-- `context->Message_Block[i] = b`. -/
def setBlockByte (context : SHA1Context) (i : Nat) (b : Byte) : Option SHA1Context :=
  if h : i < 64 then some { context with messageBlock := context.messageBlock.set i b }
  else none

/-- `context->Message_Block[context->Message_Block_Index++] = b`. -/
def putByte (context : SHA1Context) (b : Byte) : Option SHA1Context := do
  let context ← setBlockByte context context.messageBlockIndex b
  return { context with messageBlockIndex := context.messageBlockIndex + 1 }

/-- The count of the bits after one more byte. -/
def countByte (context : SHA1Context) : SHA1Context :=
  let low := (context.lengthLow + 8) &&& 0xFFFFFFFF#32
  if low = 0 then
    let high := (context.lengthHigh + 1) &&& 0xFFFFFFFF#32
    { context with
      lengthLow := low
      lengthHigh := high
      -- Message is too long.
      corrupted := if high = 0 then true else context.corrupted }
  else { context with lengthLow := low }

/-- The body of the loop of `SHA1Input`. -/
def inputByte (context : SHA1Context) (b : Byte) : Option SHA1Context := do
  let context ← putByte context b
  let context := countByte context
  if context.messageBlockIndex = 64 then sha1ProcessMessageBlock context else return context

/-- The loop of `SHA1Input`. -/
def inputLoop (context : SHA1Context) : List Byte → Option SHA1Context
  | [] => some context
  | b :: rest =>
      if context.corrupted then some context
      else do
        let context ← inputByte context b
        inputLoop context rest

/-- `SHA1Input`. -/
def sha1Input (context : SHA1Context) (messageArray : List Byte) : Option SHA1Context :=
  if messageArray.length = 0 then some context
  else if context.computed ∨ context.corrupted then some { context with corrupted := true }
  else inputLoop context messageArray

/-- `count` zeros. -/
def putZeros : Nat → SHA1Context → Option SHA1Context
  | 0, context => some context
  | count + 1, context => do
      let context ← putByte context 0
      putZeros count context

/-- `while(context->Message_Block_Index < limit)` with its body, which stores a zero. -/
def zerosUpTo (limit : Nat) (context : SHA1Context) : Option SHA1Context :=
  putZeros (limit - context.messageBlockIndex) context

/-- The stores of the message length. -/
def putLength (context : SHA1Context) : Option SHA1Context := do
  let high := context.lengthHigh
  let low := context.lengthLow
  let context ← setBlockByte context 56 (((high >>> 24) &&& 0xFF#32).setWidth 8)
  let context ← setBlockByte context 57 (((high >>> 16) &&& 0xFF#32).setWidth 8)
  let context ← setBlockByte context 58 (((high >>> 8) &&& 0xFF#32).setWidth 8)
  let context ← setBlockByte context 59 ((high &&& 0xFF#32).setWidth 8)
  let context ← setBlockByte context 60 (((low >>> 24) &&& 0xFF#32).setWidth 8)
  let context ← setBlockByte context 61 (((low >>> 16) &&& 0xFF#32).setWidth 8)
  let context ← setBlockByte context 62 (((low >>> 8) &&& 0xFF#32).setWidth 8)
  setBlockByte context 63 ((low &&& 0xFF#32).setWidth 8)

/-- `SHA1PadMessage`. -/
def sha1PadMessage (context : SHA1Context) : Option SHA1Context := do
  if context.messageBlockIndex > 55 then
    let context ← putByte context 0x80
    let context ← zerosUpTo 64 context
    let context ← sha1ProcessMessageBlock context
    let context ← zerosUpTo 56 context
    let context ← putLength context
    sha1ProcessMessageBlock context
  else
    let context ← putByte context 0x80
    let context ← zerosUpTo 56 context
    let context ← putLength context
    sha1ProcessMessageBlock context

/-- `SHA1Result` and what it returns. -/
def sha1Result (context : SHA1Context) : Option (Nat × SHA1Context) := do
  if context.corrupted then return (0, context)
  else if !context.computed then
    let context ← sha1PadMessage context
    return (1, { context with computed := true })
  else return (1, context)

/-! ## Calls -/

/-- A call on a context after its reset. -/
inductive Sha1Call where
  | input (messageArray : List Byte)
  | result

/-- What a call leaves behind. -/
def sha1Step (context : SHA1Context) : Sha1Call → Option SHA1Context
  | .input messageArray => sha1Input context messageArray
  | .result => (sha1Result context).map Prod.snd

end NetworkStack.Router
