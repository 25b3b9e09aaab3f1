import NetworkStack.FileService.Nvt
import NetworkStack.Lib.Bounded

/-!
# Lines that are too long

`get_nvt_line` is not told the size of the array it stores into. Here every store is checked. It
never leaves the array at its front, and it leaves it at its end exactly if the line is too
long for it.

## Implementation notes

The bytes that `myread` delivers, one at a time, are a list, with what the call after the last of
them does. In `Nvt` such a stream is a `Pipe`, whose reads do not fail.
-/

namespace NetworkStack.FileService

open Bounded CString NetworkStack.Computation Decimal Transfer

/-- What `myread` does when there are no more bytes. -/
inductive StreamEnd where
  /-- It returns zero. -/
  | eof
  /-- It returns a negative number. -/
  | failed
  /-- It does not return. -/
  | silent
  deriving DecidableEq, Repr

/-- How `get_nvt_line` ends, with the bytes that it leaves. -/
inductive NvtResult where
  /-- It returns zero behind a carriage return and a line feed. -/
  | line (rest : List Byte)
  /-- It returns zero at the end of the stream. -/
  | cutOff
  /-- It returns -1. -/
  | failed
  /-- It still waits. -/
  | waits
  deriving DecidableEq, Repr

/-- The loop of `get_nvt_line` on the array `line`, with the index that the pointer is at. -/
def storeLine (streamEnd : StreamEnd) : List Byte → List Byte → Int → Byte →
    Except (Violation Unit) (NvtResult × List Byte)
  | line, [], i, _ =>
      match streamEnd with
      | .eof => do
          let line ← writeAt () line i 0
          return (.cutOff, line)
      | .failed => .ok (.failed, line)
      | .silent => .ok (.waits, line)
  | line, thisChar :: stream, i, lastChar =>
      if lastChar = cr ∧ thisChar = lf then do
        let line ← writeAt () line (i - 1) 0
        return (.line stream, line)
      else do
        let line ← writeAt () line i thisChar
        storeLine streamEnd line stream (i + 1) thisChar

/-- `get_nvt_line`. -/
def storeNvtLine (line stream : List Byte) (streamEnd : StreamEnd) :
    Except (Violation Unit) (NvtResult × List Byte) :=
  storeLine streamEnd line stream 0 0

/-- The bytes in front of the first carriage return that is followed by a line feed, and the
bytes behind the two. -/
def firstLine : List Byte → Option (List Byte × List Byte)
  | a :: b :: rest =>
      if a = cr ∧ b = lf then some ([], rest)
      else (firstLine (b :: rest)).map fun (line, rest) => (a :: line, rest)
  | _ => none

/-- What `get_nvt_line` is for: all stores are inside the array, none that is not is in front of it,
and behind the end of a line the array holds the bytes of the line as a string. -/
structure StoresLine (line stream : List Byte) (streamEnd : StreamEnd) : Prop where
  inside : ∃ result, storeNvtLine line stream streamEnd = .ok result
  front : ∀ violation, storeNvtLine line stream streamEnd = .error violation → 0 ≤ violation.index
  contents : ∀ rest array, storeNvtLine line stream streamEnd = .ok (.line rest, array) →
    ∃ chars, firstLine stream = some (chars, rest) ∧ array.take (chars.length + 1) = chars ++ [0]

/-- The line and its carriage return fit an array of this size; without the end of a line
all the bytes do, and the terminator if the stream ends. -/
def LineFits (size : Nat) (stream : List Byte) (streamEnd : StreamEnd) : Prop :=
  match firstLine stream with
  | some (chars, _) => chars.length + 1 ≤ size
  | none => stream.length + (if streamEnd = .eof then 1 else 0) ≤ size

instance (size : Nat) (stream : List Byte) (streamEnd : StreamEnd) :
    Decidable (LineFits size stream streamEnd) := by
  unfold LineFits
  split <;> infer_instance

variable {line stream chars rest array : List Byte} {streamEnd : StreamEnd} {lastChar : Byte} {i : Nat}

/-! ## The loop -/

/-- The only store that could be in front of the array is the one for the end of a line, and
then there is a carriage return in it. -/
theorem index_nonneg_of_storeLine {violation : Violation Unit} (hlast : lastChar = cr → 0 < i)
    (h : storeLine streamEnd line stream i lastChar = .error violation) : 0 ≤ violation.index := by
  have hwrite : ∀ {array : List Byte} {j : Int} {b : Byte}, 0 ≤ j →
      ∀ {β : Type} {f : List Byte → Except (Violation Unit) β}, (∀ array', f array' ≠ .error violation) →
        writeAt () array j b >>= f = .error violation → 0 ≤ violation.index := by
    intro array j b hj β f hf h
    unfold writeAt at h
    split at h
    · exact absurd h (hf _)
    · obtain rfl := Except.error.inj h
      exact hj
  induction stream generalizing line i lastChar with
  | nil =>
      cases streamEnd with
      | eof => exact hwrite (Int.natCast_nonneg i) (fun _ h => by cases h) h
      | failed => cases h
      | silent => cases h
  | cons thisChar stream ih =>
      rw [storeLine] at h
      split at h
      · rename_i hend
        have hpos := hlast hend.1
        exact hwrite (by omega) (fun _ h => by cases h) h
      · unfold writeAt at h
        split at h
        · exact ih (fun _ => Nat.succ_pos i) h
        · obtain rfl := Except.error.inj h
          exact Int.natCast_nonneg i

/-- With the last character in the array and the end of a line to come, the line is stored behind
what is in front of it. -/
theorem toOption_storeLine_of_firstLine (hi : i < line.length) (hlast : (line)[i]? = some lastChar)
    (h : firstLine (lastChar :: stream) = some (chars, rest)) :
    (storeLine streamEnd line stream (i + 1 : Nat) lastChar).toOption =
      if i + chars.length < line.length then some (.line rest, overwrite line i (chars ++ [0]))
      else none := by
  induction stream generalizing line i lastChar chars with
  | nil => cases h
  | cons thisChar stream ih =>
      rw [storeLine]
      rw [firstLine] at h
      split at h
      · rename_i hend
        obtain ⟨rfl, rfl⟩ := Prod.mk.inj (Option.some.inj h)
        have hindex : ((i + 1 : Nat) : Int) - 1 = (i : Nat) := by omega
        have hset : overwrite line i [0] = line.set i 0 := by
          rw [← overwrite_set hi, overwrite_nil]
        rw [if_pos hend, hindex, toOption_bind, toOption_writeAt, if_pos hi, List.length_nil,
          Nat.add_zero, if_pos hi, List.nil_append, hset]
        rfl
      · rename_i hend
        obtain ⟨⟨chars', rest'⟩, hfirst, hpair⟩ := Option.map_eq_some_iff.mp h
        obtain ⟨rfl, rfl⟩ := Prod.mk.inj hpair
        rw [if_neg hend, toOption_bind, toOption_writeAt, List.length_cons]
        by_cases hroom : i + 1 < line.length
        · have hlen : (line.set (i + 1) thisChar).length = line.length := List.length_set
          have hget : (line.set (i + 1) thisChar)[i + 1]? = some thisChar := by
            rw [List.getElem?_set_self hroom]
          have hstored : overwrite (line.set (i + 1) thisChar) (i + 1) (chars' ++ [0]) =
              overwrite line i (lastChar :: chars' ++ [0]) := by
            rw [overwrite_set_self thisChar (by simp), overwrite_succ hlast, List.cons_append]
          have hloop := ih (by rwa [hlen]) hget hfirst
          have hsum : i + (chars'.length + 1) = i + 1 + chars'.length := by omega
          rw [hlen, hstored] at hloop
          rw [if_pos hroom, Option.bind_some, hsum]
          exact hloop
        · rw [if_neg hroom, if_neg (by omega)]
          rfl

/-- Without the end of a line all bytes are stored, and a terminator if the stream ends. -/
theorem storeLine_of_none (streamEnd : StreamEnd) (hi : i < line.length)
    (h : firstLine (lastChar :: stream) = none) :
    ((storeLine streamEnd line stream (i + 1 : Nat) lastChar).toOption.isSome ↔
      i + 1 + stream.length + (if streamEnd = .eof then 1 else 0) ≤ line.length) ∧
    ∀ rest array, storeLine streamEnd line stream (i + 1 : Nat) lastChar ≠ .ok (.line rest, array) := by
  induction stream generalizing line i lastChar with
  | nil =>
      cases streamEnd with
      | eof =>
          simp only [storeLine, writeAt_natCast, List.length_nil, if_true]
          split
          · rename_i hroom
            exact ⟨iff_of_true rfl hroom, fun _ _ h => by cases h⟩
          · rename_i hroom
            exact ⟨iff_of_false Bool.false_ne_true hroom, fun _ _ h => by cases h⟩
      | failed => exact ⟨iff_of_true rfl hi, fun _ _ h => by cases h⟩
      | silent => exact ⟨iff_of_true rfl hi, fun _ _ h => by cases h⟩
  | cons thisChar stream ih =>
      rw [firstLine] at h
      split at h
      · cases h
      · rename_i hend
        rw [Option.map_eq_none_iff] at h
        rw [storeLine, if_neg hend, writeAt_natCast, List.length_cons]
        split
        · rename_i hroom
          have hlen : (line.set (i + 1) thisChar).length = line.length := List.length_set
          have hrest := ih (by rwa [hlen]) h
          rw [hlen] at hrest
          have hsum : i + 1 + (stream.length + 1) = i + 1 + 1 + stream.length := by omega
          rw [hsum]
          exact hrest
        · exact ⟨iff_of_false Bool.false_ne_true (by omega), fun _ _ h => by cases h⟩

/-! ## Whole lines -/

/-- The first character is stored whatever it is. -/
theorem storeNvtLine_cons (line stream : List Byte) (thisChar : Byte) (streamEnd : StreamEnd) :
    storeNvtLine line (thisChar :: stream) streamEnd =
      if 0 < line.length then storeLine streamEnd (line.set 0 thisChar) stream (0 + 1 : Nat) thisChar
      else .error ⟨(), 0⟩ := by
  have hnot : ¬((0 : Byte) = cr ∧ thisChar = lf) := fun h => absurd h.1 (by decide)
  have hwrite := writeAt_natCast () line 0 thisChar
  rw [Nat.cast_zero] at hwrite
  rw [storeNvtLine, storeLine, if_neg hnot, hwrite]
  split
  · rfl
  · rfl

theorem toOption_storeNvtLine_of_firstLine (line : List Byte) (streamEnd : StreamEnd)
    (h : firstLine stream = some (chars, rest)) :
    (storeNvtLine line stream streamEnd).toOption =
      if chars.length < line.length then some (.line rest, overwrite line 0 (chars ++ [0]))
      else none := by
  cases stream with
  | nil => cases h
  | cons thisChar stream =>
      rw [storeNvtLine_cons]
      by_cases hroom : 0 < line.length
      · have hlen : (line.set 0 thisChar).length = line.length := List.length_set
        have hget : (line.set 0 thisChar)[0]? = some thisChar := by
          rw [List.getElem?_set_self hroom]
        rw [if_pos hroom, toOption_storeLine_of_firstLine (by rwa [hlen]) hget h, hlen,
          overwrite_set_self thisChar (by simp), Nat.zero_add]
      · rw [if_neg hroom, if_neg (by omega)]
        rfl

theorem storeNvtLine_of_none (line : List Byte) (streamEnd : StreamEnd)
    (h : firstLine stream = none) :
    ((storeNvtLine line stream streamEnd).toOption.isSome ↔
      stream.length + (if streamEnd = .eof then 1 else 0) ≤ line.length) ∧
    ∀ rest array, storeNvtLine line stream streamEnd ≠ .ok (.line rest, array) := by
  cases stream with
  | nil =>
      cases streamEnd with
      | eof =>
          have hwrite := writeAt_natCast () line 0 0
          rw [Nat.cast_zero] at hwrite
          simp only [storeNvtLine, storeLine, hwrite, List.length_nil, if_true]
          split
          · rename_i hroom
            exact ⟨iff_of_true rfl hroom, fun _ _ h => by cases h⟩
          · rename_i hroom
            exact ⟨iff_of_false Bool.false_ne_true hroom, fun _ _ h => by cases h⟩
      | failed => exact ⟨iff_of_true rfl (Nat.zero_le _), fun _ _ h => by cases h⟩
      | silent => exact ⟨iff_of_true rfl (Nat.zero_le _), fun _ _ h => by cases h⟩
  | cons thisChar stream =>
      rw [storeNvtLine_cons]
      split
      · rename_i hroom
        have hlen : (line.set 0 thisChar).length = line.length := List.length_set
        have hrest := storeLine_of_none streamEnd (by rwa [hlen]) h
        rw [hlen] at hrest
        have hsum : (thisChar :: stream).length = 0 + 1 + stream.length := by
          rw [List.length_cons]
          omega
        rw [hsum]
        exact hrest
      · rename_i hroom
        rw [List.length_cons]
        exact ⟨iff_of_false Bool.false_ne_true (by omega), fun _ _ h => by cases h⟩

theorem isSome_storeNvtLine_iff (line stream : List Byte) (streamEnd : StreamEnd) :
    (storeNvtLine line stream streamEnd).toOption.isSome ↔ LineFits line.length stream streamEnd := by
  unfold LineFits
  cases hfirst : firstLine stream with
  | none => exact (storeNvtLine_of_none line streamEnd hfirst).1
  | some found =>
      obtain ⟨chars, rest⟩ := found
      rw [toOption_storeNvtLine_of_firstLine line streamEnd hfirst]
      change _ ↔ chars.length < line.length
      split
      · rename_i hfits
        exact iff_of_true rfl hfits
      · rename_i hfits
        exact iff_of_false Bool.false_ne_true hfits

/-! ## The model without an array -/

/-- How a result with checked stores shows in `nvtLoop`. -/
def Agrees (checked : Except (Violation Unit) (NvtResult × List Byte))
    (plain : Except Stuck (List Byte × Pipe Byte)) : Prop :=
  match checked with
  | .error _ => plain = .error .overrun
  | .ok (.line rest, array) => ∃ chars sd, plain = .ok (chars, sd) ∧ sd.pending = rest ∧
      array.take (chars.length + 1) = chars ++ [0]
  | .ok (.cutOff, array) => ∃ chars sd, plain = .ok (chars, sd) ∧ sd.pending = [] ∧
      array.take (chars.length + 1) = chars ++ [0]
  | .ok (.failed, _) => False
  | .ok (.waits, _) => plain = .error .waits

theorem take_set_succ {stored : List Byte} (hroom : stored.length < array.length)
    (hstored : array.take stored.length = stored) (b : Byte) :
    (array.set stored.length b).take (stored.length + 1) = stored ++ [b] := by
  rw [List.take_add_one, List.getElem?_set_self hroom, List.take_set_of_le (Nat.le_refl _), hstored]
  rfl

/-- Both loops go on together: what the one has in its list is at the front of the array of the
other. -/
theorem nvtLoop_agrees {fuel : Nat} {sd : Pipe Byte} {stored : List Byte}
    (hstored : array.take stored.length = stored) (hle : stored.length ≤ array.length)
    (hlast : lastChar = cr → stored ≠ []) (hfuel : sd.pending.length < fuel) :
    Agrees (storeLine (if sd.closed then .eof else .silent) array sd.pending stored.length lastChar)
      (nvtLoop array.length fuel sd lastChar stored) := by
  induction hpending : sd.pending generalizing sd array stored lastChar fuel with
  | nil =>
      obtain ⟨fuel, rfl⟩ : ∃ n, fuel = n + 1 := ⟨fuel - 1, by omega⟩
      rw [nvtLoop, Pipe.read, hpending]
      cases hclosed : sd.closed with
      | false => rfl
      | true =>
          simp only [if_true, storeLine, writeAt_natCast]
          by_cases hroom : stored.length < array.length
          · rw [if_pos hroom, if_pos hroom]
            exact ⟨stored, sd, rfl, hpending, take_set_succ hroom hstored 0⟩
          · rw [if_neg hroom, if_neg hroom]
            rfl
  | cons thisChar stream ih =>
      obtain ⟨fuel, rfl⟩ : ∃ n, fuel = n + 1 := ⟨fuel - 1, by omega⟩
      rw [nvtLoop, read_one_eq hpending, storeLine]
      by_cases hend : lastChar = cr ∧ thisChar = lf
      · obtain ⟨pre, b, rfl⟩ : ∃ pre b, stored = pre ++ [b] :=
          ⟨_, _, (List.dropLast_concat_getLast (hlast hend.1)).symm⟩
        have hpre : array.take pre.length = pre := by
          rw [List.length_append, List.length_singleton] at hstored
          have htake := congrArg (List.take pre.length) hstored
          rwa [List.take_take, Nat.min_eq_left (Nat.le_succ _), List.take_left' rfl] at htake
        have hroom : pre.length < array.length := by
          rw [List.length_append, List.length_singleton] at hle
          exact hle
        have hindex : (((pre ++ [b]).length : Nat) : Int) - 1 = (pre.length : Nat) := by
          rw [List.length_append, List.length_singleton]
          omega
        rw [if_pos hend, hindex, writeAt_natCast, if_pos hroom]
        simp only [if_pos hend, List.dropLast_concat]
        exact ⟨pre, _, rfl, rfl, take_set_succ hroom hpre 0⟩
      · rw [if_neg hend, writeAt_natCast]
        simp only [if_neg hend]
        by_cases hroom : stored.length < array.length
        · have hlen : (array.set stored.length thisChar).length = array.length := List.length_set
          have hnext : (stored ++ [thisChar]).length = stored.length + 1 := by simp
          have htake : (array.set stored.length thisChar).take (stored ++ [thisChar]).length =
              stored ++ [thisChar] := by
            rw [hnext]
            exact take_set_succ hroom hstored thisChar
          have hfuel' : stream.length < fuel := by
            rw [hpending, List.length_cons] at hfuel
            omega
          have hloop := @ih _ thisChar _ { sd with pending := stream, reads := sd.reads + 1 } _
            htake (by rw [hnext, hlen]; exact hroom) (fun _ => by simp) hfuel' rfl
          rw [hlen, hnext] at hloop
          rw [if_pos hroom, if_pos hroom]
          exact hloop
        · rw [if_neg hroom, if_neg hroom]
          rfl

/-- The array of `getNvtLine` is overrun exactly if the line does not fit it. -/
theorem getNvtLine_overrun_iff (size : Nat) (sd : Pipe Byte) :
    getNvtLine size sd = .error .overrun ↔
      ¬LineFits size sd.pending (if sd.closed then .eof else .silent) := by
  have hagrees := @nvtLoop_agrees (List.replicate size 0) 0 (sd.pending.length + 1) sd [] rfl
    (Nat.zero_le _) (fun h => absurd h (by decide)) (Nat.lt_succ_self _)
  have hfits := isSome_storeNvtLine_iff (List.replicate size 0) sd.pending
    (if sd.closed then .eof else .silent)
  rw [List.length_replicate] at hagrees hfits
  rw [← hfits, storeNvtLine, getNvtLine]
  change Agrees (storeLine _ (List.replicate size 0) sd.pending 0 0) _ at hagrees
  cases hstore : storeLine (if sd.closed then .eof else .silent) (List.replicate size 0) sd.pending 0 0 with
  | error violation =>
      rw [hstore] at hagrees
      have hplain : nvtLoop size (sd.pending.length + 1) sd 0 [] = .error .overrun := hagrees
      rw [hplain]
      exact iff_of_true rfl Bool.false_ne_true
  | ok result =>
      obtain ⟨result, array⟩ := result
      rw [hstore] at hagrees
      refine iff_of_false ?_ (fun h => h rfl)
      cases result with
      | line rest =>
          obtain ⟨chars, sd', hplain, -⟩ := hagrees
          rw [hplain]
          exact fun h => by cases h
      | cutOff =>
          obtain ⟨chars, sd', hplain, -⟩ := hagrees
          rw [hplain]
          exact fun h => by cases h
      | failed => exact hagrees.elim
      | waits =>
          have hplain : nvtLoop size (sd.pending.length + 1) sd 0 [] = .error .waits := hagrees
          rw [hplain]
          exact fun h => by cases h

/-! ## What the function is for -/

/-- `get_nvt_line` does what it is for exactly if the line fits the array. -/
theorem storesLine_iff (line stream : List Byte) (streamEnd : StreamEnd) :
    StoresLine line stream streamEnd ↔ LineFits line.length stream streamEnd := by
  have hinside : (∃ result, storeNvtLine line stream streamEnd = .ok result) ↔
      LineFits line.length stream streamEnd := by
    rw [← isSome_storeNvtLine_iff]
    cases storeNvtLine line stream streamEnd <;> simp [Except.toOption]
  refine ⟨fun h => hinside.mp h.inside, fun h => ⟨hinside.mpr h, ?_, ?_⟩⟩
  · intro violation hviolation
    exact @index_nonneg_of_storeLine _ _ _ _ 0 _ (fun h => absurd h (by decide)) hviolation
  · intro rest array harray
    cases hfirst : firstLine stream with
    | none => exact absurd harray ((storeNvtLine_of_none line streamEnd hfirst).2 rest array)
    | some found =>
        obtain ⟨chars, rest'⟩ := found
        have hresult := toOption_storeNvtLine_of_firstLine line streamEnd hfirst
        rw [harray] at hresult
        split at hresult
        · obtain ⟨hrest, rfl⟩ := Prod.mk.inj (Option.some.inj hresult)
          obtain rfl := NvtResult.line.inj hrest
          refine ⟨chars, rfl, ?_⟩
          rw [overwrite_zero]
          exact List.take_left' (by simp)
        · cases hresult

/-- A request of 300 characters overruns the array of the server. -/
theorem not_storesLine_long :
    ¬StoresLine (List.replicate 256 0) (List.replicate 300 (ascii 'a') ++ crlf) .silent := by
  intro h
  obtain ⟨result, hresult⟩ := h.inside
  have hlong : ¬LineFits (List.replicate 256 (0 : Byte)).length
      (List.replicate 300 (ascii 'a') ++ crlf) .silent := by decide +kernel
  apply hlong
  rw [← isSome_storeNvtLine_iff, hresult]
  exact Option.isSome_some

end NetworkStack.FileService
