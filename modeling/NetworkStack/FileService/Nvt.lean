import NetworkStack.Lib.Decimal
import NetworkStack.Lib.Transfer
import Mathlib.Data.List.Chain
import Mathlib.Data.List.TakeWhile

/-!
# Lines of the file service

Client and server read a line byte by byte up to a carriage return and a line feed, with the same
function. The caller's array is not checked for its size, so a line that does not fit has
no meaning. A line with a zero byte in it reads as a string only up to there.
-/

namespace NetworkStack.FileService

open Decimal Transfer

/-- Why a side does not get to the end of what it does. -/
inductive Stuck where
  /-- It waits for bytes that do not come. -/
  | waits
  /-- An array is overrun. -/
  | overrun
  /-- It gives up. -/
  | fails
  deriving DecidableEq, Repr

def cr : Byte := ascii '\r'

def lf : Byte := ascii '\n'

/-- The loop of `get_nvt_line`, with the characters stored so far. Each read takes one byte, so
that the number of bytes is enough fuel. -/
def nvtLoop (size : Nat) : Nat → Pipe Byte → Byte → List Byte → Except Stuck (List Byte × Pipe Byte)
  | 0, _, _, _ => .error .waits
  | fuel + 1, sd, lastChar, line =>
      match sd.read 1 with
      | none => .error .waits
      | some ([], sd) => if line.length < size then .ok (line, sd) else .error .overrun
      | some (thisChar :: _, sd) =>
          -- The carriage return is stored already; it is overwritten with the zero byte.
          if lastChar = cr ∧ thisChar = lf then .ok (line.dropLast, sd)
          else if line.length < size then nvtLoop size fuel sd thisChar (line ++ [thisChar])
          else .error .overrun

/-- `get_nvt_line` into an array of `size` bytes: the line as a string. -/
def getNvtLine (size : Nat) (sd : Pipe Byte) : Except Stuck (List Byte × Pipe Byte) := do
  let (line, sd) ← nvtLoop size (sd.pending.length + 1) sd 0 []
  return (line.takeWhile (· ≠ 0), sd)

/-- No carriage return is followed by a line feed. -/
def CrlfFree (line : List Byte) : Prop := line.IsChain fun a b => ¬(a = cr ∧ b = lf)

instance (line : List Byte) : Decidable (CrlfFree line) :=
  inferInstanceAs (Decidable (List.IsChain _ line))

def crlf : List Byte := [cr, lf]

variable {size fuel : Nat} {sd : Pipe Byte} {more : List Byte}

/-- A read of one byte gets the next one. -/
theorem read_one_eq {b : Byte} {rest : List Byte} (h : sd.pending = b :: rest) :
    sd.read 1 = some ([b], { sd with pending := rest, reads := sd.reads + 1 }) := by
  have hmin : min (sd.amounts sd.reads + 1) 1 = 1 := by omega
  rw [Pipe.read, h, hmin]
  rfl

theorem read_one {b : Byte} {rest : List Byte} (h : sd.pending = b :: rest) :
    ∃ sd' : Pipe Byte, sd.read 1 = some ([b], sd') ∧ sd'.pending = rest :=
  ⟨_, read_one_eq h, rfl⟩

/-- The loop stores a line as it is, and leaves what is behind it. -/
theorem nvtLoop_line {line stored : List Byte} {lastChar : Byte} (hline : CrlfFree (lastChar :: line))
    (hsize : stored.length + line.length < size) (hfuel : line.length + 2 ≤ fuel)
    (h : sd.pending = line ++ crlf ++ more) :
    ∃ sd' : Pipe Byte, nvtLoop size fuel sd lastChar stored = .ok (stored ++ line, sd') ∧
      sd'.pending = more := by
  induction line generalizing sd lastChar stored fuel with
  | nil =>
      obtain ⟨sd₁, hread₁, hpending₁⟩ := read_one h
      obtain ⟨sd₂, hread₂, hpending₂⟩ := read_one hpending₁
      obtain ⟨n, rfl⟩ : ∃ n, fuel = n + 2 := ⟨fuel - 2, by rw [List.length_nil] at hfuel; omega⟩
      refine ⟨sd₂, ?_, hpending₂⟩
      have hroom : stored.length < size := by simpa using hsize
      have hfirst : ¬(lastChar = cr ∧ cr = lf) := fun hboth => absurd hboth.2 (by decide)
      rw [nvtLoop, hread₁]
      simp only [if_neg hfirst]
      rw [if_pos hroom, nvtLoop, hread₂]
      simp only [and_self, if_true, List.dropLast_concat, List.append_nil]
  | cons c line ih =>
      obtain ⟨hpair, hrest⟩ := List.isChain_cons_cons.mp hline
      rw [List.length_cons] at hsize hfuel
      obtain ⟨sd₁, hread, hpending⟩ := read_one h
      obtain ⟨n, rfl⟩ : ∃ n, fuel = n + 1 := ⟨fuel - 1, by omega⟩
      have hsize' : (stored ++ [c]).length + line.length < size := by
        rw [List.length_append, List.length_singleton]
        omega
      have hfuel' : line.length + 2 ≤ n := by omega
      obtain ⟨sd', hloop, hmore⟩ := ih hrest hsize' hfuel' hpending
      refine ⟨sd', ?_, hmore⟩
      rw [nvtLoop, hread]
      simp only [if_neg hpair]
      rw [if_pos (by omega), hloop, List.append_assoc]
      rfl

/-- A line that fits is read as it was written. -/
theorem getNvtLine_eq {line : List Byte} (hline : CrlfFree line) (hzero : 0 ∉ line)
    (hsize : line.length < size) (h : sd.pending = line ++ crlf ++ more) :
    ∃ sd' : Pipe Byte, getNvtLine size sd = .ok (line, sd') ∧ sd'.pending = more := by
  have hstart : CrlfFree (0 :: line) := by
    cases line with
    | nil => exact List.isChain_singleton _
    | cons c rest => exact List.isChain_cons_cons.mpr ⟨fun hboth => absurd hboth.1 (by decide), hline⟩
  have hsize' : ([] : List Byte).length + line.length < size := by
    rwa [List.length_nil, Nat.zero_add]
  have hfuel : line.length + 2 ≤ sd.pending.length + 1 := by
    rw [h, List.length_append, List.length_append]
    have htwo : crlf.length = 2 := rfl
    omega
  obtain ⟨sd', hloop, hmore⟩ := nvtLoop_line hstart hsize' hfuel h
  refine ⟨sd', ?_, hmore⟩
  have htake : line.takeWhile (· ≠ 0) = line := by
    rw [List.takeWhile_eq_self_iff]
    intro b hb
    rw [decide_eq_true_iff]
    rintro rfl
    exact hzero hb
  calc getNvtLine size sd
      = .ok (line.takeWhile (· ≠ 0), sd') := by
        rw [getNvtLine, hloop, List.nil_append]
        rfl
    _ = .ok (line, sd') := by rw [htake]

end NetworkStack.FileService
