import NetworkStack.Lib.CString
import NetworkStack.Lib.Computation

/-!
# Arrays with checked accesses

Every read and every write names its array and its index, and the first one outside its array
ends the computation with that access. Forgetting which access it was gives the partial
functions that the rest of a model uses.
-/

namespace NetworkStack.Bounded

open CString NetworkStack.Computation

/-- An access outside an array. -/
structure Violation (ι : Type*) where
  array : ι
  index : Int
  deriving DecidableEq, Repr

variable {ι : Type*} (array : ι)

def readAt (mem : List Byte) (i : Int) : Except (Violation ι) Byte :=
  match if 0 ≤ i then mem[i.toNat]? else none with
  | some b => .ok b
  | none => .error ⟨array, i⟩

def writeAt (mem : List Byte) (i : Int) (b : Byte) : Except (Violation ι) (List Byte) :=
  if 0 ≤ i ∧ i < mem.length then .ok (mem.set i.toNat b) else .error ⟨array, i⟩

/-- Bytes written one after another, from `i` on. -/
def writeAll : List Byte → Nat → List Byte → Except (Violation ι) (List Byte)
  | mem, _, [] => .ok mem
  | mem, i, b :: s => do
      let mem ← writeAt array mem i b
      writeAll mem (i + 1) s

/-- The first zero byte of what is left of the array, from the index `i` on. -/
def strlenFrom : List Byte → Nat → Except (Violation ι) Nat
  | [], i => .error ⟨array, i⟩
  | b :: rest, i => if b = 0 then .ok i else strlenFrom rest (i + 1)

/-- `strlen`, and any other function that reads a string up to its end. -/
def strlen (mem : List Byte) : Except (Violation ι) Nat := strlenFrom array mem 0

theorem toOption_readAt (mem : List Byte) (i : Nat) :
    (readAt array mem i).toOption = mem[i]? := by
  rw [readAt, if_pos (Int.natCast_nonneg i), Int.toNat_natCast]
  cases mem[i]? <;> rfl

/-- There is nothing in front of an array. -/
theorem toOption_readAt_neg (mem : List Byte) {i : Int} (h : i < 0) :
    (readAt array mem i).toOption = none := by
  rw [readAt, if_neg (by omega)]
  rfl

theorem writeAt_natCast (mem : List Byte) (i : Nat) (b : Byte) :
    writeAt array mem i b = if i < mem.length then .ok (mem.set i b) else .error ⟨array, i⟩ := by
  unfold writeAt
  by_cases h : i < mem.length
  · rw [if_pos (by omega), if_pos h]
    rfl
  · rw [if_neg (by omega), if_neg h]

theorem toOption_writeAt (mem : List Byte) (i : Nat) (b : Byte) :
    (writeAt array mem i b).toOption = if i < mem.length then some (mem.set i b) else none := by
  rw [writeAt_natCast]
  split
  · rfl
  · rfl

theorem toOption_writeAll {mem : List Byte} {i : Nat} (hi : i ≤ mem.length) (s : List Byte) :
    (writeAll array mem i s).toOption =
      if i + s.length ≤ mem.length then some (overwrite mem i s) else none := by
  induction s generalizing mem i with
  | nil =>
      rw [List.length_nil, Nat.add_zero, if_pos hi, overwrite_nil]
      rfl
  | cons b s ih =>
      rw [writeAll, toOption_bind, toOption_writeAt, List.length_cons]
      by_cases h : i < mem.length
      · have hlen : (mem.set i b).length = mem.length := List.length_set
        rw [if_pos h, Option.bind_some, ih (by omega), hlen, overwrite_set h]
        exact if_congr (by omega) rfl rfl
      · rw [if_neg h, Option.bind_none, if_neg (by omega)]

theorem toOption_strlenFrom (mem : List Byte) (i : Nat) :
    (strlenFrom array mem i).toOption = (cString mem).map fun s => i + s.length := by
  induction mem generalizing i with
  | nil => rfl
  | cons b rest ih =>
      rw [strlenFrom]
      by_cases hb : b = 0
      · subst hb
        rw [if_pos rfl, cString, if_pos (by simp)]
        rfl
      · rw [if_neg hb, ih, cString, cString]
        have hcontains : (b :: rest).contains 0 = rest.contains 0 := by
          rw [List.contains_cons, Bool.or_eq_right_iff_imp]
          intro h
          exact absurd (beq_iff_eq.mp h).symm hb
        rw [hcontains, List.takeWhile_cons, if_pos (decide_eq_true hb)]
        split
        · rw [Option.map_some, Option.map_some, List.length_cons]
          congr 1
          omega
        · rfl

/-- The length of a string that is terminated inside its array. -/
theorem toOption_strlen (mem : List Byte) :
    (strlen array mem).toOption = (cString mem).map List.length := by
  rw [strlen, toOption_strlenFrom]
  simp

end NetworkStack.Bounded
