import Mathlib.Data.List.DropRight
import NetworkStack.FileService.Session
import NetworkStack.Lib.Bounded
import NetworkStack.Lib.Lines

/-!
# The names a user types

The client reads a line with `fgets`, goes back over the white space at its end, and puts a carriage
return, a line feed and a terminator there. It takes a line with one character for an empty
one, and there may be no room for the three bytes.
-/

namespace NetworkStack.FileService

open Bounded CString NetworkStack.Computation Decimal Lines

/-- A computation on the array `line`. -/
abbrev Checked (α : Type) := Except (Violation Unit) α

/-- `sizeof(line)` in `loop_until_end`. -/
def lineSize : Nat := 1000

/-- The loop that goes back over white space. The argument is one more than the index of
`pline`, and so is the result. -/
def skipSpaces (line : List Byte) : Nat → Checked Nat
  | 0 => .ok 0
  | n + 1 => do
      let b ← readAt () line n
      if isSpace b then skipSpaces line n else .ok (n + 1)

/-- `loop_until_end` from `fgets` to `mywrite`, on an array `line` and the bytes that `fgets`
puts in: the bytes that are written, or `none` if the loop goes on with the next line. -/
def readRequest (line typed : List Byte) : Checked (Option (List Byte)) := do
  let line ← writeAll () line 0 (typed ++ [0])
  let length ← strlen () line
  let n ← skipSpaces line length
  if n ≤ 1 then return none
  else
    let line ← writeAll () line n [cr, lf, 0]
    return some (line.take (n + 2))

/-- The line without the white space at its end. -/
def trimmed (typed : List Byte) : List Byte := typed.rdropWhile isSpace

/-- The line is sent as it was typed, up to the white space at its end; a blank line is not. -/
def SendsTyped (line typed : List Byte) : Prop :=
  readRequest line typed =
    .ok (if trimmed typed = [] then none else some (trimmed typed ++ crlf))

/-- The line has no zero byte, more than one character or none at all, and room behind them. -/
def Sendable (typed : List Byte) : Prop :=
  0 ∉ typed ∧ (trimmed typed).length ≠ 1 ∧ (trimmed typed).length + 3 ≤ lineSize

instance (typed : List Byte) : Decidable (Sendable typed) :=
  inferInstanceAs (Decidable (_ ∧ _ ∧ _))

variable {line typed rest stdin : List Byte}

/-- The loop finds the end of what is not white space. -/
theorem toOption_skipSpaces {n : Nat} (h : n ≤ line.length) :
    (skipSpaces line n).toOption = some (trimmed (line.take n)).length := by
  induction n with
  | zero => rfl
  | succ n ih =>
      have hn : n < line.length := h
      rw [skipSpaces, toOption_bind, toOption_readAt, List.getElem?_eq_getElem hn,
        Option.bind_some, trimmed, List.take_add_one, List.getElem?_eq_getElem hn,
        Option.toList_some, List.rdropWhile_concat]
      split
      · exact ih (Nat.le_of_lt hn)
      · rw [List.length_append, List.length_take_of_le (Nat.le_of_lt hn)]
        rfl

theorem trimmed_prefix_typed (typed : List Byte) : trimmed typed <+: typed :=
  List.rdropWhile_prefix _ _

/-- What the client does with a line, by the string that it is. -/
theorem toOption_readRequest (hline : line.length = lineSize) (htyped : typed.length < lineSize) :
    (readRequest line typed).toOption =
      let name := trimmed (typed.takeWhile (· ≠ 0))
      if name.length ≤ 1 then some none
      else if name.length + 3 ≤ lineSize then some (some (name ++ crlf))
      else none := by
  have hroom : 0 + (typed ++ [0]).length ≤ line.length := by
    rw [List.length_append, List.length_singleton]
    omega
  -- the array behind `fgets`, and the string in it
  have harray : overwrite line 0 (typed ++ [0]) =
      typed ++ 0 :: line.drop (typed ++ [(0 : Byte)]).length := by
    rw [overwrite_zero, List.append_assoc, List.singleton_append]
  have hstring := cString_append_terminator typed (line.drop (typed ++ [(0 : Byte)]).length)
  have hlen : (overwrite line 0 (typed ++ [0])).length = lineSize := by
    rw [length_overwrite hroom, hline]
  rw [← harray] at hstring
  have hpre : typed.takeWhile (· ≠ 0) <+: overwrite line 0 (typed ++ [0]) := by
    rw [harray]
    exact (List.takeWhile_prefix _).trans (List.prefix_append _ _)
  rw [readRequest, toOption_bind, toOption_writeAll () (Nat.zero_le _), if_pos hroom,
    Option.bind_some]
  generalize overwrite line 0 (typed ++ [0]) = array at hstring hlen hpre ⊢
  generalize typed.takeWhile (· ≠ (0 : Byte)) = string at hstring hpre ⊢
  have htake : array.take string.length = string := (List.prefix_iff_eq_take.mp hpre).symm
  rw [toOption_bind, toOption_strlen, hstring, Option.map_some, Option.bind_some, toOption_bind,
    toOption_skipSpaces hpre.length_le, Option.bind_some, htake]
  have hname : trimmed string <+: array := (trimmed_prefix_typed string).trans hpre
  generalize trimmed string = name at hname ⊢
  change _ = if name.length ≤ 1 then some none else _
  split
  · rfl
  · rw [toOption_bind, toOption_writeAll () hname.length_le, hlen]
    change (if name.length + 3 ≤ lineSize then _ else _ : Option _).bind _ = _
    split
    · rw [Option.bind_some, overwrite, (List.prefix_iff_eq_take.mp hname).symm, List.append_assoc,
        List.take_length_add_append]
      rfl
    · rfl

theorem zero_mem_trimmed (h : 0 ∈ typed) : 0 ∈ trimmed typed := by
  have hsplit : trimmed typed ++ typed.rtakeWhile isSpace = typed :=
    List.rdropWhile_append_rtakeWhile
  rw [← hsplit, List.mem_append] at h
  rcases h with h | h
  · exact h
  · exact absurd (List.mem_rtakeWhile_imp h) (by decide)

/-- A string is sent as it is exactly if it has not one character and there is room. -/
theorem sent_eq_iff (name : List Byte) :
    (if name.length ≤ 1 then some none
      else if name.length + 3 ≤ lineSize then some (some (name ++ crlf)) else none) =
        some (if name = [] then none else some (name ++ crlf)) ↔
      name.length ≠ 1 ∧ name.length + 3 ≤ lineSize := by
  match name with
  | [] => exact iff_of_true rfl (by decide)
  | [b] => exact iff_of_false (by simp) (by simp)
  | b :: c :: rest =>
      have hlong : ¬(b :: c :: rest).length ≤ 1 := by simp
      rw [if_neg hlong, if_neg (List.cons_ne_nil _ _), Option.ite_none_right_eq_some]
      simp

/-- A line that fits the array is sent as it should be exactly if it is sendable. -/
theorem sendsTyped_iff_sendable (hline : line.length = lineSize) (htyped : typed.length < lineSize) :
    SendsTyped line typed ↔ Sendable typed := by
  have hresult := toOption_readRequest hline htyped
  have hok : SendsTyped line typed ↔ (readRequest line typed).toOption =
      some (if trimmed typed = [] then none else some (trimmed typed ++ crlf)) := by
    unfold SendsTyped
    cases readRequest line typed <;> simp [Except.toOption]
  rw [hok, hresult]
  unfold Sendable
  by_cases hzero : 0 ∈ typed
  · -- the code sends no zero byte, but should
    refine iff_of_false ?_ (fun h => h.1 hzero)
    have hne : trimmed typed ≠ [] := List.ne_nil_of_mem (zero_mem_trimmed hzero)
    rw [if_neg hne]
    intro h
    have hsent : trimmed (typed.takeWhile (· ≠ 0)) ++ crlf = trimmed typed ++ crlf := by
      simp only [] at h
      split at h
      · cases h
      · split at h
        · exact Option.some.inj (Option.some.inj h)
        · cases h
    have hmem := zero_mem_trimmed hzero
    rw [← List.append_cancel_right hsent] at hmem
    exact not_mem_takeWhile typed ((trimmed_prefix_typed _).subset hmem)
  · rw [takeWhile_of_not_mem hzero, and_iff_right hzero]
    exact sent_eq_iff (trimmed typed)

/-- A newline is white space at the end of its line. -/
theorem newline_not_mem_trimmed (h : newline ∉ typed.dropLast) : newline ∉ trimmed typed := by
  cases hlast : typed.getLast? with
  | none =>
      rw [List.getLast?_eq_none_iff.mp hlast]
      exact List.not_mem_nil
  | some last =>
      have hconcat : typed.dropLast ++ [last] = typed := List.dropLast_append_getLast? last hlast
      rw [← hconcat, trimmed, List.rdropWhile_concat]
      split
      · exact fun hmem => h ((trimmed_prefix_typed _).subset hmem)
      · rename_i hspace
        rw [List.mem_append, List.mem_singleton, not_or]
        refine ⟨h, ?_⟩
        rintro rfl
        exact hspace (by decide)

/-- What is sent for a line that is short enough is a name that the server can be asked for. -/
theorem exists_name {bytes : List Byte} (hline : line.length = lineSize)
    (htyped : fgets lineSize stdin = some (typed, rest)) (hsendable : Sendable typed)
    (hbytes : readRequest line typed = .ok (some bytes)) (hshort : bytes.length ≤ 257) :
    ∃ name : Name, bytes = name.chars ++ crlf := by
  have hlen : typed.length < lineSize := length_fgets_lt htyped (by decide)
  have hsends := (sendsTyped_iff_sendable hline hlen).mpr hsendable
  rw [SendsTyped, hbytes, Except.ok.injEq] at hsends
  split at hsends
  · cases hsends
  · rename_i hne
    have heq : bytes = trimmed typed ++ crlf := Option.some.inj hsends
    have hlf : lf ∉ trimmed typed := newline_not_mem_trimmed (newline_not_mem_fgets htyped)
    have hshort : (trimmed typed).length ≤ 255 := by
      rw [heq, List.length_append] at hshort
      have htwo : crlf.length = 2 := rfl
      omega
    refine ⟨⟨trimmed typed, hne, ?_, ?_, hshort⟩, heq⟩
    · exact fun h => hsendable.1 ((trimmed_prefix_typed typed).subset h)
    · exact crlfFree_append List.isChain_nil hlf

/-- A line that a user can type is sent as it should be exactly if it is sendable. -/
theorem sendsTyped_iff (hline : line.length = lineSize)
    (htyped : fgets lineSize stdin = some (typed, rest)) :
    SendsTyped line typed ↔ Sendable typed :=
  sendsTyped_iff_sendable hline (length_fgets_lt htyped (by decide))

/-- A name and a line feed; the array is all zeros before. -/
theorem sendsTyped_name : SendsTyped (List.replicate 1000 0) (text "ab\n") := by
  have hline : (List.replicate 1000 (0 : Byte)).length = lineSize := List.length_replicate
  have htyped : fgets lineSize (text "ab\ncd\n") = some (text "ab\n", text "cd\n") := by
    decide +kernel
  exact (sendsTyped_iff hline htyped).mpr (by decide +kernel)

/-- A name of one character is taken for an empty line. -/
theorem not_sendsTyped_single : ¬SendsTyped (List.replicate 1000 0) (text "a\n") := by
  have hnothing : readRequest (List.replicate 1000 0) (text "a\n") = .ok none := by
    decide +kernel
  rw [SendsTyped, hnothing]
  decide +kernel

end NetworkStack.FileService
