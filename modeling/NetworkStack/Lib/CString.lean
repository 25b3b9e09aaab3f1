import NetworkStack.Lib.Bytes

/-!
# Strings in memory

A string is read from the memory it is stored in, up to the first zero byte. A string that is
not terminated inside its memory cannot be read: what is behind it is not known.
-/

namespace NetworkStack.CString

variable {s rest : List Byte}

/-- The string at the start of some memory. -/
def cString (memory : List Byte) : Option (List Byte) :=
  if memory.contains 0 then some (memory.takeWhile (· ≠ 0)) else none

/-- The string stored at the start of memory that was cleared. -/
def padded (size : Nat) (s : List Byte) : List Byte := s ++ List.replicate (size - s.length) 0

/-- Bytes written over an array, from `i` on. -/
def overwrite (array : List Byte) (i : Nat) (s : List Byte) : List Byte :=
  array.take i ++ s ++ array.drop (i + s.length)

/-- Bytes without the one that ends a text are all of the text. -/
theorem takeWhile_append_of_not_mem {c : Byte} (h : c ∉ s) :
    (s ++ rest).takeWhile (· ≠ c) = s ++ rest.takeWhile (· ≠ c) := by
  apply List.takeWhile_append_of_pos
  intro b hb
  rw [decide_eq_true_iff]
  rintro rfl
  exact h hb

theorem takeWhile_of_not_mem {c : Byte} (h : c ∉ s) : s.takeWhile (· ≠ c) = s := by
  have happend := @takeWhile_append_of_not_mem s [] c h
  rwa [List.append_nil, List.takeWhile_nil, List.append_nil] at happend

theorem not_mem_takeWhile (s : List Byte) : 0 ∉ s.takeWhile (· ≠ (0 : Byte)) := by
  intro h
  have hne := List.all_eq_true.mp List.all_takeWhile 0 h
  simp at hne

/-- A string that is terminated is shorter than its memory. -/
theorem length_takeWhile_lt (h : 0 ∈ s) : (s.takeWhile (· ≠ 0)).length < s.length := by
  have hpre := List.takeWhile_prefix (l := s) (· ≠ 0)
  refine Nat.lt_of_le_of_ne hpre.length_le fun hlen => ?_
  rw [← hpre.eq_of_length hlen] at h
  exact not_mem_takeWhile _ h

/-- A string is found up to its zero byte. -/
theorem cString_append_zero (h : 0 ∉ s) : cString (s ++ 0 :: rest) = some s := by
  rw [cString, if_pos (by simp), takeWhile_append_of_not_mem h]
  simp

/-- Bytes with a terminator behind them are a string up to their first zero byte. -/
theorem cString_append_terminator (s rest : List Byte) :
    cString (s ++ 0 :: rest) = some (s.takeWhile (· ≠ 0)) := by
  by_cases hzero : 0 ∈ s
  · obtain ⟨pre, post, rfl, hpre⟩ := List.eq_append_cons_of_mem hzero
    rw [takeWhile_append_of_not_mem hpre, List.append_assoc, List.cons_append,
      cString_append_zero hpre]
    simp
  · rw [takeWhile_of_not_mem hzero]
    exact cString_append_zero hzero

theorem length_overwrite {array : List Byte} {i : Nat} (h : i + s.length ≤ array.length) :
    (overwrite array i s).length = array.length := by
  simp only [overwrite, List.length_append, List.length_take, List.length_drop]
  omega

theorem overwrite_nil {array : List Byte} (i : Nat) : overwrite array i [] = array := by
  simp [overwrite]

theorem overwrite_zero (array s : List Byte) : overwrite array 0 s = s ++ array.drop s.length := by
  rw [overwrite, List.take_zero, List.nil_append, Nat.zero_add]

/-- Bytes that are written one by one. -/
theorem overwrite_set {array : List Byte} {i : Nat} (h : i < array.length) (b : Byte) :
    overwrite (array.set i b) (i + 1) s = overwrite array i (b :: s) := by
  have hset : array.set i b = array.take i ++ b :: array.drop (i + 1) := by
    rw [List.set_eq_take_append_cons_drop, if_pos h]
  have hlen : (array.take i).length = i := by
    rw [List.length_take, Nat.min_eq_left h.le]
  have htake : (array.set i b).take (i + 1) = array.take i ++ [b] := by
    rw [hset, List.take_append, hlen, List.take_of_length_le (by omega)]
    simp
  have hdrop : (array.set i b).drop (i + 1 + s.length) = array.drop (i + (b :: s).length) := by
    rw [List.drop_set_of_lt (by omega), List.length_cons]
    congr 1
    omega
  rw [overwrite, overwrite, htake, hdrop, List.append_assoc (array.take i)]
  rfl

/-- A byte that is there already. -/
theorem overwrite_succ {array : List Byte} {i : Nat} {b : Byte} (h : array[i]? = some b) :
    overwrite array (i + 1) s = overwrite array i (b :: s) := by
  obtain ⟨hi, hget⟩ := List.getElem?_eq_some_iff.mp h
  have hset : array.set i b = array := by
    rw [← hget]
    exact List.set_getElem_self hi
  rw [← overwrite_set hi, hset]

/-- A byte that is written over at once. -/
theorem overwrite_set_self {array : List Byte} {i : Nat} (b : Byte) (hs : s ≠ []) :
    overwrite (array.set i b) i s = overwrite array i s := by
  have hpos : 0 < s.length := List.length_pos_of_ne_nil hs
  rw [overwrite, overwrite, List.take_set_of_le (Nat.le_refl i), List.drop_set_of_lt (by omega)]

theorem length_padded {size : Nat} (h : s.length ≤ size) : (padded size s).length = size := by
  rw [padded, List.length_append, List.length_replicate]
  omega

theorem cString_padded {size : Nat} (h : s.length < size) (hs : 0 ∉ s) :
    cString (padded size s) = some s := by
  obtain ⟨n, hn⟩ := Nat.exists_eq_add_of_lt h
  rw [padded, hn, show s.length + n + 1 - s.length = n + 1 by omega, List.replicate_succ]
  exact cString_append_zero hs

/-- A string with zero bytes in it ends at the first of them. -/
theorem cString_padded_takeWhile {size : Nat} (h : s.length < size ∨ 0 ∈ s) :
    cString (padded size s) = some (s.takeWhile (· ≠ 0)) := by
  by_cases hzero : 0 ∈ s
  · obtain ⟨pre, post, rfl, hpre⟩ := List.eq_append_cons_of_mem hzero
    rw [takeWhile_append_of_not_mem hpre, padded, List.append_assoc, List.cons_append,
      cString_append_zero hpre]
    simp
  · rw [takeWhile_of_not_mem hzero]
    exact cString_padded (h.resolve_right hzero) hzero

/-- A string is followed by a zero byte. -/
theorem exists_of_cString {memory : List Byte} (h : cString memory = some s) :
    0 ∉ s ∧ ∃ rest, memory = s ++ 0 :: rest := by
  rw [cString, Option.ite_none_right_eq_some] at h
  obtain ⟨hmem, h⟩ := h
  obtain ⟨pre, post, rfl, hpre⟩ := List.eq_append_cons_of_mem (List.contains_iff_mem.mp hmem)
  obtain rfl : pre = s := by
    rw [takeWhile_append_of_not_mem hpre] at h
    simpa using h
  exact ⟨hpre, post, rfl⟩

/-- A string put behind another one. -/
theorem cString_overwrite {memory t : List Byte} (h : cString memory = some s) (ht : 0 ∉ t) :
    cString (overwrite memory s.length (t ++ [0])) = some (s ++ t) := by
  obtain ⟨hs, rest, rfl⟩ := exists_of_cString h
  have hst : 0 ∉ s ++ t := by
    rw [List.mem_append, not_or]
    exact ⟨hs, ht⟩
  rw [overwrite, List.take_left' rfl, List.append_assoc, List.append_assoc, ← List.append_assoc s,
    List.singleton_append]
  exact cString_append_zero hst

theorem cString_eq_none (h : 0 ∉ s) : cString s = none :=
  if_neg fun hs => h (List.contains_iff_mem.mp hs)

end NetworkStack.CString
