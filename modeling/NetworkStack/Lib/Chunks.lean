import Mathlib.Data.List.Basic

/-!
# A byte stream that arrives in chunks

A stream is the list of the pieces in which it can be read. A call that asks for more than
the next piece gets that piece, and a call that asks for less leaves the rest of it. What is
read in the end depends on the bytes only, not on how they were cut.
-/

namespace NetworkStack.Chunks

variable {α : Type*}

/-- Read until there are `count` bytes. The loop does not end if the stream does. -/
def readAll : List (List α) → Nat → Option (List α × List (List α))
  | chunks, 0 => some ([], chunks)
  | [], _ + 1 => none
  | chunk :: rest, count + 1 =>
      if chunk.length ≤ count + 1 then
        (readAll rest (count + 1 - chunk.length)).map fun r => (chunk ++ r.1, r.2)
      else some (chunk.take (count + 1), chunk.drop (count + 1) :: rest)

/-- Reading takes the first bytes of the stream and leaves the others. -/
theorem readAll_eq (chunks : List (List α)) (count : Nat) (h : count ≤ chunks.flatten.length) :
    ∃ rest, readAll chunks count = some (chunks.flatten.take count, rest) ∧
      rest.flatten = chunks.flatten.drop count := by
  induction chunks generalizing count with
  | nil =>
      obtain rfl : count = 0 := Nat.le_zero.mp h
      exact ⟨[], rfl, rfl⟩
  | cons chunk rest ih =>
      cases count with
      | zero => exact ⟨chunk :: rest, rfl, rfl⟩
      | succ n =>
          rw [List.flatten_cons, List.length_append] at h
          rw [readAll, List.flatten_cons]
          split
          · rename_i hle
            obtain ⟨rest', hread, hrest⟩ := ih (n + 1 - chunk.length) (by omega)
            refine ⟨rest', ?_, ?_⟩
            · rw [hread, Option.map_some, List.take_append, List.take_of_length_le hle]
            · rw [hrest, List.drop_append, List.drop_of_length_le hle, List.nil_append]
          · rename_i hlt
            refine ⟨chunk.drop (n + 1) :: rest, ?_, ?_⟩
            · rw [List.take_append_of_le_length (by omega)]
            · rw [List.flatten_cons, List.drop_append_of_le_length (by omega)]

/-- Only what is there can be read. -/
theorem le_of_readAll {chunks rest : List (List α)} {count : Nat} {bytes : List α}
    (h : readAll chunks count = some (bytes, rest)) : count ≤ chunks.flatten.length := by
  induction chunks generalizing count bytes with
  | nil =>
      cases count with
      | zero => exact Nat.le_refl 0
      | succ n => cases h
  | cons chunk more ih =>
      cases count with
      | zero => exact Nat.zero_le _
      | succ n =>
          rw [List.flatten_cons, List.length_append]
          rw [readAll] at h
          split at h
          · obtain ⟨⟨got, left⟩, hmore, heq⟩ := Option.map_eq_some_iff.mp h
            obtain ⟨-, rfl⟩ := Prod.mk.inj heq
            have hle := ih hmore
            omega
          · omega

theorem eq_of_readAll {chunks rest : List (List α)} {count : Nat} {bytes : List α}
    (h : readAll chunks count = some (bytes, rest)) :
    bytes = chunks.flatten.take count ∧ count ≤ chunks.flatten.length ∧
      rest.flatten = chunks.flatten.drop count := by
  have hcount := le_of_readAll h
  obtain ⟨rest', hread, hrest⟩ := readAll_eq chunks count hcount
  obtain ⟨rfl, rfl⟩ := Prod.mk.inj (Option.some.inj (hread.symm.trans h))
  exact ⟨rfl, hcount, hrest⟩

/-- A stream that starts with `bytes`, read for their length. -/
theorem readAll_append {chunks : List (List α)} {bytes more : List α}
    (h : chunks.flatten = bytes ++ more) :
    ∃ rest, readAll chunks bytes.length = some (bytes, rest) ∧ rest.flatten = more := by
  have hle : bytes.length ≤ chunks.flatten.length := by
    rw [h, List.length_append]
    exact Nat.le_add_right _ _
  obtain ⟨rest, hread, hrest⟩ := readAll_eq chunks bytes.length hle
  refine ⟨rest, ?_, ?_⟩
  · rw [hread, h, List.take_left]
  · rw [hrest, h, List.drop_left]

end NetworkStack.Chunks
