import Mathlib.Data.List.Basic

/-!
# Blocks of a list

A list is cut into blocks of a fixed size from the front; the last one has what is left and may
be empty. No list of pieces of this size that makes up the whole is shorter than the size needs.
-/

namespace NetworkStack.Blocks

variable {α : Type*} {l : List α} {size n : Nat}

/-- The first `n` blocks. -/
def blocks (size n : Nat) (l : List α) : List (List α) :=
  (List.range n).map fun i => (l.drop (i * size)).take size

@[simp] theorem length_blocks (size n : Nat) (l : List α) : (blocks size n l).length = n := by
  simp [blocks]

theorem blocks_succ (size n : Nat) (l : List α) :
    blocks size (n + 1) l = blocks size n l ++ [(l.drop (n * size)).take size] := by
  simp [blocks, List.range_succ]

theorem flatten_blocks (size n : Nat) (l : List α) :
    (blocks size n l).flatten = l.take (n * size) := by
  induction n with
  | zero => simp [blocks]
  | succ n ih =>
      calc
        (blocks size (n + 1) l).flatten
            = l.take (n * size) ++ (l.drop (n * size)).take size := by
          rw [blocks_succ, List.flatten_append, ih, List.flatten_singleton]
        _ = l.take (n * size + size) := List.take_add.symm
        _ = l.take ((n + 1) * size) := by rw [Nat.succ_mul]

/-- A front of whole blocks is cut by itself. -/
theorem blocks_append {front : List α} (h : front.length = n * size) (m : Nat) (back : List α) :
    blocks size (n + m) (front ++ back) = blocks size n front ++ blocks size m back := by
  unfold blocks
  rw [List.range_add, List.map_append, List.map_map]
  congr 1
  · refine List.map_congr_left fun i hi => ?_
    have hi : i + 1 ≤ n := List.mem_range.mp hi
    have hroom : i * size + size ≤ front.length := by
      rw [h, ← Nat.succ_mul]
      exact Nat.mul_le_mul_right size hi
    rw [List.drop_append_of_le_length (by omega),
      List.take_append_of_le_length (by rw [List.length_drop]; omega)]
  · refine List.map_congr_left fun i _ => ?_
    have hskip : (n + i) * size = front.length + i * size := by rw [h, Nat.add_mul]
    rw [Function.comp_apply, hskip, ← List.drop_drop, List.drop_left]

/-- Enough blocks make up the whole list. -/
theorem flatten_blocks_of_le (h : l.length ≤ n * size) : (blocks size n l).flatten = l := by
  rw [flatten_blocks]
  exact List.take_of_length_le h

theorem length_le_of_mem_blocks {block : List α} (h : block ∈ blocks size n l) :
    block.length ≤ size := by
  obtain ⟨i, -, rfl⟩ := List.mem_map.mp h
  exact List.length_take_le _ _

/-- Pieces of at most this size cannot be fewer than the list needs. -/
theorem length_flatten_le {pieces : List (List α)} (h : ∀ piece ∈ pieces, piece.length ≤ size) :
    pieces.flatten.length ≤ pieces.length * size := by
  induction pieces with
  | nil => simp
  | cons piece rest ih =>
      have hpiece : piece.length ≤ size := h piece List.mem_cons_self
      have hrest := ih fun p hp => h p (List.mem_cons_of_mem piece hp)
      rw [List.flatten_cons, List.length_append, List.length_cons, Nat.succ_mul]
      omega

end NetworkStack.Blocks
