import NetworkStack.Lib.Blocks

/-!
# Hashes of whole blocks

A hash of this kind compresses one block of a fixed size after another into its state. A
program that hashes a message as it arrives keeps the state and what is pending of the next
block; `Absorbed` says that these two stand for the bytes seen so far.
-/

namespace NetworkStack.BlockHash

open Blocks

variable {σ β : Type*} (compress : σ → List β → σ) {size : Nat}

/-- The whole blocks of the message in turn; what is left over is not looked at. -/
def hash (size : Nat) (s : σ) (message : List β) : σ :=
  (blocks size (message.length / size) message).foldl compress s

@[simp] theorem hash_nil (s : σ) : hash compress size s [] = s := by
  simp [hash, blocks]

theorem hash_block (s : σ) {block : List β} (hsize : 0 < size) (h : block.length = size) :
    hash compress size s block = compress s block := by
  have hone : block.length / size = 1 := by rw [h, Nat.div_self hsize]
  have htake : block.take size = block := List.take_of_length_le (Nat.le_of_eq h)
  simp [hash, hone, blocks, htake]

/-- Whole blocks in front can be hashed first. -/
theorem hash_append (s : σ) {front : List β} (h : size ∣ front.length) (back : List β) :
    hash compress size s (front ++ back) =
      hash compress size (hash compress size s front) back := by
  obtain ⟨n, hn⟩ := h
  rcases Nat.eq_zero_or_pos size with rfl | hsize
  · obtain rfl : front = [] := List.length_eq_zero_iff.mp (by omega)
    simp
  have hfront : front.length / size = n := by rw [hn, Nat.mul_div_cancel_left n hsize]
  have hwhole : (front ++ back).length / size = n + back.length / size := by
    rw [List.length_append, hn, Nat.mul_add_div hsize]
  have hcut : front.length = n * size := by rw [hn, Nat.mul_comm]
  rw [hash, hash, hash, hwhole, hfront, blocks_append hcut, List.foldl_append]

/-- The state and the pending bytes stand for what was seen: the state is the hash of its whole
blocks, from `s` on, except for those that are pending. -/
def Absorbed (size : Nat) (s : σ) (seen : List β) (state : σ) (pending : List β) : Prop :=
  ∃ whole, seen = whole ++ pending ∧ size ∣ whole.length ∧ state = hash compress size s whole

namespace Absorbed

variable {compress} {s state : σ} {seen pending : List β}

theorem start (s : σ) : Absorbed compress size s [] s [] :=
  ⟨[], rfl, Nat.dvd_zero size, (hash_nil compress s).symm⟩

theorem append (h : Absorbed compress size s seen state pending) (bytes : List β) :
    Absorbed compress size s (seen ++ bytes) state (pending ++ bytes) := by
  obtain ⟨whole, rfl, hdvd, hstate⟩ := h
  exact ⟨whole, List.append_assoc _ _ _, hdvd, hstate⟩

/-- A full block is compressed. -/
theorem full (h : Absorbed compress size s seen state pending) (hsize : 0 < size)
    (hlen : pending.length = size) :
    Absorbed compress size s seen (compress state pending) [] := by
  obtain ⟨whole, rfl, hdvd, rfl⟩ := h
  refine ⟨whole ++ pending, by simp, ?_, ?_⟩
  · rw [List.length_append, hlen]
    exact Nat.dvd_add hdvd (Nat.dvd_refl size)
  · rw [hash_append compress s hdvd, hash_block compress _ hsize hlen]

/-- Less than a block is pending, so its length is what the bytes so far leave over. -/
theorem length_pending (h : Absorbed compress size s seen state pending)
    (hlt : pending.length < size) : pending.length = seen.length % size := by
  obtain ⟨whole, rfl, ⟨n, hn⟩, -⟩ := h
  rw [List.length_append, hn, Nat.mul_add_mod, Nat.mod_eq_of_lt hlt]

/-- With nothing pending the state is the hash of everything seen. -/
theorem state_eq (h : Absorbed compress size s seen state []) :
    state = hash compress size s seen := by
  obtain ⟨whole, rfl, -, rfl⟩ := h
  rw [List.append_nil]

end Absorbed

end NetworkStack.BlockHash
