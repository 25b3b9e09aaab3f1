import Mathlib.Data.List.Basic

/-!
# Buffers handed out piece by piece

Buffers are put at the end of a queue. A taker asks for so many bytes and gets a piece of
the first buffer: all that is left of it, or as much as was asked for. `Cut` relates the
buffers, the pieces handed out so far and what is still queued.
-/

namespace NetworkStack.Pieces

variable {α : Type*}

/-- With the pieces `opened` already taken from its first buffer, the queue was `whole`. A
buffer that is left at the head is not used up. -/
def Remaining (opened queue whole : List (List α)) : Prop :=
  match queue with
  | [] => opened = [] ∧ whole = []
  | q :: qs => whole = (opened.flatten ++ q) :: qs ∧ (opened ≠ [] → q ≠ [])

/-- The pieces are those of the first buffers, one group a buffer, and then those of the
buffer at the head of the queue. -/
structure Grouping (bufs pieces queue : List (List α)) (groups : List (List (List α)))
    (opened : List (List α)) : Prop where
  pieces_eq : pieces = groups.flatten ++ opened
  bufs_eq : ∃ whole, bufs = groups.map List.flatten ++ whole ∧ Remaining opened queue whole
  /-- An empty buffer is handed out once, as one empty piece. -/
  empty : ∀ group ∈ groups, group.flatten = [] → group = [[]]

/-- The pieces and the queue come from the buffers. -/
def Cut (bufs pieces queue : List (List α)) : Prop :=
  ∃ groups opened, Grouping bufs pieces queue groups opened

theorem cut_nil : Cut ([] : List (List α)) [] [] :=
  ⟨[], [], ⟨rfl, ⟨[], rfl, rfl, rfl⟩, by simp⟩⟩

section

variable {bufs pieces queue : List (List α)}

theorem Cut.push (h : Cut bufs pieces queue) (b : List α) :
    Cut (bufs ++ [b]) pieces (queue ++ [b]) := by
  obtain ⟨groups, opened, hpieces, ⟨whole, hbufs, hrem⟩, hempty⟩ := h
  refine ⟨groups, opened, hpieces, ⟨whole ++ [b], ?_, ?_⟩, hempty⟩
  · rw [hbufs, List.append_assoc]
  · cases queue with
    | nil =>
        obtain ⟨rfl, rfl⟩ := hrem
        exact ⟨rfl, fun hne => absurd rfl hne⟩
    | cons q qs =>
        obtain ⟨rfl, hne⟩ := hrem
        exact ⟨rfl, hne⟩

/-- A piece of the first buffer that leaves something of it. -/
theorem Cut.take_part {q : List α} {qs : List (List α)} (h : Cut bufs pieces (q :: qs))
    {n : Nat} (hn : n < q.length) :
    Cut bufs (pieces ++ [q.take n]) (q.drop n :: qs) := by
  obtain ⟨groups, opened, hpieces, ⟨whole, hbufs, rfl, -⟩, hempty⟩ := h
  refine ⟨groups, opened ++ [q.take n], ?_, ⟨_, hbufs, ?_, ?_⟩, hempty⟩
  · rw [hpieces, List.append_assoc]
  · simp [List.append_assoc]
  · intro _ hnil
    have hle := List.drop_eq_nil_iff.mp hnil
    omega

/-- All that is left of the first buffer. -/
theorem Cut.take_all {q : List α} {qs : List (List α)} (h : Cut bufs pieces (q :: qs)) :
    Cut bufs (pieces ++ [q]) qs := by
  obtain ⟨groups, opened, hpieces, ⟨whole, hbufs, rfl, hne⟩, hempty⟩ := h
  refine ⟨groups ++ [opened ++ [q]], [], ?_, ⟨qs, ?_, ?_⟩, ?_⟩
  · simp [hpieces, List.append_assoc]
  · simp [hbufs, List.append_assoc]
  · cases qs with
    | nil => exact ⟨rfl, rfl⟩
    | cons q' qs' => exact ⟨rfl, fun h => absurd rfl h⟩
  · intro group hmem hflat
    rcases List.mem_append.mp hmem with hmem | hmem
    · exact hempty group hmem hflat
    · obtain rfl := List.mem_singleton.mp hmem
      have hq : q = [] := by simp at hflat; exact hflat.2
      have hopened : opened = [] := by
        by_contra hopened
        exact hne hopened hq
      rw [hopened, hq]
      rfl

end

namespace Grouping

variable {bufs pieces queue opened : List (List α)} {groups : List (List (List α))}

/-- The first groups make up the first buffers. -/
theorem map_flatten_take (h : Grouping bufs pieces queue groups opened) {i : Nat}
    (hi : i ≤ groups.length) : (groups.take i).map List.flatten = bufs.take i := by
  obtain ⟨whole, hbufs, -⟩ := h.bufs_eq
  rw [hbufs, List.take_append_of_le_length (by simpa using hi), List.map_take]

/-- Nothing is lost, repeated or reordered. -/
theorem flatten_append (h : Grouping bufs pieces queue groups opened) :
    pieces.flatten ++ queue.flatten = bufs.flatten := by
  obtain ⟨whole, hbufs, hrem⟩ := h.bufs_eq
  have hwhole : opened.flatten ++ queue.flatten = whole.flatten := by
    cases queue with
    | nil =>
        obtain ⟨rfl, rfl⟩ := hrem
        rfl
    | cons q qs =>
        obtain ⟨rfl, -⟩ := hrem
        simp
  calc pieces.flatten ++ queue.flatten
      = groups.flatten.flatten ++ (opened.flatten ++ queue.flatten) := by
        rw [h.pieces_eq, List.flatten_append, List.append_assoc]
    _ = (groups.map List.flatten).flatten ++ whole.flatten := by
        rw [hwhole, List.flatten_flatten]
    _ = bufs.flatten := by rw [hbufs, List.flatten_append]

/-- What was taken from the buffer at the head are its first bytes. -/
theorem opened_prefix (h : Grouping bufs pieces queue groups opened) (hne : opened ≠ []) :
    ∃ buf, bufs[groups.length]? = some buf ∧ opened.flatten <+: buf := by
  obtain ⟨whole, hbufs, hrem⟩ := h.bufs_eq
  cases queue with
  | nil => exact absurd hrem.1 hne
  | cons q qs =>
      obtain ⟨rfl, -⟩ := hrem
      refine ⟨opened.flatten ++ q, ?_, List.prefix_append _ _⟩
      rw [hbufs, List.getElem?_append_right (by simp)]
      simp

/-- An empty buffer that was handed out is one empty piece, behind all the bytes before it. -/
theorem empty_buffer (h : Grouping bufs pieces queue groups opened) {i : Nat}
    (hi : i < groups.length) (hbuf : bufs[i]? = some []) :
    groups[i]? = some [[]] ∧ (groups.take i).flatten.flatten = (bufs.take i).flatten := by
  obtain ⟨whole, hbufs, -⟩ := h.bufs_eq
  have hflat : (groups.get ⟨i, hi⟩).flatten = [] := by
    rw [hbufs, List.getElem?_append_left (by simpa using hi)] at hbuf
    simpa [List.getElem?_eq_getElem hi] using hbuf
  refine ⟨?_, ?_⟩
  · rw [List.getElem?_eq_getElem hi]
    exact congrArg some (h.empty _ (List.getElem_mem hi) hflat)
  · rw [← h.map_flatten_take (Nat.le_of_lt hi), List.flatten_flatten]

end Grouping

end NetworkStack.Pieces
