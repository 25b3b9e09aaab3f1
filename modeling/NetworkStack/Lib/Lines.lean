import Mathlib.Data.List.Basic
import NetworkStack.Lib.Decimal

/-!
# Lines of a stream

`fgets` takes a line off a stream, with its newline, or as much of it as there is room for.
A stream whose lines all have room is read line by line.
-/

namespace NetworkStack.Lines

open Decimal

def newline : Byte := ascii '\n'

/-- At most `n` bytes, and none behind a newline; and what is left of the stream. -/
def takeLine : Nat → List Byte → List Byte × List Byte
  | 0, stream => ([], stream)
  | _ + 1, [] => ([], [])
  | n + 1, b :: stream =>
      if b = newline then ([b], stream)
      else (b :: (takeLine n stream).1, (takeLine n stream).2)

/-- `fgets` into an array of `size` bytes: the bytes in front of the terminator, and what is left
of the stream. -/
def fgets (size : Nat) (stream : List Byte) : Option (List Byte × List Byte) :=
  if stream = [] then none else some (takeLine (size - 1) stream)

/-- What `fgets` returns in one call after another. Each takes a byte off the stream at least. -/
def fgetsLoop (size : Nat) : Nat → List Byte → List (List Byte)
  | 0, _ => []
  | fuel + 1, stream =>
      match fgets size stream with
      | none => []
      | some (line, rest) => line :: fgetsLoop size fuel rest

/-- What `fgets` returns until the end of the stream. -/
def fgetsAll (size : Nat) (stream : List Byte) : List (List Byte) :=
  fgetsLoop size stream.length stream

/-- The lines of a stream, each with its newline. -/
def splitLines : List Byte → List (List Byte)
  | [] => []
  | b :: stream =>
      if b = newline then [b] :: splitLines stream
      else
        match splitLines stream with
        | [] => [[b]]
        | line :: rest => (b :: line) :: rest

variable {n size : Nat} {stream line rest : List Byte} {lines : List (List Byte)}

theorem takeLine_append (n : Nat) (stream : List Byte) :
    (takeLine n stream).1 ++ (takeLine n stream).2 = stream := by
  fun_induction takeLine n stream with
  | case1 => rfl
  | case2 => rfl
  | case3 => rfl
  | case4 n b stream hb ih => rw [List.cons_append, ih]

theorem length_takeLine_le (n : Nat) (stream : List Byte) : (takeLine n stream).1.length ≤ n := by
  fun_induction takeLine n stream with
  | case1 => rfl
  | case2 => exact Nat.zero_le _
  | case3 => exact Nat.succ_le_succ (Nat.zero_le _)
  | case4 n b stream hb ih => exact Nat.succ_le_succ ih

/-- A newline can only be the last byte of a line. -/
theorem newline_not_mem_dropLast (n : Nat) (stream : List Byte) :
    newline ∉ (takeLine n stream).1.dropLast := by
  fun_induction takeLine n stream with
  | case1 => exact List.not_mem_nil
  | case2 => exact List.not_mem_nil
  | case3 => exact List.not_mem_nil
  | case4 n b stream hb ih =>
      cases hline : (takeLine n stream).1 with
      | nil => exact List.not_mem_nil
      | cons c line =>
          rw [hline] at ih
          rw [List.dropLast_cons_of_ne_nil (List.cons_ne_nil c line), List.mem_cons, not_or]
          exact ⟨Ne.symm hb, ih⟩

theorem length_fgets_lt (h : fgets size stream = some (line, rest)) (hsize : 0 < size) :
    line.length < size := by
  unfold fgets at h
  split at h
  · cases h
  · have hline : (takeLine (size - 1) stream).1 = line := congrArg Prod.fst (Option.some.inj h)
    have hle := length_takeLine_le (size - 1) stream
    rw [hline] at hle
    omega

theorem newline_not_mem_fgets (h : fgets size stream = some (line, rest)) :
    newline ∉ line.dropLast := by
  unfold fgets at h
  split at h
  · cases h
  · have hline : (takeLine (size - 1) stream).1 = line := congrArg Prod.fst (Option.some.inj h)
    rw [← hline]
    exact newline_not_mem_dropLast _ _

/-! ## Reading a stream to its end -/

theorem splitLines_eq_nil : splitLines stream = [] ↔ stream = [] := by
  cases stream with
  | nil => exact iff_of_true rfl rfl
  | cons b stream =>
      refine iff_of_false ?_ (List.cons_ne_nil b stream)
      rw [splitLines]
      split
      · exact List.cons_ne_nil _ _
      · split <;> exact List.cons_ne_nil _ _

theorem splitLines_cons_of_ne {b : Byte} (hb : b ≠ newline) (h : splitLines stream = line :: lines) :
    splitLines (b :: stream) = (b :: line) :: lines := by
  rw [splitLines, if_neg hb, h]

/-- A line that there is room for is taken whole. -/
theorem takeLine_of_fits (h : splitLines stream = line :: lines) (hn : line.length ≤ n) :
    (takeLine n stream).1 = line ∧ splitLines (takeLine n stream).2 = lines := by
  induction stream generalizing n line with
  | nil => cases h
  | cons b stream ih =>
      by_cases hb : b = newline
      · rw [splitLines, if_pos hb, List.cons.injEq] at h
        obtain ⟨rfl, rfl⟩ := h
        cases n with
        | zero => cases hn
        | succ n =>
            rw [takeLine, if_pos hb]
            exact ⟨rfl, rfl⟩
      · cases hsplit : splitLines stream with
        | nil =>
            obtain rfl := splitLines_eq_nil.mp hsplit
            rw [splitLines, if_neg hb, hsplit, List.cons.injEq] at h
            obtain ⟨rfl, rfl⟩ := h
            cases n with
            | zero => cases hn
            | succ n =>
                rw [takeLine, if_neg hb]
                cases n <;> exact ⟨rfl, rfl⟩
        | cons line' lines' =>
            rw [splitLines_cons_of_ne hb hsplit, List.cons.injEq] at h
            obtain ⟨rfl, rfl⟩ := h
            cases n with
            | zero => cases hn
            | succ n =>
                obtain ⟨hline, hrest⟩ := ih hsplit (Nat.le_of_succ_le_succ hn)
                rw [takeLine, if_neg hb, hline]
                exact ⟨rfl, hrest⟩

/-- A line that there is no room for is taken in part. -/
theorem takeLine_of_long (h : splitLines stream = line :: lines) (hn : n < line.length) :
    splitLines (takeLine n stream).2 = line.drop n :: lines := by
  induction stream generalizing n line with
  | nil => cases h
  | cons b stream ih =>
      cases n with
      | zero => rw [takeLine, List.drop_zero, h]
      | succ n =>
          by_cases hb : b = newline
          · rw [splitLines, if_pos hb, List.cons.injEq] at h
            rw [← h.1, List.length_singleton] at hn
            omega
          · cases hsplit : splitLines stream with
            | nil =>
                rw [splitLines, if_neg hb, hsplit, List.cons.injEq] at h
                rw [← h.1, List.length_singleton] at hn
                omega
            | cons line' lines' =>
                rw [splitLines_cons_of_ne hb hsplit, List.cons.injEq] at h
                obtain ⟨rfl, rfl⟩ := h
                rw [takeLine, if_neg hb]
                exact ih hsplit (Nat.lt_of_succ_lt_succ hn)

theorem length_takeLine_snd_lt (hstream : stream ≠ []) :
    (takeLine (n + 1) stream).2.length < stream.length := by
  cases stream with
  | nil => exact absurd rfl hstream
  | cons b stream =>
      rw [takeLine]
      split
      · exact Nat.lt_succ_self _
      · have hlen := congrArg List.length (takeLine_append n stream)
        rw [List.length_append] at hlen
        rw [List.length_cons]
        dsimp only
        omega

theorem fgetsLoop_succ {fuel : Nat} (hstream : stream ≠ []) :
    fgetsLoop (n + 2) (fuel + 1) stream =
      (takeLine (n + 1) stream).1 :: fgetsLoop (n + 2) fuel (takeLine (n + 1) stream).2 := by
  rw [fgetsLoop, fgets, if_neg hstream]
  rfl

theorem fgetsLoop_nil (fuel : Nat) : fgetsLoop size fuel [] = [] := by
  cases fuel <;> rfl

/-- There are at least as many calls as lines, and more if a line does not fit. -/
theorem fgetsLoop_lines {fuel : Nat} (hfuel : stream.length ≤ fuel) :
    (splitLines stream).length ≤ (fgetsLoop (n + 2) fuel stream).length ∧
      ((fgetsLoop (n + 2) fuel stream).length ≤ (splitLines stream).length →
        ∀ line ∈ splitLines stream, line.length < n + 2) ∧
      ((∀ line ∈ splitLines stream, line.length < n + 2) →
        fgetsLoop (n + 2) fuel stream = splitLines stream) := by
  induction fuel generalizing stream with
  | zero =>
      obtain rfl := List.length_eq_zero_iff.mp (Nat.le_zero.mp hfuel)
      exact ⟨Nat.le_refl 0, fun _ _ h => absurd h List.not_mem_nil, fun _ => rfl⟩
  | succ fuel ih =>
      by_cases hstream : stream = []
      · rw [hstream, fgetsLoop_nil]
        exact ⟨Nat.le_refl 0, fun _ _ h => absurd h List.not_mem_nil, fun _ => rfl⟩
      · obtain ⟨line, lines, hsplit⟩ :=
          List.exists_cons_of_ne_nil (fun h => hstream (splitLines_eq_nil.mp h))
        have hshorter := length_takeLine_snd_lt (n := n) hstream
        have hfuel' : (takeLine (n + 1) stream).2.length ≤ fuel := by omega
        obtain ⟨hle, hfits, heq⟩ := ih hfuel'
        rw [fgetsLoop_succ hstream, hsplit]
        simp only [List.length_cons, List.forall_mem_cons]
        by_cases hline : line.length ≤ n + 1
        · obtain ⟨htake, hrest⟩ := takeLine_of_fits hsplit hline
          rw [hrest] at hle hfits heq
          refine ⟨by omega, fun h => ⟨by omega, hfits (by omega)⟩, fun h => ?_⟩
          rw [htake, heq h.2]
        · have hrest := takeLine_of_long hsplit (Nat.lt_of_not_le hline)
          rw [hrest, List.length_cons] at hle
          exact ⟨by omega, fun h => absurd h (by omega), fun h => absurd h.1 (by omega)⟩

/-- Every byte of the stream is read once. -/
theorem flatten_fgetsLoop {fuel : Nat} (hfuel : stream.length ≤ fuel) :
    (fgetsLoop (n + 2) fuel stream).flatten = stream := by
  induction fuel generalizing stream with
  | zero => exact (List.length_eq_zero_iff.mp (Nat.le_zero.mp hfuel)).symm
  | succ fuel ih =>
      by_cases hstream : stream = []
      · rw [hstream, fgetsLoop_nil, List.flatten_nil]
      · have hshorter := length_takeLine_snd_lt (n := n) hstream
        rw [fgetsLoop_succ hstream, List.flatten_cons, ih (by omega), takeLine_append]

theorem fgetsAll_lines (hsize : 2 ≤ size) (stream : List Byte) :
    (splitLines stream).length ≤ (fgetsAll size stream).length ∧
      ((fgetsAll size stream).length ≤ (splitLines stream).length →
        ∀ line ∈ splitLines stream, line.length < size) ∧
      ((∀ line ∈ splitLines stream, line.length < size) →
        fgetsAll size stream = splitLines stream) := by
  obtain ⟨n, rfl⟩ := Nat.exists_eq_add_of_le' hsize
  exact fgetsLoop_lines (Nat.le_refl _)

theorem flatten_fgetsAll (hsize : 2 ≤ size) (stream : List Byte) :
    (fgetsAll size stream).flatten = stream := by
  obtain ⟨n, rfl⟩ := Nat.exists_eq_add_of_le' hsize
  exact flatten_fgetsLoop (Nat.le_refl _)

end NetworkStack.Lines
