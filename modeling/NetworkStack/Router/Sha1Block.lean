import NetworkStack.Lib.Computation
import NetworkStack.Lib.SecureHash
import NetworkStack.Router.Sha1

/-!
# One block of the SHA-1 code

The two loops that fill `W` compute the message schedule, and the four loops over it are the
rounds of the standard, so that processing a block compresses it.
-/

namespace NetworkStack.Router

open Bytes NetworkStack.Computation SecureHash

/-- The mask of the code for wider machines keeps the whole word. -/
theorem and_mask (x : Word) : x &&& 0xFFFFFFFF#32 = x := BitVec.and_allOnes

@[simp] theorem sha1CircularShift_eq (bits : Nat) (h : bits < 32) (word : Word) :
    sha1CircularShift bits word = word.rotateLeft bits := by
  rw [sha1CircularShift, and_mask, BitVec.rotateLeft_def, Nat.mod_eq_of_lt h]

/-- Four bytes that are shifted into their places. -/
theorem shiftedBytes (b₀ b₁ b₂ b₃ : Byte) :
    (b₀.setWidth 32 <<< 24 ||| b₁.setWidth 32 <<< 16 ||| b₂.setWidth 32 <<< 8 |||
      b₃.setWidth 32 : Word) = b₀ ++ b₁ ++ b₂ ++ b₃ := by
  ext i hi
  simp only [BitVec.getElem_or, BitVec.getElem_shiftLeft]
  grind

theorem blockWord_eq (block : Vector Byte 64) {t : Nat} (h : t < 16) :
    blockWord block t = some (word block.toList t) := by
  have hget (i : Nat) (hi : i < 64) : block[i]? = some (block.toList.getD i 0) := by
    rw [Vector.getElem?_eq_getElem hi]
    simp [List.getD, hi]
  simp only [blockWord, Nat.mul_comm t 4, hget (4 * t) (by omega), hget (4 * t + 1) (by omega),
    hget (4 * t + 2) (by omega), hget (4 * t + 3) (by omega), Option.bind_eq_bind,
    Option.bind_some, Option.pure_def, shiftedBytes]
  rfl

/-- A loop that stores the words of a sequence, each from the ones before it. -/
theorem fillW_eq {next : List Word → Nat → Option Word} {W : Nat → Word} {count t : Nat}
    (h : ∀ i, t ≤ i → i < t + count → next ((List.range i).map W) i = some (W i)) :
    fillW next count t ((List.range t).map W) = some ((List.range (t + count)).map W) := by
  induction count generalizing t with
  | zero => rfl
  | succ count ih =>
      have hword := h t (Nat.le_refl t) (by omega)
      have hrest := ih (t := t + 1) fun i hi hlt => h i (by omega) (by omega)
      rw [List.range_succ, List.map_append] at hrest
      simp only [fillW, hword, Option.bind_eq_bind, Option.bind_some]
      rw [show t + (count + 1) = t + 1 + count by omega]
      exact hrest

theorem expandedWord_eq {block : List Byte} {t : Nat} (h : 16 ≤ t) :
    expandedWord ((List.range t).map (schedule block)) t = some (schedule block t) := by
  have hget (d : Nat) (hd : 0 < d) :
      ((List.range t).map (schedule block))[t - d]? = some (schedule block (t - d)) := by
    have hlt : t - d < t := by omega
    simp [hlt]
  rw [schedule, if_neg (Nat.not_lt.mpr h)]
  simp [expandedWord, hget]

theorem wordSequence_eq (block : Vector Byte 64) :
    wordSequence block = some ((List.range 80).map (schedule block.toList)) := by
  have hfirst : fillW (fun _ t => blockWord block t) 16 0
      ((List.range 0).map (schedule block.toList)) =
      some ((List.range (0 + 16)).map (schedule block.toList)) := by
    refine fillW_eq fun i _ hi => ?_
    rw [blockWord_eq block (by omega), schedule, if_pos (by omega)]
  have hsecond : fillW expandedWord 64 16 ((List.range 16).map (schedule block.toList)) =
      some ((List.range (16 + 64)).map (schedule block.toList)) :=
    fillW_eq fun _ hi _ => expandedWord_eq hi
  rw [List.range_zero, List.map_nil, Nat.zero_add] at hfirst
  rw [wordSequence, hfirst, Option.bind_eq_bind, Option.bind_some, hsecond]

/-! ## The rounds -/

/-- The word buffers as a digest. -/
def WordBuffers.digest (s : WordBuffers) : Digest where
  a := s.A
  b := s.B
  c := s.C
  d := s.D
  e := s.E

/-- A loop of rounds whose `f` and `k` are those of the standard there. -/
theorem rounds_eq {g : Word → Word → Word → Word} {c : Word} (block : List Byte) (count t : Nat)
    (hle : t + count ≤ 80) (hf : ∀ i, t ≤ i → i < t + count → f i = g)
    (hk : ∀ i, t ≤ i → i < t + count → k i = c) (s : WordBuffers) :
    ∃ s', rounds g c ((List.range 80).map (schedule block)) count t s = some s' ∧
      s'.digest = (List.range' t count).foldl (SecureHash.round block) s.digest := by
  induction count generalizing t s with
  | zero => exact ⟨s, rfl, rfl⟩
  | succ count ih =>
      have hword : ((List.range 80).map (schedule block))[t]? = some (schedule block t) := by
        have hlt : t < 80 := by omega
        simp [hlt]
      obtain ⟨s', hrest, hdigest⟩ := ih (t + 1) (by omega)
        (fun i hi hlt => hf i (by omega) (by omega)) (fun i hi hlt => hk i (by omega) (by omega))
        { A := s.A.rotateLeft 5 + g s.B s.C s.D + s.E + schedule block t + c
          B := s.A
          C := s.B.rotateLeft 30
          D := s.C
          E := s.D }
      refine ⟨s', ?_, ?_⟩
      · simp only [rounds, hword, and_mask, Option.bind_eq_bind, Option.bind_some,
          sha1CircularShift_eq 5 (by omega), sha1CircularShift_eq 30 (by omega)]
        exact hrest
      · rw [List.range'_succ, List.foldl_cons, hdigest, SecureHash.round,
          hf t (by omega) (by omega), hk t (by omega) (by omega)]
        rfl

/-- The four loops are the eighty rounds of the standard. -/
theorem fourLoops_eq (block : List Byte) (s : WordBuffers) :
    ∃ s', fourLoops ((List.range 80).map (schedule block)) s = some s' ∧
      s'.digest = (List.range 80).foldl (SecureHash.round block) s.digest := by
  obtain ⟨s₁, h₁, hd₁⟩ := rounds_eq block 20 0 (by omega)
    (fun i _ hi => f_choose (by omega)) (fun i _ hi => k_first (by omega)) s
  obtain ⟨s₂, h₂, hd₂⟩ := rounds_eq block 20 20 (by omega)
    (fun i hge hi => f_parity (by omega)) (fun i hge hi => k_second hge (by omega)) s₁
  obtain ⟨s₃, h₃, hd₃⟩ := rounds_eq block 20 40 (by omega)
    (fun i hge hi => f_majority hge (by omega)) (fun i hge hi => k_third hge (by omega)) s₂
  obtain ⟨s₄, h₄, hd₄⟩ := rounds_eq block 20 60 (by omega)
    (fun i hge hi => f_parity (by omega)) (fun i hge hi => k_fourth hge) s₃
  refine ⟨s₄, ?_, ?_⟩
  · rw [fourLoops]
    exact (bind_of_some h₁).trans ((bind_of_some h₂).trans ((bind_of_some h₃).trans h₄))
  · have hcut : List.range 80 = List.range' 0 20 ++ List.range' 20 20 ++ List.range' 40 20 ++
        List.range' 60 20 := rfl
    rw [hcut, List.foldl_append, List.foldl_append, List.foldl_append, ← hd₁, ← hd₂, ← hd₃,
      ← hd₄]

/-- The digest of a context. -/
def SHA1Context.digest (context : SHA1Context) : Digest := context.buffers.digest

/-- The last additions of a block. -/
theorem digest_addBuffers (context : SHA1Context) (s : WordBuffers) :
    (context.addBuffers s).digest = context.digest.add s.digest := by
  rw [SHA1Context.addBuffers]
  simp only [and_mask]
  rfl

/-- Processing a block compresses it, and changes nothing but the digest and the index. -/
theorem sha1ProcessMessageBlock_spec (context : SHA1Context) :
    ∃ s, sha1ProcessMessageBlock context = some (context.addBuffers s) ∧
      (context.addBuffers s).digest = compress context.digest context.messageBlock.toList := by
  obtain ⟨s, hloops, hdigest⟩ := fourLoops_eq context.messageBlock.toList context.buffers
  refine ⟨s, ?_, ?_⟩
  · rw [sha1ProcessMessageBlock]
    exact (bind_of_some (wordSequence_eq _)).trans (bind_of_some hloops)
  · rw [digest_addBuffers, hdigest, compress]
    rfl

end NetworkStack.Router
