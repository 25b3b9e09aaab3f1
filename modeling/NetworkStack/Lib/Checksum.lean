import Mathlib.Algebra.Group.Nat.Even
import NetworkStack.Lib.Bytes

/-!
# Sums in one's complement

The checksum of the Internet protocols adds the 16-bit words of some data and brings the
carries back in at the low end. Data whose checksum is in it add up to a multiple of `0xffff`
that is not zero.
-/

namespace NetworkStack.Checksum

variable {a b : List Byte}

/-- The sum of the 16-bit words in network order; an odd byte at the end is the upper half of
a word. -/
def wordSum : List Byte → Nat
  | b₀ :: b₁ :: rest => 256 * b₀.toNat + b₁.toNat + wordSum rest
  | [b₀] => 256 * b₀.toNat
  | [] => 0

/-- The sum of what stands for each pair of bytes; an odd byte at the end is paired with zero. -/
def pairSum (word : Byte → Byte → Nat) : List Byte → Nat
  | b₀ :: b₁ :: rest => word b₀ b₁ + pairSum word rest
  | [b₀] => word b₀ 0
  | [] => 0

section pairSum

variable {word : Byte → Byte → Nat}

theorem pairSum_append (h : Even a.length) :
    pairSum word (a ++ b) = pairSum word a + pairSum word b := by
  fun_induction pairSum word a with
  | case1 b₀ b₁ rest ih =>
      have heven : Even rest.length := by
        simpa [Nat.even_add_one] using h
      simp only [List.cons_append, pairSum, ih heven]
      omega
  | case2 b₀ => simp at h
  | case3 => simp

theorem pairSum_le (hword : ∀ b₀ b₁, word b₀ b₁ ≤ 65535) (l : List Byte) :
    pairSum word l ≤ 65535 * ((l.length + 1) / 2) := by
  fun_induction pairSum word l with
  | case1 b₀ b₁ rest ih =>
      have hle := hword b₀ b₁
      simp only [List.length_cons]
      omega
  | case2 b₀ =>
      have hle := hword b₀ 0
      simp only [List.length_singleton]
      omega
  | case3 => simp

end pairSum

theorem wordSum_eq_pairSum (l : List Byte) :
    wordSum l = pairSum (fun b₀ b₁ => 256 * b₀.toNat + b₁.toNat) l := by
  fun_induction wordSum l with
  | case1 b₀ b₁ rest ih => rw [pairSum, ih]
  | case2 b₀ => rfl
  | case3 => rfl

theorem wordSum_append (h : Even a.length) : wordSum (a ++ b) = wordSum a + wordSum b := by
  simp only [wordSum_eq_pairSum, pairSum_append h]

theorem wordSum_le (l : List Byte) : wordSum l ≤ 65535 * ((l.length + 1) / 2) := by
  rw [wordSum_eq_pairSum]
  apply pairSum_le
  intro b₀ b₁
  have h₀ := b₀.isLt
  have h₁ := b₁.isLt
  omega

/-- The sum of the 16-bit words as a little-endian host reads them. -/
def hostSum (l : List Byte) : Nat := pairSum (fun b₀ b₁ => b₀.toNat + 256 * b₁.toNat) l

theorem hostSum_append (h : Even a.length) : hostSum (a ++ b) = hostSum a + hostSum b :=
  pairSum_append h

theorem hostSum_le (l : List Byte) : hostSum l ≤ 65535 * ((l.length + 1) / 2) := by
  apply pairSum_le
  intro b₀ b₁
  have h₀ := b₀.isLt
  have h₁ := b₁.isLt
  omega

theorem hostSum_le16 (x : BitVec 16) : hostSum (Bytes.le16 x) = x.toNat := by
  have hx := x.isLt
  simp only [Bytes.le16, hostSum, pairSum, BitVec.extractLsb'_toNat, Nat.shiftRight_eq_div_pow]
  omega

/-- The word of two bytes in network order. -/
theorem wordSum_be16 (x : BitVec 16) : wordSum (Bytes.be16 x) = x.toNat := by
  have hx := x.isLt
  simp only [Bytes.be16, wordSum, BitVec.extractLsb'_toNat, Nat.shiftRight_eq_div_pow]
  omega

/-- The carries of a sum are added to it until it fits in 16 bits. -/
def fold : Nat → Nat → Nat
  | 0, n => n
  | rounds + 1, n => if n > 65535 then fold rounds (n / 65536 + n % 65536) else n

theorem fold_mod (rounds n : Nat) : fold rounds n % 65535 = n % 65535 := by
  induction rounds generalizing n with
  | zero => rfl
  | succ rounds ih =>
      rw [fold]
      split
      · rw [ih]
        omega
      · rfl

theorem fold_eq_zero {rounds n : Nat} : fold rounds n = 0 ↔ n = 0 := by
  induction rounds generalizing n with
  | zero => rfl
  | succ rounds ih =>
      rw [fold]
      split
      · rw [ih]
        omega
      · rfl

/-- Each round makes the sum smaller. -/
theorem fold_le {rounds n : Nat} (h : n ≤ rounds) : fold rounds n ≤ 65535 := by
  induction rounds generalizing n with
  | zero =>
      rw [fold]
      omega
  | succ rounds ih =>
      rw [fold]
      split
      · apply ih
        omega
      · omega

/-- A sum that has lost its carries stays as it is. -/
theorem fold_eq_self {rounds n : Nat} (h : n ≤ 65535) : fold rounds n = n := by
  cases rounds with
  | zero => rfl
  | succ rounds => rw [fold, if_neg (Nat.not_lt.mpr h)]

/-- Once there are enough rounds, more of them change nothing. -/
theorem fold_of_le {rounds more n : Nat} (h : n ≤ rounds) (hmore : rounds ≤ more) :
    fold more n = fold rounds n := by
  induction rounds generalizing more n with
  | zero =>
      apply fold_eq_self
      omega
  | succ rounds ih =>
      cases more with
      | zero => omega
      | succ more =>
          rw [fold, fold]
          split
          · apply ih
            · omega
            · omega
          · rfl

/-- The words of the data add up to nothing, as a sum in one's complement does. -/
def Verifies (l : List Byte) : Prop := 0 < wordSum l ∧ wordSum l % 65535 = 0

instance (l : List Byte) : Decidable (Verifies l) := inferInstanceAs (Decidable (_ ∧ _))

theorem fold_eq_max_iff {rounds n : Nat} (h : n ≤ rounds) :
    fold rounds n = 65535 ↔ 0 < n ∧ n % 65535 = 0 := by
  have hmod := fold_mod rounds n
  have hle := fold_le h
  have hzero : fold rounds n = 0 ↔ n = 0 := fold_eq_zero
  omega

/-- The complement of a sum makes it verify. -/
theorem add_complement {rounds n : Nat} (h : n ≤ rounds) :
    0 < n + (65535 - fold rounds n) ∧ (n + (65535 - fold rounds n)) % 65535 = 0 := by
  have hmod := fold_mod rounds n
  have hle := fold_le h
  have hzero : fold rounds n = 0 ↔ n = 0 := fold_eq_zero
  omega

/-- Two sums that are not zero have the same carries brought back in exactly if they differ by
nothing in one's complement. -/
theorem fold_eq_iff {n m : Nat} (hn : 0 < n) (hm : 0 < m) :
    fold n n = fold m m ↔ n % 65535 = m % 65535 := by
  have hmodn := fold_mod n n
  have hmodm := fold_mod m m
  have hlen := fold_le (Nat.le_refl n)
  have hlem := fold_le (Nat.le_refl m)
  have hzeron : fold n n = 0 ↔ n = 0 := fold_eq_zero
  have hzerom : fold m m = 0 ↔ m = 0 := fold_eq_zero
  omega

/-- Exchanging one word for another changes nothing in one's complement only if they are equal or
the two zeros. -/
theorem mod_eq_iff_of_exchange {n m x y : Nat} (h : n + y = m + x) (hx : x ≤ 65535)
    (hy : y ≤ 65535) :
    n % 65535 = m % 65535 ↔ x = y ∨ (x = 0 ∧ y = 65535) ∨ (x = 65535 ∧ y = 0) := by
  omega

/-- For a sum of fewer than `0x10000` words, two rounds are enough, the second of which may leave
a carry that is cut off. -/
theorem fold_eq_two_rounds {n : Nat} (h : n / 65536 < 65535) :
    fold n n = (n / 65536 + n % 65536 + (n / 65536 + n % 65536) / 65536) % 65536 := by
  have hmod := fold_mod n n
  have hle := fold_le (Nat.le_refl n)
  have hzero : fold n n = 0 ↔ n = 0 := fold_eq_zero
  have hsum : (n / 65536 + n % 65536) % 65535 = n % 65535 := by omega
  have hpos : n / 65536 + n % 65536 = 0 ↔ n = 0 := by omega
  have hbound : n / 65536 + n % 65536 < 131070 := by omega
  generalize n / 65536 + n % 65536 = sum at hsum hpos hbound ⊢
  rcases Nat.lt_or_ge sum 65536 with hsmall | hbig
  · have hquot : sum / 65536 = 0 := Nat.div_eq_of_lt hsmall
    omega
  · have hquot : sum / 65536 = 1 := by omega
    omega

/-- Data that verify still do with more behind them exactly if what is added adds up to
nothing. -/
theorem verifies_append (h : Verifies a) (heven : Even a.length) :
    Verifies (a ++ b) ↔ wordSum b % 65535 = 0 := by
  obtain ⟨hpos, hmod⟩ := h
  unfold Verifies
  rw [wordSum_append heven]
  omega

end NetworkStack.Checksum
