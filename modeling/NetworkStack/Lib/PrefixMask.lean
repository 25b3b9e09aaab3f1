import Mathlib.Data.BitVec

/-!
# Masks of prefixes

A mask that selects a prefix has its ones in front. Such masks are ordered as numbers just
as their prefixes are by length.
-/

namespace NetworkStack.PrefixMask

variable {w : Nat}

/-- The mask of the first `n` bits. -/
def prefixMask (w n : Nat) : BitVec w := BitVec.allOnes w <<< (w - n)

/-- The ones of the mask are in front. -/
def Contiguous (m : BitVec w) : Prop := ∃ n ≤ w, m = prefixMask w n

/-- The number of ones. -/
def prefixLength (m : BitVec w) : Nat := m.cpop.toNat

theorem prefixMask_add (n k : Nat) : prefixMask (n + k) n = BitVec.allOnes n ++ 0#k := by
  unfold prefixMask
  rw [Nat.add_sub_cancel_left]
  ext i hi
  simp only [BitVec.getElem_shiftLeft, BitVec.getElem_append]
  grind

theorem prefixLength_prefixMask {n : Nat} (h : n ≤ w) : prefixLength (prefixMask w n) = n := by
  obtain ⟨k, rfl⟩ := Nat.exists_eq_add_of_le h
  unfold prefixLength
  rw [prefixMask_add, BitVec.toNat_cpop_append, BitVec.cpop_allOnes, BitVec.cpop_zero,
    BitVec.toNat_ofNat, BitVec.toNat_ofNat, Nat.zero_mod, Nat.add_zero,
    Nat.mod_eq_of_lt Nat.lt_two_pow_self]

theorem prefixMask_toNat {n : Nat} (h : n ≤ w) :
    (prefixMask w n).toNat = 2 ^ w - 2 ^ (w - n) := by
  obtain ⟨k, rfl⟩ := Nat.exists_eq_add_of_le h
  rw [prefixMask_add, BitVec.toNat_append, BitVec.toNat_allOnes, BitVec.toNat_ofNat, Nat.zero_mod,
    Nat.or_zero, Nat.shiftLeft_eq, Nat.sub_mul, Nat.one_mul, ← Nat.pow_add, Nat.add_sub_cancel_left]

theorem prefixMask_le {m n : Nat} (hm : m ≤ w) (hn : n ≤ w) :
    prefixMask w m ≤ prefixMask w n ↔ m ≤ n := by
  have hle : 2 ^ (w - n) ≤ 2 ^ w := Nat.pow_le_pow_right (by decide) (Nat.sub_le w n)
  rw [BitVec.le_def, prefixMask_toNat hm, prefixMask_toNat hn, Nat.sub_le_sub_iff_left hle,
    Nat.pow_le_pow_iff_right (by decide)]
  omega

/-- The longer prefix has the greater mask. -/
theorem le_iff_prefixLength_le {m₁ m₂ : BitVec w} (h₁ : Contiguous m₁) (h₂ : Contiguous m₂) :
    m₁ ≤ m₂ ↔ prefixLength m₁ ≤ prefixLength m₂ := by
  obtain ⟨n₁, hn₁, rfl⟩ := h₁
  obtain ⟨n₂, hn₂, rfl⟩ := h₂
  rw [prefixMask_le hn₁ hn₂, prefixLength_prefixMask hn₁, prefixLength_prefixMask hn₂]

end NetworkStack.PrefixMask
