import Mathlib.Data.BitVec

/-!
# Bytes and the memory of a little-endian host

A multi-byte field is loaded from memory lowest byte first. The conversions
between host and network order reverse the bytes, so each is its own inverse.
-/

namespace NetworkStack

abbrev Byte := BitVec 8

-- found at once where the membership of a byte is decided
instance : LawfulBEq Byte := instLawfulBEq

namespace Bytes

/-- The two bytes of a 16-bit value, in memory order. -/
def le16 (x : BitVec 16) : List Byte :=
  [x.extractLsb' 0 8, x.extractLsb' 8 8]

/-- The four bytes of a 32-bit value, in memory order. -/
def le32 (x : BitVec 32) : List Byte :=
  [x.extractLsb' 0 8, x.extractLsb' 8 8, x.extractLsb' 16 8, x.extractLsb' 24 8]

/-- The six bytes of a 48-bit value, in memory order. -/
def le48 (x : BitVec 48) : List Byte :=
  [x.extractLsb' 0 8, x.extractLsb' 8 8, x.extractLsb' 16 8, x.extractLsb' 24 8,
    x.extractLsb' 32 8, x.extractLsb' 40 8]

/-- The two bytes of a 16-bit value, in network order. -/
def be16 (x : BitVec 16) : List Byte :=
  [x.extractLsb' 8 8, x.extractLsb' 0 8]

/-- The four bytes of a 32-bit value, in network order. -/
def be32 (x : BitVec 32) : List Byte :=
  [x.extractLsb' 24 8, x.extractLsb' 16 8, x.extractLsb' 8 8, x.extractLsb' 0 8]

def ofLe16 (b₀ b₁ : Byte) : BitVec 16 := b₁ ++ b₀

def ofLe32 (b₀ b₁ b₂ b₃ : Byte) : BitVec 32 := b₃ ++ b₂ ++ b₁ ++ b₀

def ofLe48 (b₀ b₁ b₂ b₃ b₄ b₅ : Byte) : BitVec 48 := b₅ ++ b₄ ++ b₃ ++ b₂ ++ b₁ ++ b₀

theorem ofLe16_extract (x : BitVec 16) :
    ofLe16 (x.extractLsb' 0 8) (x.extractLsb' 8 8) = x := by
  unfold ofLe16
  rw [BitVec.extractLsb'_append_extractLsb'_eq_extractLsb' (by rfl)]
  exact BitVec.extractLsb'_eq_self

theorem ofLe32_extract (x : BitVec 32) :
    ofLe32 (x.extractLsb' 0 8) (x.extractLsb' 8 8)
      (x.extractLsb' 16 8) (x.extractLsb' 24 8) = x := by
  unfold ofLe32
  rw [BitVec.extractLsb'_append_extractLsb'_eq_extractLsb' (by rfl),
    BitVec.extractLsb'_append_extractLsb'_eq_extractLsb' (by rfl),
    BitVec.extractLsb'_append_extractLsb'_eq_extractLsb' (by rfl)]
  exact BitVec.extractLsb'_eq_self

theorem ofLe48_extract (x : BitVec 48) :
    ofLe48 (x.extractLsb' 0 8) (x.extractLsb' 8 8) (x.extractLsb' 16 8) (x.extractLsb' 24 8)
      (x.extractLsb' 32 8) (x.extractLsb' 40 8) = x := by
  unfold ofLe48
  rw [BitVec.extractLsb'_append_extractLsb'_eq_extractLsb' (by rfl),
    BitVec.extractLsb'_append_extractLsb'_eq_extractLsb' (by rfl),
    BitVec.extractLsb'_append_extractLsb'_eq_extractLsb' (by rfl),
    BitVec.extractLsb'_append_extractLsb'_eq_extractLsb' (by rfl),
    BitVec.extractLsb'_append_extractLsb'_eq_extractLsb' (by rfl)]
  exact BitVec.extractLsb'_eq_self

/-- `htonl` and `ntohl`: the four bytes in the opposite order. -/
def swap32 (x : BitVec 32) : BitVec 32 :=
  ofLe32 (x.extractLsb' 24 8) (x.extractLsb' 16 8)
    (x.extractLsb' 8 8) (x.extractLsb' 0 8)

/-- `htons` and `ntohs`: the two bytes in the opposite order. -/
def swap16 (x : BitVec 16) : BitVec 16 :=
  ofLe16 (x.extractLsb' 8 8) (x.extractLsb' 0 8)

@[simp] theorem swap16_swap16 (x : BitVec 16) : swap16 (swap16 x) = x := by
  unfold swap16 ofLe16
  ext i hi
  simp only [BitVec.getElem_append, BitVec.getElem_extractLsb', BitVec.getLsbD_append,
    BitVec.getLsbD_extractLsb']
  grind

@[simp] theorem swap32_swap32 (x : BitVec 32) : swap32 (swap32 x) = x := by
  unfold swap32 ofLe32
  ext i hi
  simp only [BitVec.getElem_append, BitVec.getElem_extractLsb', BitVec.getLsbD_append,
    BitVec.getLsbD_extractLsb']
  grind

theorem le16_ofLe16 (b₀ b₁ : Byte) : le16 (ofLe16 b₀ b₁) = [b₀, b₁] := by
  simp only [le16, ofLe16, List.cons.injEq, and_true]
  refine ⟨?_, ?_⟩
  all_goals
    ext i hi
    simp only [BitVec.getElem_extractLsb', BitVec.getLsbD_append]
    grind

theorem le32_ofLe32 (b₀ b₁ b₂ b₃ : Byte) : le32 (ofLe32 b₀ b₁ b₂ b₃) = [b₀, b₁, b₂, b₃] := by
  simp only [le32, ofLe32, List.cons.injEq, and_true]
  refine ⟨?_, ?_, ?_, ?_⟩
  all_goals
    ext i hi
    simp only [BitVec.getElem_extractLsb', BitVec.getLsbD_append]
    grind

theorem le48_ofLe48 (b₀ b₁ b₂ b₃ b₄ b₅ : Byte) :
    le48 (ofLe48 b₀ b₁ b₂ b₃ b₄ b₅) = [b₀, b₁, b₂, b₃, b₄, b₅] := by
  simp only [le48, ofLe48, List.cons.injEq, and_true]
  refine ⟨?_, ?_, ?_, ?_, ?_, ?_⟩
  all_goals
    ext i hi
    simp only [BitVec.getElem_extractLsb', BitVec.getLsbD_append]
    grind

theorem le32_inj {x y : BitVec 32} : le32 x = le32 y ↔ x = y := by
  constructor
  · intro h
    simp only [le32, List.cons.injEq, and_true] at h
    obtain ⟨h₀, h₁, h₂, h₃⟩ := h
    rw [← ofLe32_extract x, ← ofLe32_extract y, h₀, h₁, h₂, h₃]
  · rintro rfl
    rfl

/-- Two bytes are the memory of some value. -/
theorem exists_le16 {l : List Byte} (h : l.length = 2) : ∃ x, l = le16 x := by
  match l, h with
  | [a, b], _ => exact ⟨_, (le16_ofLe16 a b).symm⟩

/-- Four bytes are the memory of some value. -/
theorem exists_le32 {l : List Byte} (h : l.length = 4) : ∃ x, l = le32 x := by
  match l, h with
  | [a, b, c, d], _ => exact ⟨_, (le32_ofLe32 a b c d).symm⟩

/-- Six bytes are the memory of some value. -/
theorem exists_le48 {l : List Byte} (h : l.length = 6) : ∃ x, l = le48 x := by
  match l, h with
  | [a, b, c, d, e, f], _ => exact ⟨_, (le48_ofLe48 a b c d e f).symm⟩

/-- A converted value is in memory in network order. -/
theorem le16_swap16 (x : BitVec 16) : le16 (swap16 x) = be16 x :=
  le16_ofLe16 _ _

theorem le32_swap32 (x : BitVec 32) : le32 (swap32 x) = be32 x :=
  le32_ofLe32 _ _ _ _

end Bytes

end NetworkStack
