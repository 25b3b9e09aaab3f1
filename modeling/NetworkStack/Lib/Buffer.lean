import Mathlib.Data.List.Basic
import NetworkStack.Lib.Bytes

/-!
# Fields of a buffer

A read or a write that leaves the buffer is undefined, and `none` here. Fields are
loaded and stored as a little-endian host does it.
-/

namespace NetworkStack.Buffer

open Bytes

/-- `memcpy` out of a buffer. -/
def load {α : Type*} (buf : List α) (i n : Nat) : Option (List α) :=
  if i + n ≤ buf.length then some ((buf.drop i).take n) else none

/-- `memcpy` into a buffer. -/
def store {α : Type*} (buf : List α) (i : Nat) (bytes : List α) : Option (List α) :=
  if i + bytes.length ≤ buf.length then
    some (buf.take i ++ bytes ++ buf.drop (i + bytes.length))
  else none

def load8 (buf : List Byte) (i : Nat) : Option Byte := buf[i]?

def load16 (buf : List Byte) (i : Nat) : Option (BitVec 16) := do
  return ofLe16 (← buf[i]?) (← buf[i + 1]?)

def load32 (buf : List Byte) (i : Nat) : Option (BitVec 32) := do
  return ofLe32 (← buf[i]?) (← buf[i + 1]?) (← buf[i + 2]?) (← buf[i + 3]?)

def load48 (buf : List Byte) (i : Nat) : Option (BitVec 48) := do
  return ofLe48 (← buf[i]?) (← buf[i + 1]?) (← buf[i + 2]?) (← buf[i + 3]?) (← buf[i + 4]?)
    (← buf[i + 5]?)

def store8 (buf : List Byte) (i : Nat) (x : Byte) : Option (List Byte) := store buf i [x]

def store16 (buf : List Byte) (i : Nat) (x : BitVec 16) : Option (List Byte) := store buf i (le16 x)

def store32 (buf : List Byte) (i : Nat) (x : BitVec 32) : Option (List Byte) := store buf i (le32 x)

def store48 (buf : List Byte) (i : Nat) (x : BitVec 48) : Option (List Byte) := store buf i (le48 x)

/-- Writing over a part of the buffer. -/
theorem store_append {α : Type*} (pre : List α) {old new post : List α} {i : Nat} (hi : pre.length = i)
    (h : old.length = new.length) :
    store (pre ++ old ++ post) i new = some (pre ++ new ++ post) := by
  subst hi
  have htake : (pre ++ old ++ post).take pre.length = pre := by
    rw [List.append_assoc, List.take_left']
    rfl
  have hdrop : (pre ++ old ++ post).drop (pre.length + new.length) = post := by
    rw [← h, ← List.length_append, List.drop_left']
    rfl
  unfold store
  rw [if_pos (by simp [h]), htake, hdrop]

theorem getElem?_add {α : Type*} (pre : List α) {post : List α} {i : Nat} (hi : pre.length = i)
    (j : Nat) : (pre ++ post)[i + j]? = post[j]? := by
  subst hi
  rw [List.getElem?_append_right (by omega), Nat.add_sub_cancel_left]

/-! A field is read where it was put. -/

theorem load16_le16 (pre : List Byte) {post : List Byte} {i : Nat} (x : BitVec 16) (hi : pre.length = i) :
    load16 (pre ++ (le16 x ++ post)) i = some x := by
  have hzero : (pre ++ (le16 x ++ post))[i]? = (le16 x ++ post)[0]? := getElem?_add pre hi 0
  simp only [load16, hzero, getElem?_add pre hi]
  exact congrArg some (ofLe16_extract x)

theorem load32_le32 (pre : List Byte) {post : List Byte} {i : Nat} (x : BitVec 32) (hi : pre.length = i) :
    load32 (pre ++ (le32 x ++ post)) i = some x := by
  have hzero : (pre ++ (le32 x ++ post))[i]? = (le32 x ++ post)[0]? := getElem?_add pre hi 0
  simp only [load32, hzero, getElem?_add pre hi]
  exact congrArg some (ofLe32_extract x)

theorem load48_le48 (pre : List Byte) {post : List Byte} {i : Nat} (x : BitVec 48) (hi : pre.length = i) :
    load48 (pre ++ (le48 x ++ post)) i = some x := by
  have hzero : (pre ++ (le48 x ++ post))[i]? = (le48 x ++ post)[0]? := getElem?_add pre hi 0
  simp only [load48, hzero, getElem?_add pre hi]
  exact congrArg some (ofLe48_extract x)

/-- A field is the memory of what is read of it. -/
theorem le16_of_load16 {buf : List Byte} {i : Nat} {x : BitVec 16} (h : load16 buf i = some x) :
    (buf.drop i).take 2 = le16 x := by
  simp only [load16, Option.bind_eq_bind, Option.bind_eq_some_iff, Option.pure_def,
    Option.some.injEq] at h
  obtain ⟨a, ha, b, hb, rfl⟩ := h
  rw [le16_ofLe16]
  apply List.ext_getElem?
  intro j
  match j with
  | 0 => simpa using ha
  | 1 => simpa using hb
  | j + 2 => simp

theorem le32_of_load32 {buf : List Byte} {i : Nat} {x : BitVec 32} (h : load32 buf i = some x) :
    (buf.drop i).take 4 = le32 x := by
  simp only [load32, Option.bind_eq_bind, Option.bind_eq_some_iff, Option.pure_def,
    Option.some.injEq] at h
  obtain ⟨a, ha, b, hb, c, hc, d, hd, rfl⟩ := h
  rw [le32_ofLe32]
  apply List.ext_getElem?
  intro j
  match j with
  | 0 => simpa using ha
  | 1 => simpa using hb
  | 2 => simpa using hc
  | 3 => simpa using hd
  | j + 4 => simp

theorem le48_of_load48 {buf : List Byte} {i : Nat} {x : BitVec 48} (h : load48 buf i = some x) :
    (buf.drop i).take 6 = le48 x := by
  simp only [load48, Option.bind_eq_bind, Option.bind_eq_some_iff, Option.pure_def,
    Option.some.injEq] at h
  obtain ⟨a, ha, b, hb, c, hc, d, hd, e, he, f, hf, rfl⟩ := h
  rw [le48_ofLe48]
  apply List.ext_getElem?
  intro j
  match j with
  | 0 => simpa using ha
  | 1 => simpa using hb
  | 2 => simpa using hc
  | 3 => simpa using hd
  | 4 => simpa using he
  | 5 => simpa using hf
  | j + 6 => simp

/-! What is read of a part of the buffer. -/

theorem load16_append_right (pre post : List Byte) (j : Nat) :
    load16 (pre ++ post) (pre.length + j) = load16 post j := by
  simp only [load16, Nat.add_assoc, getElem?_add pre rfl]

theorem load32_append_right (pre post : List Byte) (j : Nat) :
    load32 (pre ++ post) (pre.length + j) = load32 post j := by
  simp only [load32, Nat.add_assoc, getElem?_add pre rfl]

theorem load48_append_right (pre post : List Byte) (j : Nat) :
    load48 (pre ++ post) (pre.length + j) = load48 post j := by
  simp only [load48, Nat.add_assoc, getElem?_add pre rfl]

theorem load_append_right {α : Type*} (pre post : List α) (j n : Nat) :
    load (pre ++ post) (pre.length + j) n = load post j n := by
  unfold load
  rw [List.drop_append, List.drop_of_length_le (Nat.le_add_right _ _), List.nil_append,
    Nat.add_sub_cancel_left, List.length_append]
  simp only [Nat.add_assoc, Nat.add_le_add_iff_left]

theorem load32_append_left {a b : List Byte} {i : Nat} (h : i + 4 ≤ a.length) :
    load32 (a ++ b) i = load32 a i := by
  unfold load32
  rw [List.getElem?_append_left (by omega), List.getElem?_append_left (by omega),
    List.getElem?_append_left (by omega), List.getElem?_append_left (by omega)]

theorem load48_append_left {a b : List Byte} {i : Nat} (h : i + 6 ≤ a.length) :
    load48 (a ++ b) i = load48 a i := by
  unfold load48
  rw [List.getElem?_append_left (by omega), List.getElem?_append_left (by omega),
    List.getElem?_append_left (by omega), List.getElem?_append_left (by omega),
    List.getElem?_append_left (by omega), List.getElem?_append_left (by omega)]

theorem load_append_left {α : Type*} {a b : List α} {i n : Nat} (h : i + n ≤ a.length) :
    load (a ++ b) i n = load a i n := by
  unfold load
  rw [if_pos h, if_pos (by rw [List.length_append]; omega), List.drop_append_of_le_length (by omega),
    List.take_append_of_le_length (by rw [List.length_drop]; omega)]

theorem exists_getElem {α : Type*} {buf : List α} {i : Nat} (h : i < buf.length) :
    ∃ x, buf[i]? = some x :=
  ⟨_, List.getElem?_eq_getElem h⟩

theorem exists_load16 {buf : List Byte} {i : Nat} (h : i + 2 ≤ buf.length) :
    ∃ x, load16 buf i = some x := by
  obtain ⟨b₀, h₀⟩ := exists_getElem (show i < buf.length by omega)
  obtain ⟨b₁, h₁⟩ := exists_getElem (show i + 1 < buf.length by omega)
  exact ⟨ofLe16 b₀ b₁, by rw [load16, h₀, h₁]; rfl⟩

theorem exists_load32 {buf : List Byte} {i : Nat} (h : i + 4 ≤ buf.length) :
    ∃ x, load32 buf i = some x := by
  obtain ⟨b₀, h₀⟩ := exists_getElem (show i < buf.length by omega)
  obtain ⟨b₁, h₁⟩ := exists_getElem (show i + 1 < buf.length by omega)
  obtain ⟨b₂, h₂⟩ := exists_getElem (show i + 2 < buf.length by omega)
  obtain ⟨b₃, h₃⟩ := exists_getElem (show i + 3 < buf.length by omega)
  exact ⟨ofLe32 b₀ b₁ b₂ b₃, by rw [load32, h₀, h₁, h₂, h₃]; rfl⟩

theorem exists_load48 {buf : List Byte} {i : Nat} (h : i + 6 ≤ buf.length) :
    ∃ x, load48 buf i = some x := by
  obtain ⟨b₀, h₀⟩ := exists_getElem (show i < buf.length by omega)
  obtain ⟨b₁, h₁⟩ := exists_getElem (show i + 1 < buf.length by omega)
  obtain ⟨b₂, h₂⟩ := exists_getElem (show i + 2 < buf.length by omega)
  obtain ⟨b₃, h₃⟩ := exists_getElem (show i + 3 < buf.length by omega)
  obtain ⟨b₄, h₄⟩ := exists_getElem (show i + 4 < buf.length by omega)
  obtain ⟨b₅, h₅⟩ := exists_getElem (show i + 5 < buf.length by omega)
  exact ⟨ofLe48 b₀ b₁ b₂ b₃ b₄ b₅, by rw [load48, h₀, h₁, h₂, h₃, h₄, h₅]; rfl⟩

theorem exists_load {α : Type*} {buf : List α} {i n : Nat} (h : i + n ≤ buf.length) :
    ∃ bytes, load buf i n = some bytes ∧ bytes.length = n := by
  refine ⟨(buf.drop i).take n, if_pos h, ?_⟩
  rw [List.length_take, List.length_drop]
  omega

/-- A write is defined if it stays in the buffer. -/
theorem exists_store {α : Type*} {buf bytes : List α} {i : Nat} (h : i + bytes.length ≤ buf.length) :
    ∃ buf', store buf i bytes = some buf' ∧ buf'.length = buf.length := by
  refine ⟨buf.take i ++ bytes ++ buf.drop (i + bytes.length), if_pos h, ?_⟩
  simp only [List.length_append, List.length_take, List.length_drop]
  omega

theorem exists_store8 {buf : List Byte} {i : Nat} (x : Byte) (h : i + 1 ≤ buf.length) :
    ∃ buf', store8 buf i x = some buf' ∧ buf'.length = buf.length :=
  exists_store h

theorem exists_store16 {buf : List Byte} {i : Nat} (x : BitVec 16) (h : i + 2 ≤ buf.length) :
    ∃ buf', store16 buf i x = some buf' ∧ buf'.length = buf.length :=
  exists_store h

theorem exists_store32 {buf : List Byte} {i : Nat} (x : BitVec 32) (h : i + 4 ≤ buf.length) :
    ∃ buf', store32 buf i x = some buf' ∧ buf'.length = buf.length :=
  exists_store h

theorem exists_store48 {buf : List Byte} {i : Nat} (x : BitVec 48) (h : i + 6 ≤ buf.length) :
    ∃ buf', store48 buf i x = some buf' ∧ buf'.length = buf.length :=
  exists_store h

theorem store_length {α : Type*} {buf buf' bytes : List α} {i : Nat}
    (h : store buf i bytes = some buf') : buf'.length = buf.length := by
  unfold store at h
  split at h
  · obtain rfl := Option.some.inj h
    simp only [List.length_append, List.length_take, List.length_drop]
    omega
  · cases h

theorem store_bound {α : Type*} {buf buf' bytes : List α} {i : Nat}
    (h : store buf i bytes = some buf') : i + bytes.length ≤ buf'.length := by
  rw [store_length h]
  unfold store at h
  split at h
  · assumption
  · cases h

/-- A write leaves what is before it. -/
theorem getElem?_store_of_lt {α : Type*} {buf buf' bytes : List α} {i j : Nat}
    (h : store buf i bytes = some buf') (hj : j < i) : buf'[j]? = buf[j]? := by
  unfold store at h
  split at h
  · obtain rfl := Option.some.inj h
    have htake : j < (buf.take i).length := by
      rw [List.length_take]
      omega
    rw [List.append_assoc, List.getElem?_append_left htake, List.getElem?_take_of_lt hj]
  · cases h

theorem load48_store_of_le {buf buf' bytes : List Byte} {i j : Nat}
    (h : store buf i bytes = some buf') (hj : j + 6 ≤ i) : load48 buf' j = load48 buf j := by
  unfold load48
  rw [getElem?_store_of_lt h (show j < i by omega), getElem?_store_of_lt h (show j + 1 < i by omega),
    getElem?_store_of_lt h (show j + 2 < i by omega),
    getElem?_store_of_lt h (show j + 3 < i by omega),
    getElem?_store_of_lt h (show j + 4 < i by omega),
    getElem?_store_of_lt h (show j + 5 < i by omega)]

/-- A field that was written is read back. -/
theorem load48_store48 {buf buf' : List Byte} {i : Nat} {x : BitVec 48}
    (h : store48 buf i x = some buf') : load48 buf' i = some x := by
  unfold store48 store at h
  split at h
  · rename_i hlen
    obtain rfl := Option.some.inj h
    rw [List.append_assoc]
    apply load48_le48
    rw [List.length_take]
    omega
  · cases h

/-- What is behind a place does not depend on what is before it. -/
theorem getElem?_of_drop_eq {α : Type*} {a b : List α} {k i : Nat} (h : a.drop k = b.drop k)
    (hi : k ≤ i) : a[i]? = b[i]? := by
  obtain ⟨j, rfl⟩ := Nat.exists_eq_add_of_le hi
  rw [← List.getElem?_drop, ← List.getElem?_drop, h]

theorem load32_of_drop_eq {a b : List Byte} {k i : Nat} (h : a.drop k = b.drop k) (hi : k ≤ i) :
    load32 a i = load32 b i := by
  unfold load32
  rw [getElem?_of_drop_eq h hi, getElem?_of_drop_eq h (hi.trans (Nat.le_add_right i 1)),
    getElem?_of_drop_eq h (hi.trans (Nat.le_add_right i 2)),
    getElem?_of_drop_eq h (hi.trans (Nat.le_add_right i 3))]

/-- A buffer that is long enough starts with a field of this size. -/
theorem exists_append {α : Type*} {buf : List α} {n m : Nat} (h : n + m ≤ buf.length) :
    ∃ a b, buf = a ++ b ∧ a.length = n ∧ m ≤ b.length := by
  refine ⟨buf.take n, buf.drop n, (List.take_append_drop n buf).symm, ?_, ?_⟩
  · rw [List.length_take]
    omega
  · rw [List.length_drop]
    omega

/-- A buffer that is long enough has its first fields. -/
theorem exists_fields {α : Type*} {buf : List α} {m n k : Nat} (h : m + n + k ≤ buf.length) :
    ∃ a b c, buf = a ++ b ++ c ++ buf.drop (m + n + k) ∧ a.length = m ∧ b.length = n ∧
      c.length = k := by
  refine ⟨buf.take m, (buf.drop m).take n, (buf.drop (m + n)).take k, ?_, ?_, ?_, ?_⟩
  · rw [← List.take_add, ← List.take_add, List.take_append_drop]
  · rw [List.length_take]
    omega
  · rw [List.length_take, List.length_drop]
    omega
  · rw [List.length_take, List.length_drop]
    omega

end NetworkStack.Buffer
