import Mathlib.Data.List.Basic

/-!
# Tables of slots

A table is a list of slots that are overwritten in place. `Keyed` says that no two
slots have the same key; slots without a key, such as free ones, do not count.
-/

namespace NetworkStack.Slots

variable {α κ : Type*} {key : α → Option κ} {l : List α}

/-- Two slots with the same key are the same slot. -/
def Keyed (key : α → Option κ) (l : List α) : Prop :=
  ∀ (i j : Nat) a b x, l[i]? = some a → l[j]? = some b → key a = some x → key b = some x → i = j

theorem keyed_of_none (h : ∀ a ∈ l, key a = none) : Keyed key l := by
  intro i j a b x hi _ hx _
  rw [h a (List.mem_of_getElem? hi)] at hx
  cases hx

/-- Reading a table after a slot was overwritten. -/
theorem getElem?_set_cases {i j : Nat} {a b : α} (h : (l.set i a)[j]? = some b) :
    (i = j ∧ b = a) ∨ (i ≠ j ∧ l[j]? = some b) := by
  rw [List.getElem?_set] at h
  split at h
  · rename_i hij
    split at h
    · exact .inl ⟨hij, (Option.some.inj h).symm⟩
    · cases h
  · rename_i hij
    exact .inr ⟨hij, h⟩

/-- Giving a slot a key that no slot has. -/
theorem Keyed.set {i : Nat} {a : α} (h : Keyed key l)
    (hfresh : ∀ x, key a = some x → ∀ b ∈ l, key b ≠ some x) : Keyed key (l.set i a) := by
  intro j k b c x hj hk hb hc
  obtain ⟨rfl, rfl⟩ | ⟨-, hj'⟩ := getElem?_set_cases hj
  · obtain ⟨rfl, -⟩ | ⟨-, hk'⟩ := getElem?_set_cases hk
    · rfl
    · exact absurd hc (hfresh x hb c (List.mem_of_getElem? hk'))
  · obtain ⟨rfl, rfl⟩ | ⟨-, hk'⟩ := getElem?_set_cases hk
    · exact absurd hb (hfresh x hc b (List.mem_of_getElem? hj'))
    · exact h j k b c x hj' hk' hb hc

/-- Freeing a slot. -/
theorem Keyed.set_none {i : Nat} {a : α} (h : Keyed key l) (ha : key a = none) :
    Keyed key (l.set i a) :=
  h.set fun x hx => by simp [ha] at hx

/-- Slots without a key at the end of a table. -/
theorem keyed_append_iff {free : List α} (h : ∀ a ∈ free, key a = none) :
    Keyed key (l ++ free) ↔ Keyed key l := by
  constructor
  · intro hk i j a b x hi hj
    exact hk i j a b x (List.getElem?_append_left (List.getElem?_eq_some_iff.mp hi).1 ▸ hi)
      (List.getElem?_append_left (List.getElem?_eq_some_iff.mp hj).1 ▸ hj)
  · intro hk i j a b x hi hj ha hb
    have hleft {m : Nat} {c : α} (hm : (l ++ free)[m]? = some c) (hc : key c = some x) :
        l[m]? = some c := by
      by_cases hlt : m < l.length
      · rwa [List.getElem?_append_left hlt] at hm
      · rw [List.getElem?_append_right (Nat.le_of_not_lt hlt)] at hm
        simp [h c (List.mem_of_getElem? hm)] at hc
    exact hk i j a b x (hleft hi ha) (hleft hj hb) ha hb

/-- The number of used slots after one was overwritten. -/
theorem countP_set_add {p : α → Bool} {i : Nat} {a b : α} (h : l[i]? = some b) :
    (l.set i a).countP p + (if p b then 1 else 0) = l.countP p + if p a then 1 else 0 := by
  obtain ⟨hi, rfl⟩ := List.getElem?_eq_some_iff.mp h
  have hpos : (if p l[i] then 1 else 0) ≤ l.countP p := by
    split
    · rename_i hp
      exact List.countP_pos_iff.mpr ⟨_, List.getElem_mem hi, hp⟩
    · exact Nat.zero_le _
  rw [List.countP_set hi]
  omega

end NetworkStack.Slots
