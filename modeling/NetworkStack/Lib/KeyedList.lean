import Mathlib.Data.List.Nodup

/-!
# Lists of records with a key

A list of records of which no two have the same key is a finite map, and looking a key
up is finding the first record that has it.
-/

namespace NetworkStack.KeyedList

variable {α κ : Type*} {key : α → κ} {k k' : κ} {a : α} {l : List α}

/-- An update that keeps the keys. -/
theorem map_key_map {f : α → α} (hf : ∀ a, key (f a) = key a) :
    (l.map f).map key = l.map key := by
  rw [List.map_map]
  exact List.map_congr_left fun a _ => hf a

variable [DecidableEq κ]

theorem key_of_find (h : l.find? (key · = k) = some a) : a ∈ l ∧ key a = k :=
  ⟨List.mem_of_find?_eq_some h, by simpa using List.find?_some h⟩

theorem find_eq_none : l.find? (key · = k) = none ↔ ∀ a ∈ l, key a ≠ k := by
  simp

theorem find_of_mem (h : (l.map key).Nodup) (ha : a ∈ l) : l.find? (key · = key a) = some a := by
  cases hfind : l.find? (key · = key a) with
  | none => exact absurd rfl (find_eq_none.mp hfind a ha)
  | some b =>
      obtain ⟨hb, hkey⟩ := key_of_find hfind
      rw [List.inj_on_of_nodup_map h hb ha hkey]

theorem find_map {f : α → α} (hf : ∀ a, key (f a) = key a) :
    (l.map f).find? (key · = k) = (l.find? (key · = k)).map f := by
  rw [List.find?_map]
  simp only [Function.comp_def, hf]

/-- Taking out the record of a key takes out all of them. -/
theorem eraseP_eq_filter (h : (l.map key).Nodup) :
    l.eraseP (key · = k) = l.filter (key · ≠ k) := by
  induction l with
  | nil => rfl
  | cons a rest ih =>
      rw [List.map_cons, List.nodup_cons] at h
      by_cases ha : key a = k
      · rw [List.eraseP_cons_of_pos (by simpa using ha), List.filter_cons_of_neg (by simpa using ha)]
        symm
        rw [List.filter_eq_self]
        intro b hb
        have hne : key b ≠ key a := fun heq => h.1 (heq ▸ List.mem_map_of_mem hb)
        simpa [← ha] using hne
      · rw [List.eraseP_cons_of_neg (by simpa using ha), List.filter_cons_of_pos (by simpa using ha),
          ih h.2]

/-- Other keys are found as before. -/
theorem find_filter_ne (h : k ≠ k') :
    (l.filter (key · ≠ k)).find? (key · = k') = l.find? (key · = k') := by
  rw [List.find?_filter]
  congr 1
  ext a
  by_cases ha : key a = k'
  · simp [ha, h.symm]
  · simp [ha]

/-! ## Keys up to an equivalence -/

section Equivalence

variable {α κ : Type*} (key : α → κ) {eqv : κ → κ → Bool} {k k' x : κ} {a a' : α}
  {pre rest : List α}

theorem eqv_congr (h : Equivalence fun x y => eqv x y = true) (hk : eqv k k' = true) :
    eqv x k = eqv x k' :=
  Bool.eq_iff_iff.mpr ⟨fun hx => h.trans hx hk, fun hx => h.trans hx (h.symm hk)⟩

theorem eqv_ne (h : Equivalence fun x y => eqv x y = true) (hk : eqv k k' = false)
    (hx : eqv x k = true) : eqv x k' = false := by
  apply Bool.eq_false_iff.mpr
  intro hx'
  rw [h.trans (h.symm hx) hx'] at hk
  cases hk

/-- The first record with the key gets other contents. -/
theorem find_replace (h : Equivalence fun x y => eqv x y = true)
    (hpre : ∀ b ∈ pre, eqv (key b) k = false) (ha : eqv (key a) k = true) (hkey : key a' = key a) :
    (pre ++ a' :: rest).find? (fun b => eqv (key b) k') =
      if eqv k k' then some a' else (pre ++ a :: rest).find? (fun b => eqv (key b) k') := by
  rw [List.find?_append, List.find?_append]
  cases hk : eqv k k' with
  | true =>
      have hnone : pre.find? (fun b => eqv (key b) k') = none := by
        rw [List.find?_eq_none]
        intro b hb
        rw [← eqv_congr h hk, hpre b hb]
        decide
      rw [hnone, Option.none_or, List.find?_cons_of_pos, if_pos rfl]
      rw [hkey, ← eqv_congr h hk, ha]
  | false =>
      have hne : ¬ eqv (key a) k' = true := by
        rw [eqv_ne h hk ha]
        decide
      have hne' : ¬ eqv (key a') k' = true := hkey ▸ hne
      rw [List.find?_cons_of_neg (p := fun b => eqv (key b) k') hne',
        List.find?_cons_of_neg (p := fun b => eqv (key b) k') hne, if_neg Bool.false_ne_true]

/-- The record with the key taken out of a list in which no two keys are equivalent. -/
theorem find_remove (h : Equivalence fun x y => eqv x y = true)
    (hunique : (pre ++ a :: rest).Pairwise fun b c => eqv (key b) (key c) = false)
    (hpre : ∀ b ∈ pre, eqv (key b) k = false) (ha : eqv (key a) k = true) :
    (pre ++ rest).find? (fun b => eqv (key b) k') =
      if eqv k k' then none else (pre ++ a :: rest).find? (fun b => eqv (key b) k') := by
  cases hk : eqv k k' with
  | true =>
      rw [if_pos rfl, List.find?_eq_none]
      intro b hb
      rw [← eqv_congr h hk]
      rcases List.mem_append.mp hb with hb | hb
      · rw [hpre b hb]
        decide
      · have hab := (List.pairwise_cons.mp (List.pairwise_append.mp hunique).2.1).1 b hb
        intro hbk
        rw [h.trans ha (h.symm hbk)] at hab
        cases hab
  | false =>
      have hne : ¬ eqv (key a) k' = true := by
        rw [eqv_ne h hk ha]
        decide
      rw [if_neg Bool.false_ne_true, List.find?_append, List.find?_append,
        List.find?_cons_of_neg (p := fun b => eqv (key b) k') hne]

end Equivalence

end NetworkStack.KeyedList
