import Mathlib.Data.List.Basic

/-!
# Deferred delivery

Items are queued under a key until the key is answered. The answer releases what waits
for the key at that time, and nothing else. A history has its most recent event first,
and the serial number of an item is the number of events before it.

`filter_delivered` says what that comes to for one item: it is delivered once, with the
first answer after it was queued, and not before.
-/

namespace NetworkStack.Deferred

variable {κ π ρ : Type*}

inductive Event (κ π ρ : Type*) where
  | queued (k : κ) (item : π)
  | answered (k : κ) (answer : ρ)

/-- An item that was released by an answer. -/
structure Delivery (π ρ : Type*) where
  serial : Nat
  item : π
  answer : ρ

variable [DecidableEq κ]

/-- The items that wait for a key, the last queued first. -/
def waiting (k : κ) : List (Event κ π ρ) → List (Nat × π)
  | [] => []
  | .queued k' item :: older =>
      if k' = k then (older.length, item) :: waiting k older else waiting k older
  | .answered k' _ :: older => if k' = k then [] else waiting k older

/-- What the answers of a history have released, in order. -/
def delivered : List (Event κ π ρ) → List (Delivery π ρ)
  | [] => []
  | .queued _ _ :: older => delivered older
  | .answered k answer :: older =>
      delivered older ++ (waiting k older).map fun w => ⟨w.1, w.2, answer⟩

/-- The first answer for a key. -/
def firstAnswer (k : κ) : List (Event κ π ρ) → Option ρ
  | [] => none
  | .queued _ _ :: older => firstAnswer k older
  | .answered k' answer :: older =>
      (firstAnswer k older).or (if k' = k then some answer else none)

variable {k k' : κ} {item : π} {h newer older : List (Event κ π ρ)}

theorem serial_lt_of_waiting {w : Nat × π} (hw : w ∈ waiting k h) : w.1 < h.length := by
  induction h with
  | nil => cases hw
  | cons event rest ih =>
      rw [List.length_cons]
      cases event with
      | queued k' item =>
          simp only [waiting] at hw
          split at hw
          · obtain rfl | hw := List.mem_cons.mp hw
            · exact Nat.lt_succ_self _
            · exact Nat.lt_succ_of_lt (ih hw)
          · exact Nat.lt_succ_of_lt (ih hw)
      | answered k' answer =>
          simp only [waiting] at hw
          split at hw
          · cases hw
          · exact Nat.lt_succ_of_lt (ih hw)

theorem serial_lt_of_delivered {d : Delivery π ρ} (hd : d ∈ delivered h) :
    d.serial < h.length := by
  induction h with
  | nil => cases hd
  | cons event rest ih =>
      rw [List.length_cons]
      cases event with
      | queued k item => exact Nat.lt_succ_of_lt (ih hd)
      | answered k answer =>
          obtain hd | hd := List.mem_append.mp hd
          · exact Nat.lt_succ_of_lt (ih hd)
          · obtain ⟨w, hw, rfl⟩ := List.mem_map.mp hd
            exact Nat.lt_succ_of_lt (serial_lt_of_waiting hw)

/-- An item waits for its own key, until that is answered. -/
theorem filter_waiting (k k' : κ) (item : π) (newer older : List (Event κ π ρ)) :
    (waiting k' (newer ++ .queued k item :: older)).filter (·.1 = older.length) =
      if k' = k ∧ (firstAnswer k newer).isNone then [(older.length, item)] else [] := by
  induction newer with
  | nil =>
      have hold : (waiting k' older).filter (·.1 = older.length) = [] := by
        rw [List.filter_eq_nil_iff]
        intro w hw
        have hlt := serial_lt_of_waiting hw
        simp only [decide_eq_true_eq]
        omega
      by_cases hk : k = k'
      · simp [waiting, firstAnswer, hk, hold]
      · simp [waiting, firstAnswer, hk, hold, Ne.symm hk]
  | cons event rest ih =>
      cases event with
      | queued k₂ item₂ =>
          rw [List.cons_append, waiting]
          split
          · rw [List.filter_cons_of_neg (by simp; omega)]
            exact ih
          · exact ih
      | answered k₂ answer =>
          rw [List.cons_append, waiting]
          split
          · rename_i hk₂
            subst hk₂
            by_cases hk : k₂ = k
            · simp [firstAnswer, hk]
            · simp [hk]
          · rename_i hk₂
            rw [ih]
            by_cases hk : k' = k
            · subst hk
              simp [firstAnswer, hk₂]
            · simp [hk]

/-- An item is delivered once, with the first answer for its key, and no sooner. -/
theorem filter_delivered (k : κ) (item : π) (newer older : List (Event κ π ρ)) :
    (delivered (newer ++ .queued k item :: older)).filter (·.serial = older.length) =
      ((firstAnswer k newer).map fun answer => ⟨older.length, item, answer⟩).toList := by
  induction newer with
  | nil =>
      rw [List.nil_append, delivered, firstAnswer, Option.map_none, Option.toList_none,
        List.filter_eq_nil_iff]
      intro d hd
      have hlt := serial_lt_of_delivered hd
      simp only [decide_eq_true_eq]
      omega
  | cons event rest ih =>
      cases event with
      | queued k₂ item₂ => exact ih
      | answered k₂ answer =>
          have hmap : ((waiting k₂ (rest ++ .queued k item :: older)).map fun w =>
                (⟨w.1, w.2, answer⟩ : Delivery π ρ)).filter (·.serial = older.length) =
              if k₂ = k ∧ (firstAnswer k rest).isNone then [⟨older.length, item, answer⟩]
              else [] := by
            have hfilter := filter_waiting k k₂ item rest older
            rw [List.filter_map]
            change List.map _ (List.filter _ _) = _
            simp only [Function.comp_def, hfilter]
            split <;> rfl
          rw [List.cons_append, delivered, List.filter_append, ih, hmap, firstAnswer]
          cases hfirst : firstAnswer k rest with
          | some r => simp
          | none =>
              by_cases hk : k₂ = k
              · simp [hk]
              · simp [hk]

theorem exists_of_waiting {w : Nat × π} (hw : w ∈ waiting k h) :
    ∃ newer older, h = newer ++ .queued k w.2 :: older ∧ w.1 = older.length := by
  induction h with
  | nil => cases hw
  | cons event rest ih =>
      have hcons (hrest : w ∈ waiting k rest) : ∃ newer older,
          event :: rest = newer ++ .queued k w.2 :: older ∧ w.1 = older.length := by
        obtain ⟨newer, older, rfl, hserial⟩ := ih hrest
        exact ⟨event :: newer, older, rfl, hserial⟩
      cases event with
      | queued k' item =>
          simp only [waiting] at hw
          split at hw
          · rename_i hk
            obtain rfl | hw := List.mem_cons.mp hw
            · exact ⟨[], rest, by rw [hk]; rfl, rfl⟩
            · exact hcons hw
          · exact hcons hw
      | answered k' answer =>
          simp only [waiting] at hw
          split at hw
          · cases hw
          · exact hcons hw

/-- Nothing is delivered that was not queued. -/
theorem exists_of_delivered {d : Delivery π ρ} (hd : d ∈ delivered h) :
    ∃ newer k older, h = newer ++ .queued k d.item :: older ∧ d.serial = older.length := by
  induction h with
  | nil => cases hd
  | cons event rest ih =>
      have hcons (hrest : ∃ newer k older,
          rest = newer ++ .queued k d.item :: older ∧ d.serial = older.length) :
          ∃ newer k older, event :: rest = newer ++ .queued k d.item :: older ∧
            d.serial = older.length := by
        obtain ⟨newer, k, older, rfl, hserial⟩ := hrest
        exact ⟨event :: newer, k, older, rfl, hserial⟩
      cases event with
      | queued k item => exact hcons (ih hd)
      | answered k answer =>
          obtain hd | hd := List.mem_append.mp hd
          · exact hcons (ih hd)
          · obtain ⟨w, hw, rfl⟩ := List.mem_map.mp hd
            obtain ⟨newer, older, hrest, hserial⟩ := exists_of_waiting hw
            exact hcons ⟨newer, k, older, hrest, hserial⟩

end NetworkStack.Deferred
