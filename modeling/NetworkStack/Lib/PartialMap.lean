import Mathlib.Data.List.Nodup
import Mathlib.Logic.Function.Basic

/-!
# Two partial maps that should be inverse to each other

A list of pairs is assigned to a map from left to right and, the other way round, to a map
from right to left. No assignment takes anything out, so the maps stay inverse exactly if
every pair that is no longer valid is replaced at both its ends.
-/

namespace NetworkStack.PartialMap

variable {α β : Type*}

def Inverse (f : α → Option β) (g : β → Option α) : Prop := ∀ a b, f a = some b ↔ g b = some a

theorem Inverse.symm {f : α → Option β} {g : β → Option α} (h : Inverse f g) : Inverse g f :=
  fun b a => (h a b).symm

/-- Assign the pairs one after another. -/
def assign [DecidableEq α] (f : α → Option β) (pairs : List (α × β)) : α → Option β :=
  pairs.foldl (fun f p => Function.update f p.1 (some p.2)) f

/-- The keys that are assigned had no value, or one that is assigned too. -/
def Covers (f : α → Option β) (pairs : List (α × β)) : Prop :=
  ∀ a b, a ∈ pairs.map Prod.fst → f a = some b → b ∈ pairs.map Prod.snd

section Assign

variable [DecidableEq α] {f : α → Option β} {pairs : List (α × β)} {a : α} {b : β}

theorem assign_of_not_mem (h : a ∉ pairs.map Prod.fst) : assign f pairs a = f a := by
  induction pairs generalizing f with
  | nil => rfl
  | cons p rest ih =>
      rw [List.map_cons, List.mem_cons, not_or] at h
      calc assign f (p :: rest) a
          = Function.update f p.1 (some p.2) a := ih h.2
        _ = f a := Function.update_of_ne h.1 _ _

/-- With keys that are all different, what is assigned is found. -/
theorem assign_of_mem (hkeys : (pairs.map Prod.fst).Nodup) (h : (a, b) ∈ pairs) :
    assign f pairs a = some b := by
  induction pairs generalizing f with
  | nil => cases h
  | cons p rest ih =>
      rw [List.map_cons, List.nodup_cons] at hkeys
      obtain rfl | h := List.mem_cons.mp h
      · calc assign f ((a, b) :: rest) a
            = Function.update f a (some b) a := assign_of_not_mem hkeys.1
          _ = some b := Function.update_self _ _ _
      · exact ih hkeys.2 h

theorem assign_eq_iff (hkeys : (pairs.map Prod.fst).Nodup) (h : a ∈ pairs.map Prod.fst) :
    assign f pairs a = some b ↔ (a, b) ∈ pairs := by
  refine ⟨fun heq => ?_, assign_of_mem hkeys⟩
  obtain ⟨⟨a', c⟩, hp, rfl⟩ := List.mem_map.mp h
  rw [assign_of_mem hkeys hp] at heq
  exact Option.some.inj heq ▸ hp

end Assign

theorem mem_map_swap {pairs : List (α × β)} {a : α} {b : β} :
    (b, a) ∈ pairs.map Prod.swap ↔ (a, b) ∈ pairs := by
  simp

section Inverse

variable [DecidableEq α] [DecidableEq β] {f : α → Option β} {g : β → Option α}
  {pairs : List (α × β)}

/-- A pair of the maps that is in the way is replaced at both its ends. -/
theorem covers_of_inverse (hkeys : (pairs.map Prod.fst).Nodup) (h : Inverse f g)
    (h' : Inverse (assign f pairs) (assign g (pairs.map Prod.swap))) : Covers f pairs := by
  intro a b ha hb
  by_contra hnot
  have hswap : b ∉ (pairs.map Prod.swap).map Prod.fst := by
    rw [List.map_map]
    exact hnot
  have hold : assign g (pairs.map Prod.swap) b = some a := by
    rw [assign_of_not_mem hswap]
    exact (h a b).mp hb
  have hnew : (a, b) ∈ pairs := (assign_eq_iff hkeys ha).mp ((h' a b).mpr hold)
  exact hnot (List.mem_map_of_mem hnew)

/-- With nothing in the way, what is found from left to right is found the other way round. -/
theorem assign_of_covers (hkeys : (pairs.map Prod.fst).Nodup) (hvalues : (pairs.map Prod.snd).Nodup)
    (h : Inverse f g) (hcovers : Covers g (pairs.map Prod.swap)) {a : α} {b : β}
    (ha : assign f pairs a = some b) : assign g (pairs.map Prod.swap) b = some a := by
  have hswap : (pairs.map Prod.swap).map Prod.fst = pairs.map Prod.snd := by
    rw [List.map_map]
    rfl
  have hswap' : (pairs.map Prod.swap).map Prod.snd = pairs.map Prod.fst := by
    rw [List.map_map]
    rfl
  by_cases hmem : a ∈ pairs.map Prod.fst
  · have hp : (a, b) ∈ pairs := (assign_eq_iff hkeys hmem).mp ha
    exact assign_of_mem (hswap ▸ hvalues) (mem_map_swap.mpr hp)
  · rw [assign_of_not_mem hmem] at ha
    have hg : g b = some a := (h a b).mp ha
    have hb : b ∉ (pairs.map Prod.swap).map Prod.fst := fun hb =>
      hmem (hswap' ▸ hcovers b a hb hg)
    rw [assign_of_not_mem hb, hg]

/-- Assigning pairs with different keys and different values keeps the maps inverse exactly if
it replaces what is in the way on both sides. -/
theorem inverse_assign_iff (hkeys : (pairs.map Prod.fst).Nodup)
    (hvalues : (pairs.map Prod.snd).Nodup) (h : Inverse f g) :
    Inverse (assign f pairs) (assign g (pairs.map Prod.swap)) ↔
      Covers f pairs ∧ Covers g (pairs.map Prod.swap) := by
  have hkeys' : ((pairs.map Prod.swap).map Prod.fst).Nodup := by
    rw [List.map_map]
    exact hvalues
  have hvalues' : ((pairs.map Prod.swap).map Prod.snd).Nodup := by
    rw [List.map_map]
    exact hkeys
  have hback : (pairs.map Prod.swap).map Prod.swap = pairs := by
    rw [List.map_map, Prod.swap_swap_eq, List.map_id]
  constructor
  · intro h'
    refine ⟨covers_of_inverse hkeys h h', covers_of_inverse hkeys' h.symm ?_⟩
    rw [hback]
    exact h'.symm
  · rintro ⟨hf, hg⟩ a b
    refine ⟨assign_of_covers hkeys hvalues h hg, fun hb => ?_⟩
    have hcovers : Covers f ((pairs.map Prod.swap).map Prod.swap) := by
      rw [hback]
      exact hf
    have ha := assign_of_covers hkeys' hvalues' h.symm hcovers hb
    rw [hback] at ha
    exact ha

end Inverse

end NetworkStack.PartialMap
