import Mathlib.Data.List.Nodup
import Mathlib.Logic.Function.Basic

/-!
# Singly linked queues in a heap

A cell of the heap holds a value and the address of the next cell. A queue is known
by the addresses of its first and its last cell. `IsQueue` says which cells, in which
order, the queue consists of; the rules below say how they change when a cell is linked
behind the last one, when the first cell gets another value and when it is unlinked.
-/

namespace NetworkStack.LinkedQueue

/-- Addresses; the null pointer is `none` where an `Option` stands. -/
abbrev Addr := Nat

structure Cell (α : Type*) where
  value : α
  next : Option Addr
  deriving DecidableEq

abbrev Heap (α : Type*) := Addr → Option (Cell α)

structure Ends where
  head : Option Addr
  tail : Option Addr
  deriving DecidableEq

variable {α : Type*}

/-- From `p` on, the heap links exactly these cells. -/
def Links (mem : Heap α) : Option Addr → List (Addr × α) → Prop
  | p, [] => p = none
  | p, (a, x) :: rest => p = some a ∧ ∃ next, mem a = some ⟨x, next⟩ ∧ Links mem next rest

/-- The queue consists of these cells. -/
structure IsQueue (mem : Heap α) (q : Ends) (cells : List (Addr × α)) : Prop where
  links : Links mem q.head cells
  tail_eq : q.tail = cells.getLast?.map Prod.fst
  nodup : (cells.map Prod.fst).Nodup

section Links

variable {mem : Heap α} {p : Option Addr} {cells : List (Addr × α)}

/-- Only the memory of the cells matters. -/
theorem Links.congr (h : Links mem p cells) {mem' : Heap α}
    (hsame : ∀ a ∈ cells.map Prod.fst, mem' a = mem a) : Links mem' p cells := by
  induction cells generalizing p with
  | nil => exact h
  | cons cell rest ih =>
      obtain ⟨rfl, next, hcell, hrest⟩ := h
      rw [List.map_cons, List.forall_mem_cons] at hsame
      exact ⟨rfl, next, hsame.1.trans hcell, ih hrest hsame.2⟩

/-- What is written outside the cells does not change them. -/
theorem Links.update (h : Links mem p cells) {a : Addr} (ha : a ∉ cells.map Prod.fst)
    (c : Option (Cell α)) : Links (Function.update mem a c) p cells := by
  apply h.congr
  intro b hb
  have hne : b ≠ a := fun heq => ha (heq ▸ hb)
  exact Function.update_of_ne hne _ _

theorem Links.mem_of (h : Links mem p cells) {a : Addr} {x : α} (ha : (a, x) ∈ cells) :
    ∃ next, mem a = some ⟨x, next⟩ := by
  induction cells generalizing p with
  | nil => cases ha
  | cons cell rest ih =>
      obtain ⟨-, next, hcell, hrest⟩ := h
      rcases List.mem_cons.mp ha with rfl | ha
      · exact ⟨next, hcell⟩
      · exact ih hrest ha

/-- A chain does not start at an address that is none of its first cells. -/
theorem Links.ne_of_not_mem {pre rest : List (Addr × α)} {a : Addr}
    (h : Links mem p (pre ++ rest)) (hne : pre ≠ []) (ha : a ∉ pre.map Prod.fst) :
    p ≠ some a := by
  cases pre with
  | nil => exact absurd rfl hne
  | cons cell pre =>
      intro heq
      have hcell : a = cell.1 := Option.some.inj (heq.symm.trans h.1)
      exact ha (hcell ▸ List.mem_cons_self)

theorem not_mem_of_nodup {pre rest : List (Addr × α)} {a : Addr} {x : α}
    (h : ((pre ++ (a, x) :: rest).map Prod.fst).Nodup) :
    a ∉ pre.map Prod.fst ∧ a ∉ rest.map Prod.fst := by
  rw [List.map_append, List.map_cons, List.nodup_middle, List.nodup_cons, List.mem_append,
    not_or] at h
  exact h.1

/-- The chain from a cell in the middle. -/
theorem Links.drop {pre rest : List (Addr × α)} {a : Addr} {x : α}
    (h : Links mem p (pre ++ (a, x) :: rest)) :
    ∃ next, mem a = some ⟨x, next⟩ ∧ Links mem next rest := by
  induction pre generalizing p with
  | nil => exact h.2
  | cons cell pre ih =>
      obtain ⟨-, next, -, hrest⟩ := h
      exact ih hrest

/-- A cell written in place, with another chain behind it. -/
theorem Links.replace {pre rest rest' : List (Addr × α)} {a : Addr} {x y : α}
    {next : Option Addr} (h : Links mem p (pre ++ (a, x) :: rest))
    (hpre : a ∉ pre.map Prod.fst) (hrest : Links mem next rest')
    (hnot : a ∉ rest'.map Prod.fst) :
    Links (Function.update mem a (some ⟨y, next⟩)) p (pre ++ (a, y) :: rest') := by
  induction pre generalizing p with
  | nil => exact ⟨h.1, next, Function.update_self .., hrest.update hnot _⟩
  | cons cell pre ih =>
      obtain ⟨hp, next', hcell, htail⟩ := h
      rw [List.map_cons, List.mem_cons, not_or] at hpre
      refine ⟨hp, next', ?_, ih htail hpre.2⟩
      rw [Function.update_of_ne (Ne.symm hpre.1), hcell]

/-- The cells are in the heap, so a free address is none of theirs. -/
theorem Links.not_mem (h : Links mem p cells) {a : Addr} (ha : mem a = none) :
    a ∉ cells.map Prod.fst := by
  induction cells generalizing p with
  | nil => simp
  | cons cell rest ih =>
      obtain ⟨-, next, hcell, hrest⟩ := h
      rw [List.map_cons, List.mem_cons, not_or]
      refine ⟨?_, ih hrest⟩
      rintro rfl
      rw [ha] at hcell
      cases hcell

/-- The last cell is in the heap and ends the chain. -/
theorem Links.getLast (h : Links mem p cells) {a : Addr} {x : α}
    (hlast : cells.getLast? = some (a, x)) : mem a = some ⟨x, none⟩ := by
  induction cells generalizing p with
  | nil => cases hlast
  | cons cell rest ih =>
      obtain ⟨-, next, hcell, hrest⟩ := h
      cases rest with
      | nil =>
          obtain rfl : cell = (a, x) := by simpa using hlast
          obtain rfl : next = none := hrest
          exact hcell
      | cons cell' rest' =>
          rw [List.getLast?_cons_cons] at hlast
          exact ih hrest hlast

/-- Linking a free cell behind the last one. -/
theorem Links.link (h : Links mem p cells) (hnodup : (cells.map Prod.fst).Nodup)
    {a b : Addr} {x y : α} (hlast : cells.getLast? = some (a, x)) (hb : mem b = none) :
    Links (Function.update (Function.update mem b (some ⟨y, none⟩)) a (some ⟨x, some b⟩)) p
      (cells ++ [(b, y)]) := by
  induction cells generalizing p with
  | nil => cases hlast
  | cons cell rest ih =>
      have hne : b ≠ cell.1 := by
        have hnot := h.not_mem hb
        simp only [List.map_cons, List.mem_cons, not_or] at hnot
        exact hnot.1
      obtain ⟨hp, next, hcell, hrest⟩ := h
      rw [List.map_cons, List.nodup_cons] at hnodup
      cases rest with
      | nil =>
          obtain rfl : cell = (a, x) := by simpa using hlast
          refine ⟨hp, some b, Function.update_self .., rfl, none, ?_, rfl⟩
          rw [Function.update_of_ne hne, Function.update_self]
      | cons cell' rest' =>
          rw [List.getLast?_cons_cons] at hlast
          have hmem : a ∈ (cell' :: rest').map Prod.fst :=
            List.mem_map.mpr ⟨(a, x), List.mem_of_getLast? hlast, rfl⟩
          have hcella : cell.1 ≠ a := by
            rintro rfl
            exact hnodup.1 hmem
          refine ⟨hp, next, ?_, ih hrest hnodup.2 hlast⟩
          rw [Function.update_of_ne hcella, Function.update_of_ne (Ne.symm hne)]
          exact hcell

end Links

section IsQueue

variable {mem : Heap α} {q : Ends} {cells : List (Addr × α)}

theorem isQueue_nil : IsQueue mem ⟨none, none⟩ [] := ⟨rfl, rfl, List.nodup_nil⟩

/-- Both ends are null, or neither is. -/
theorem IsQueue.head_eq_none_iff (h : IsQueue mem q cells) : q.head = none ↔ cells = [] := by
  cases cells with
  | nil => exact iff_of_true h.links rfl
  | cons cell rest => simp [h.links.1]

theorem IsQueue.tail_eq_none_iff (h : IsQueue mem q cells) : q.tail = none ↔ cells = [] := by
  rw [h.tail_eq]
  simp

/-- A queue that is not empty has a last cell, with nothing behind it. -/
theorem IsQueue.exists_last (h : IsQueue mem q cells) (hne : cells ≠ []) :
    ∃ a x, q.tail = some a ∧ cells.getLast? = some (a, x) ∧ mem a = some ⟨x, none⟩ := by
  obtain ⟨⟨a, x⟩, hlast⟩ := Option.ne_none_iff_exists'.mp
    (fun hnone => hne (List.getLast?_eq_none_iff.mp hnone))
  refine ⟨a, x, ?_, hlast, h.links.getLast hlast⟩
  rw [h.tail_eq, hlast]
  rfl

theorem nodup_concat {a : Addr} {x : α} (hnodup : (cells.map Prod.fst).Nodup)
    (ha : a ∉ cells.map Prod.fst) : ((cells ++ [(a, x)]).map Prod.fst).Nodup := by
  rw [List.map_append]
  refine List.nodup_append.mpr ⟨hnodup, List.nodup_singleton a, ?_⟩
  rintro b hb c hc rfl
  obtain rfl : b = a := by simpa using hc
  exact ha hb

/-- The first cell of an empty queue. -/
theorem isQueue_singleton (mem : Heap α) (b : Addr) (y : α) :
    IsQueue (Function.update mem b (some ⟨y, none⟩)) ⟨some b, some b⟩ [(b, y)] :=
  ⟨⟨rfl, none, Function.update_self .., rfl⟩, rfl, List.nodup_singleton b⟩

/-- A free cell linked behind the last one. -/
theorem IsQueue.push (h : IsQueue mem q cells) {a b : Addr} {x y : α}
    (hlast : cells.getLast? = some (a, x)) (hb : mem b = none) :
    IsQueue (Function.update (Function.update mem b (some ⟨y, none⟩)) a (some ⟨x, some b⟩))
      ⟨q.head, some b⟩ (cells ++ [(b, y)]) where
  links := h.links.link h.nodup hlast hb
  tail_eq := by simp
  nodup := nodup_concat h.nodup (h.links.not_mem hb)

/-- Another value in the first cell. -/
theorem IsQueue.set_head {a : Addr} {x : α} {rest : List (Addr × α)} {next : Option Addr}
    (h : IsQueue mem q ((a, x) :: rest)) (hmem : mem a = some ⟨x, next⟩) (y : α) :
    IsQueue (Function.update mem a (some ⟨y, next⟩)) q ((a, y) :: rest) := by
  obtain ⟨⟨hhead, next', hcell, hrest⟩, htail, hnodup⟩ := h
  obtain rfl : next = next' := by
    rw [hmem] at hcell
    exact (Cell.mk.inj (Option.some.inj hcell)).2
  have hnot : a ∉ rest.map Prod.fst := (List.nodup_cons.mp hnodup).1
  refine ⟨⟨hhead, next, Function.update_self .., hrest.update hnot _⟩, ?_, hnodup⟩
  rw [htail]
  cases rest with
  | nil => rfl
  | cons cell rest' => rw [List.getLast?_cons_cons, List.getLast?_cons_cons]

/-- The first of several cells unlinked and freed. -/
theorem IsQueue.pop {a b : Addr} {x : α} {rest : List (Addr × α)}
    (h : IsQueue mem q ((a, x) :: rest)) (hmem : mem a = some ⟨x, some b⟩) :
    IsQueue (Function.update mem a none) ⟨some b, q.tail⟩ rest := by
  obtain ⟨⟨hhead, next, hcell, hrest⟩, htail, hnodup⟩ := h
  obtain rfl : some b = next := by
    rw [hmem] at hcell
    exact (Cell.mk.inj (Option.some.inj hcell)).2
  have hnot : a ∉ rest.map Prod.fst := (List.nodup_cons.mp hnodup).1
  refine ⟨hrest.update hnot _, ?_, (List.nodup_cons.mp hnodup).2⟩
  cases rest with
  | nil => cases hrest
  | cons cell rest' => rw [htail, List.getLast?_cons_cons]

/-- A first cell with nothing behind it is the only one, and the last. -/
theorem IsQueue.eq_singleton {a : Addr} {x : α} {rest : List (Addr × α)}
    (h : IsQueue mem q ((a, x) :: rest)) (hmem : mem a = some ⟨x, none⟩) :
    rest = [] ∧ q.tail = some a := by
  obtain ⟨⟨hhead, next, hcell, hrest⟩, htail, hnodup⟩ := h
  obtain rfl : none = next := by
    rw [hmem] at hcell
    exact (Cell.mk.inj (Option.some.inj hcell)).2
  cases rest with
  | nil => exact ⟨rfl, htail⟩
  | cons cell rest' => cases hrest.1

end IsQueue

end NetworkStack.LinkedQueue
