import Mathlib.Data.List.Basic
import Mathlib.Order.Lattice

/-!
# The last of the greatest elements of a list

A scan that keeps the best element so far and takes any later one that is at least as good
ends with the last of the elements whose score is greatest.
-/

namespace NetworkStack.Selection

variable {α κ : Type*} [LinearOrder κ] {score : α → κ} {l : List α} {b x y : α}

/-- No element before `x` has a greater score, and those after it have a smaller one. -/
def LastMax (score : α → κ) (l : List α) (x : α) : Prop :=
  ∃ before after, l = before ++ x :: after ∧ (∀ y ∈ before, score y ≤ score x) ∧
    ∀ y ∈ after, score y < score x

/-- The scan, with the best element so far. -/
def scan (score : α → κ) : Option α → List α → Option α
  | best, [] => best
  | none, x :: rest => scan score (some x) rest
  | some b, x :: rest => scan score (some (if score b ≤ score x then x else b)) rest

namespace LastMax

theorem mem (h : LastMax score l x) : x ∈ l := by
  obtain ⟨before, after, rfl, -, -⟩ := h
  simp

theorem le (h : LastMax score l x) (hy : y ∈ l) : score y ≤ score x := by
  obtain ⟨before, after, rfl, hbefore, hafter⟩ := h
  obtain hy | hy := List.mem_append.mp hy
  · exact hbefore y hy
  · obtain rfl | hy := List.mem_cons.mp hy
    · exact le_rfl
    · exact (hafter y hy).le

theorem cons (h : LastMax score l x) (hb : score b ≤ score x) : LastMax score (b :: l) x := by
  obtain ⟨before, after, rfl, hbefore, hafter⟩ := h
  exact ⟨b :: before, after, rfl, List.forall_mem_cons.mpr ⟨hb, hbefore⟩, hafter⟩

/-- An element that is worse than the one in front of it does not matter. -/
theorem skip (h : LastMax score (b :: l) x) (hy : score y < score b) :
    LastMax score (b :: y :: l) x := by
  have hyx : score y < score x := lt_of_lt_of_le hy (h.le List.mem_cons_self)
  obtain ⟨before, after, heq, hbefore, hafter⟩ := h
  cases before with
  | nil =>
      obtain ⟨rfl, rfl⟩ := List.cons.inj heq
      exact ⟨[], y :: l, rfl, nofun, List.forall_mem_cons.mpr ⟨hy, hafter⟩⟩
  | cons c before =>
      obtain ⟨rfl, rfl⟩ := List.cons.inj heq
      obtain ⟨hb, hbefore⟩ := List.forall_mem_cons.mp hbefore
      refine ⟨b :: y :: before, after, rfl, ?_, hafter⟩
      exact List.forall_mem_cons.mpr ⟨hb, List.forall_mem_cons.mpr ⟨hyx.le, hbefore⟩⟩

theorem unique (hx : LastMax score l x) (hy : LastMax score l y) : x = y := by
  have hscore : score x = score y := le_antisymm (hy.le hx.mem) (hx.le hy.mem)
  obtain ⟨before, after, rfl, -, hafter⟩ := hx
  obtain ⟨before', after', heq, -, hafter'⟩ := hy
  obtain ⟨mid, rfl, hmid⟩ | ⟨mid, rfl, hmid⟩ := List.append_eq_append_iff.mp heq
  · cases mid with
    | nil => exact (List.cons.inj hmid).1
    | cons c mid =>
        obtain ⟨rfl, rfl⟩ := List.cons.inj hmid
        have hlt := hafter y (by simp)
        exact absurd hscore hlt.ne'
  · cases mid with
    | nil => exact (List.cons.inj hmid).1.symm
    | cons c mid =>
        obtain ⟨rfl, rfl⟩ := List.cons.inj hmid
        have hlt := hafter' x (by simp)
        exact absurd hscore hlt.ne

end LastMax

theorem lastMax_scan (score : α → κ) (b : α) (l : List α) :
    ∃ x, scan score (some b) l = some x ∧ LastMax score (b :: l) x := by
  induction l generalizing b with
  | nil => exact ⟨b, rfl, [], [], rfl, nofun, nofun⟩
  | cons y rest ih =>
      rw [scan]
      split
      · rename_i hle
        obtain ⟨x, hscan, hx⟩ := ih y
        exact ⟨x, hscan, hx.cons (hle.trans (hx.le List.mem_cons_self))⟩
      · rename_i hle
        obtain ⟨x, hscan, hx⟩ := ih b
        exact ⟨x, hscan, hx.skip (not_le.mp hle)⟩

/-- The scan of a list ends with the last of its greatest elements. -/
theorem scan_eq_some_iff : scan score none l = some x ↔ LastMax score l x := by
  cases l with
  | nil =>
      constructor
      · nofun
      · intro h
        cases h.mem
  | cons b rest =>
      obtain ⟨y, hscan, hy⟩ := lastMax_scan score b rest
      rw [scan, hscan, Option.some.injEq]
      constructor
      · rintro rfl
        exact hy
      · exact fun hx => hy.unique hx

theorem scan_eq_none_iff : scan score none l = none ↔ l = [] := by
  cases l with
  | nil => simp [scan]
  | cons b rest =>
      obtain ⟨y, hscan, -⟩ := lastMax_scan score b rest
      simp [scan, hscan]

end NetworkStack.Selection
