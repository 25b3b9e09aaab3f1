import Mathlib.Logic.Function.Basic
import NetworkStack.Lib.Transition
import NetworkStack.Listen.Demux

/-!
# The table of mysocket descriptors

`global_ctx` holds pointers to contexts, and a context holds its own descriptor. A new context has
descriptor 0 until it gets a place in the table, and one for which there is no place is freed
with it. The table is safe because `_mysock_free_context` compares pointers first.

`Demux` has the same functions for a table that holds the contexts themselves.

## Implementation notes

The address of a new context is an argument. It is not in use, but it may have been before.
-/

namespace NetworkStack.Listen.DescriptorTable

open Transition

/-- The address of a context. -/
abbrev Addr := Nat

inductive Fault where
  | assertion
  /-- An access outside `global_ctx`. -/
  | outside
  /-- An access to memory that is no context. -/
  | wild
  deriving DecidableEq, Repr

/-- The field of `mysock_context_t` that the table depends on. -/
structure Context where
  mySd : Nat
  deriving DecidableEq, Repr

/-- The contexts in memory, and `global_ctx`. -/
structure State where
  heap : Addr → Option Context
  globalCtx : List (Option Addr)

/-- `_mysock_allocate_context`; the network layer is initialised without an error. -/
def mysockAllocateContext (s : State) (a : Addr) : State :=
  { s with heap := Function.update s.heap a (some ⟨0⟩) }

/-- `_mysock_free_context`. -/
def mysockFreeContext (s : State) (a : Addr) : Except Fault State :=
  match s.heap a with
  | none => .error .wild
  | some ctx =>
      match s.globalCtx[ctx.mySd]? with
      | none => .error .outside
      | some entry => .ok {
          heap := Function.update s.heap a none
          globalCtx := if entry = some a then s.globalCtx.set ctx.mySd none else s.globalCtx }

/-- `_mysock_new_mysocket`: the descriptor that it returns. -/
def mysockNewMysocket (s : State) (a : Addr) : Except Fault (Int × State) :=
  let s := mysockAllocateContext s a
  match s.globalCtx.findIdx? (·.isNone) with
  | some k => .ok (k, {
      heap := Function.update s.heap a (some ⟨k⟩)
      globalCtx := s.globalCtx.set k (some a) })
  | none => do
      let s ← mysockFreeContext s a
      return (-1, s)

/-- `_mysock_get_context`, with the checks of `verify_mysocket_descriptor`. -/
def mysockGetContext (s : State) (sd : Int) : Except Fault Addr :=
  if 0 ≤ sd ∧ sd < maxNumConnections then
    match s.globalCtx[sd.toNat]? with
    | none => .error .outside
    | some none => .error .assertion
    | some (some a) =>
        match s.heap a with
        | none => .error .wild
        | some ctx => if ctx.mySd = sd then .ok a else .error .assertion
  else .error .assertion

/-! ## Calls -/

/-- A call, with the address of the new context or of the one that is freed. -/
inductive Call where
  | newMysocket (a : Addr)
  | freeContext (a : Addr)
  deriving DecidableEq, Repr

/-- The calls so far and what they returned, the last one first. -/
abbrev Log := List (Call × Int)

structure Table where
  state : State
  log : Log

def Table.init : Table where
  state := { heap := fun _ => none, globalCtx := List.replicate maxNumConnections none }
  log := []

/-- Memory that is allocated is not in use; what is freed is a context. -/
def Table.Enabled (t : Table) : Call → Prop
  | .newMysocket a => t.state.heap a = none
  | .freeContext a => (t.state.heap a).isSome

instance (t : Table) (c : Call) : Decidable (t.Enabled c) := by
  cases c <;> exact inferInstanceAs (Decidable (_ = _))

def Table.call (t : Table) : Call → Except Fault Table
  | .newMysocket a => do
      let (sd, state) ← mysockNewMysocket t.state a
      return ⟨state, (.newMysocket a, sd) :: t.log⟩
  | .freeContext a => do
      let state ← mysockFreeContext t.state a
      return ⟨state, (.freeContext a, 0) :: t.log⟩

def Table.step (t : Table) (c : Call) : Option Table :=
  if t.Enabled c then (t.call c).toOption else none

/-- The context that the latest allocation of a descriptor made, if it was not freed since. -/
def owner : Log → Int → Option Addr
  | [], _ => none
  | (.newMysocket a, result) :: log, sd => if result = sd then some a else owner log sd
  | (.freeContext a, _) :: log, sd => if owner log sd = some a then none else owner log sd

/-- What the table is for. -/
structure Table.Sound (t : Table) : Prop where
  own : ∀ (k : Nat) (a : Addr), t.state.globalCtx[k]? = some (some a) →
    ∃ ctx, t.state.heap a = some ctx ∧ ctx.mySd = k
  distinct : ∀ a b ctx ctx', t.state.heap a = some ctx → t.state.heap b = some ctx' → a ≠ b →
    ctx.mySd ≠ ctx'.mySd
  latest : ∀ sd a, 0 ≤ sd → owner t.log sd = some a → mysockGetContext t.state sd = .ok a
  gone : ∀ sd, owner t.log sd = none → mysockGetContext t.state sd = .error .assertion
  full : ∀ a, t.state.heap a = none → (∀ k : Nat, t.state.globalCtx[k]? ≠ some none) →
    mysockNewMysocket t.state a = .ok (-1, t.state)
  room : ∀ (a : Addr) (k : Nat), t.state.heap a = none → t.state.globalCtx[k]? = some none →
    ∃ (sd : Nat) (s : State), mysockNewMysocket t.state a = .ok ((sd : Int), s)
  runs : ∀ c, t.Enabled c → ∃ t', t.call c = .ok t'

/-- A context is in the table at its descriptor and nowhere else, and the table is what the log
says. -/
structure Table.Inv (t : Table) : Prop where
  size : t.state.globalCtx.length = maxNumConnections
  own : ∀ (k : Nat) (a : Addr), t.state.globalCtx[k]? = some (some a) → t.state.heap a = some ⟨k⟩
  held : ∀ a ctx, t.state.heap a = some ctx → t.state.globalCtx[ctx.mySd]? = some (some a)
  owned : ∀ sd : Int, 0 ≤ sd → owner t.log sd = (t.state.globalCtx[sd.toNat]?).join

/-! ## The functions -/

variable {s : State} {t : Table} {a : Addr} {k : Nat}

theorem findIdx?_isNone_eq_none {l : List (Option Addr)} :
    l.findIdx? (·.isNone) = none ↔ ∀ k : Nat, l[k]? ≠ some none := by
  rw [List.findIdx?_eq_none_iff]
  constructor
  · intro h k hk
    exact absurd (h none (List.mem_of_getElem? hk)) (by simp)
  · intro h x hx
    obtain ⟨k, hk⟩ := List.mem_iff_getElem?.mp hx
    cases x with
    | none => exact absurd hk (h k)
    | some a => rfl

theorem getElem?_findIdx?_isNone {l : List (Option Addr)} (h : l.findIdx? (·.isNone) = some k) :
    l[k]? = some none := by
  obtain ⟨hk, hnone, -⟩ := List.findIdx?_eq_some_iff_getElem.mp h
  rw [List.getElem?_eq_getElem hk, Option.isNone_iff_eq_none.mp hnone]

theorem mysockNewMysocket_of_some (h : s.globalCtx.findIdx? (·.isNone) = some k) :
    mysockNewMysocket s a = .ok ((k : Int), {
      heap := Function.update s.heap a (some ⟨k⟩)
      globalCtx := s.globalCtx.set k (some a) }) := by
  rw [mysockNewMysocket]
  simp only [mysockAllocateContext, h, Function.update_idem]

/-- A context that finds no place is freed. It still has descriptor 0, but the entry there is
that of another context. -/
theorem mysockNewMysocket_of_none (h : s.globalCtx.findIdx? (·.isNone) = none)
    (hfresh : s.heap a = none) (hsize : 0 < s.globalCtx.length)
    (hother : s.globalCtx[0]? ≠ some (some a)) :
    mysockNewMysocket s a = .ok (-1, s) := by
  have hget : s.globalCtx[0]? = some s.globalCtx[0] := List.getElem?_eq_getElem hsize
  have hne : s.globalCtx[0] ≠ some a := by
    rw [hget] at hother
    exact fun heq => hother (congrArg some heq)
  have hheap : Function.update s.heap a none = s.heap := by
    rw [← hfresh, Function.update_eq_self]
  rw [mysockNewMysocket]
  simp only [mysockAllocateContext, h, mysockFreeContext, Function.update_self, hget, if_neg hne,
    Function.update_idem, hheap]
  rfl

theorem mysockFreeContext_eq {ctx : Context} (hheap : s.heap a = some ctx)
    (htable : s.globalCtx[ctx.mySd]? = some (some a)) :
    mysockFreeContext s a = .ok {
      heap := Function.update s.heap a none
      globalCtx := s.globalCtx.set ctx.mySd none } := by
  rw [mysockFreeContext]
  simp only [hheap, htable, if_true]

/-! ## Calls keep the table -/

theorem Table.inv_init : Table.init.Inv where
  size := List.length_replicate
  own := fun k a h => by
    have hmem := List.mem_of_getElem? h
    rw [Table.init, List.mem_replicate] at hmem
    cases hmem.2
  held := fun _ _ h => by cases h
  owned := fun sd _ => by
    rw [Table.init, List.getElem?_replicate]
    split <;> rfl

/-- A table without a free place refuses a new context and stays as it is. -/
theorem Table.Inv.full (h : t.Inv) (hfresh : t.state.heap a = none)
    (hfull : ∀ k : Nat, t.state.globalCtx[k]? ≠ some none) :
    mysockNewMysocket t.state a = .ok (-1, t.state) := by
  have hsize : 0 < t.state.globalCtx.length := by
    rw [h.size]
    decide
  have hother : t.state.globalCtx[0]? ≠ some (some a) := by
    intro hzero
    rw [h.own 0 a hzero] at hfresh
    cases hfresh
  exact mysockNewMysocket_of_none (findIdx?_isNone_eq_none.mpr hfull) hfresh hsize hother

/-- What a call of `_mysock_new_mysocket` does. -/
theorem Table.Inv.call_newMysocket (h : t.Inv) (hfresh : t.state.heap a = none) :
    (∃ k : Nat, t.state.globalCtx[k]? = some none ∧ t.call (.newMysocket a) = .ok {
      state := {
        heap := Function.update t.state.heap a (some ⟨k⟩)
        globalCtx := t.state.globalCtx.set k (some a) }
      log := (.newMysocket a, (k : Int)) :: t.log }) ∨
    (∀ k : Nat, t.state.globalCtx[k]? ≠ some none) ∧ t.call (.newMysocket a) = .ok {
      state := t.state
      log := (.newMysocket a, -1) :: t.log } := by
  cases hfind : t.state.globalCtx.findIdx? (·.isNone) with
  | some k =>
      left
      refine ⟨k, getElem?_findIdx?_isNone hfind, ?_⟩
      rw [Table.call, mysockNewMysocket_of_some hfind]
      rfl
  | none =>
      right
      have hfull := findIdx?_isNone_eq_none.mp hfind
      refine ⟨hfull, ?_⟩
      rw [Table.call, h.full hfresh hfull]
      rfl

/-- What a call of `_mysock_free_context` does. -/
theorem Table.Inv.call_freeContext (h : t.Inv) {ctx : Context} (hheap : t.state.heap a = some ctx) :
    t.call (.freeContext a) = .ok {
      state := {
        heap := Function.update t.state.heap a none
        globalCtx := t.state.globalCtx.set ctx.mySd none }
      log := (.freeContext a, 0) :: t.log } := by
  rw [Table.call, mysockFreeContext_eq hheap (h.held a ctx hheap)]
  rfl

/-- A new context takes a free place. No entry points to its address yet, since no context is
there. -/
theorem Table.Inv.take (h : t.Inv) (hfresh : t.state.heap a = none)
    (hfree : t.state.globalCtx[k]? = some none) :
    Table.Inv {
      state := {
        heap := Function.update t.state.heap a (some ⟨k⟩)
        globalCtx := t.state.globalCtx.set k (some a) }
      log := (.newMysocket a, (k : Int)) :: t.log } := by
  have hk : k < t.state.globalCtx.length := (List.getElem?_eq_some_iff.mp hfree).1
  refine ⟨by rw [List.length_set, h.size], fun i b hi => ?_, fun b ctx hb => ?_, fun sd hsd => ?_⟩
    <;> dsimp only at *
  · by_cases hik : k = i
    · rw [hik, List.getElem?_set_self (hik ▸ hk)] at hi
      have hab : a = b := Option.some.inj (Option.some.inj hi)
      rw [← hab, ← hik, Function.update_self]
    · rw [List.getElem?_set_ne hik] at hi
      have hold := h.own i b hi
      have hba : b ≠ a := fun heq => by simp [heq, hfresh] at hold
      rw [Function.update_of_ne hba, hold]
  · by_cases hba : b = a
    · rw [hba, Function.update_self] at hb
      rw [← Option.some.inj hb, hba]
      exact List.getElem?_set_self hk
    · rw [Function.update_of_ne hba] at hb
      have hold := h.held b ctx hb
      have hne : k ≠ ctx.mySd := fun heq => by simp [← heq, hfree] at hold
      rw [List.getElem?_set_ne hne, hold]
  · rw [owner, h.owned sd hsd]
    by_cases heq : (k : Int) = sd
    · rw [if_pos heq, ← heq, Int.toNat_natCast, List.getElem?_set_self hk]
      rfl
    · have hne : k ≠ sd.toNat := by omega
      rw [if_neg heq, List.getElem?_set_ne hne]

/-- A call that finds no place leaves no trace: it returns no descriptor. -/
theorem Table.Inv.refuse (h : t.Inv) :
    Table.Inv { state := t.state, log := (.newMysocket a, -1) :: t.log } where
  size := h.size
  own := h.own
  held := h.held
  owned := fun sd hsd => by
    have hne : ¬ (-1 : Int) = sd := by omega
    rw [owner, if_neg hne, h.owned sd hsd]

/-- A context that is freed leaves the one place that points to it. -/
theorem Table.Inv.release (h : t.Inv) {ctx : Context} (hheap : t.state.heap a = some ctx) :
    Table.Inv {
      state := {
        heap := Function.update t.state.heap a none
        globalCtx := t.state.globalCtx.set ctx.mySd none }
      log := (.freeContext a, 0) :: t.log } := by
  have hentry := h.held a ctx hheap
  have hk : ctx.mySd < t.state.globalCtx.length := (List.getElem?_eq_some_iff.mp hentry).1
  have hplace : ∀ i : Nat, t.state.globalCtx[i]? = some (some a) → ctx.mySd = i := by
    intro i hi
    rw [h.own i a hi] at hheap
    rw [← Option.some.inj hheap]
  refine ⟨by rw [List.length_set, h.size], fun i b hi => ?_, fun b c hb => ?_, fun sd hsd => ?_⟩
    <;> dsimp only at *
  · by_cases hik : ctx.mySd = i
    · rw [hik, List.getElem?_set_self (hik ▸ hk)] at hi
      cases hi
    · rw [List.getElem?_set_ne hik] at hi
      have hba : b ≠ a := fun heq => hik (hplace i (heq ▸ hi))
      rw [Function.update_of_ne hba, h.own i b hi]
  · by_cases hba : b = a
    · rw [hba, Function.update_self] at hb
      cases hb
    · rw [Function.update_of_ne hba] at hb
      have hold := h.held b c hb
      have hne : ctx.mySd ≠ c.mySd := by
        intro heq
        rw [← heq, hentry] at hold
        exact hba (Option.some.inj (Option.some.inj hold)).symm
      rw [List.getElem?_set_ne hne, hold]
  · rw [owner, h.owned sd hsd]
    by_cases heq : ctx.mySd = sd.toNat
    · rw [← heq, List.getElem?_set_self hk, hentry]
      exact if_pos rfl
    · have hne : (t.state.globalCtx[sd.toNat]?).join ≠ some a := fun hjoin =>
        heq (hplace sd.toNat (Option.join_eq_some_iff.mp hjoin))
      rw [List.getElem?_set_ne heq, if_neg hne]

/-- Every call runs through and keeps the table. -/
theorem Table.Inv.call (h : t.Inv) {c : Call} (henabled : t.Enabled c) :
    ∃ t', t.call c = .ok t' ∧ t'.Inv := by
  cases c with
  | newMysocket a =>
      rcases h.call_newMysocket henabled with ⟨k, hfree, hcall⟩ | ⟨-, hcall⟩
      · exact ⟨_, hcall, h.take henabled hfree⟩
      · exact ⟨_, hcall, h.refuse⟩
  | freeContext a =>
      obtain ⟨ctx, hctx⟩ := Option.isSome_iff_exists.mp henabled
      exact ⟨_, h.call_freeContext hctx, h.release hctx⟩

theorem Table.Inv.step {t' : Table} {c : Call} (h : t.Inv) (hstep : t.step c = some t') :
    t'.Inv := by
  by_cases henabled : t.Enabled c
  · obtain ⟨u, hcall, hu⟩ := h.call henabled
    rw [Table.step, if_pos henabled, hcall] at hstep
    rwa [← Option.some.inj hstep]
  · rw [Table.step, if_neg henabled] at hstep
    cases hstep

/-! ## What the invariant gives -/

theorem Table.Inv.lt_of_get (h : t.Inv) {entry : Option Addr}
    (hk : t.state.globalCtx[k]? = some entry) : k < maxNumConnections := by
  rw [← h.size]
  exact (List.getElem?_eq_some_iff.mp hk).1

theorem Table.Inv.distinct (h : t.Inv) {a b : Addr} {ctx ctx' : Context}
    (ha : t.state.heap a = some ctx) (hb : t.state.heap b = some ctx') (hab : a ≠ b) :
    ctx.mySd ≠ ctx'.mySd := by
  intro heq
  have hentry := h.held a ctx ha
  rw [heq, h.held b ctx' hb] at hentry
  exact hab (Option.some.inj (Option.some.inj hentry)).symm

theorem Table.Inv.latest (h : t.Inv) {sd : Int} (hsd : 0 ≤ sd) (howner : owner t.log sd = some a) :
    mysockGetContext t.state sd = .ok a := by
  rw [h.owned sd hsd, Option.join_eq_some_iff] at howner
  have hlt := h.lt_of_get howner
  have hrange : 0 ≤ sd ∧ sd < maxNumConnections := ⟨hsd, by omega⟩
  rw [mysockGetContext, if_pos hrange]
  simp only [howner, h.own sd.toNat a howner]
  exact if_pos (Int.toNat_of_nonneg hsd)

/-- A descriptor without an owner fails the checks, in the table or not. -/
theorem Table.Inv.gone (h : t.Inv) {sd : Int} (howner : owner t.log sd = none) :
    mysockGetContext t.state sd = .error .assertion := by
  by_cases hrange : 0 ≤ sd ∧ sd < maxNumConnections
  · have hsize : sd.toNat < t.state.globalCtx.length := by
      rw [h.size]
      omega
    have hget : t.state.globalCtx[sd.toNat]? = some none := by
      rw [h.owned sd hrange.1, List.getElem?_eq_getElem hsize, Option.join_some] at howner
      rw [List.getElem?_eq_getElem hsize, howner]
    rw [mysockGetContext, if_pos hrange]
    simp only [hget]
  · rw [mysockGetContext, if_neg hrange]

theorem mysockNewMysocket_of_room (hfree : s.globalCtx[k]? = some none) :
    ∃ (sd : Nat) (s' : State), mysockNewMysocket s a = .ok ((sd : Int), s') := by
  cases hfind : s.globalCtx.findIdx? (·.isNone) with
  | some sd => exact ⟨sd, _, mysockNewMysocket_of_some hfind⟩
  | none => exact absurd hfree (findIdx?_isNone_eq_none.mp hfind k)

theorem Table.Inv.sound (h : t.Inv) : t.Sound where
  own := fun k a hk => ⟨⟨k⟩, h.own k a hk, rfl⟩
  distinct := fun _ _ _ _ ha hb hab => h.distinct ha hb hab
  latest := fun _ _ hsd howner => h.latest hsd howner
  gone := fun _ howner => h.gone howner
  full := fun _ hfresh hfull => h.full hfresh hfull
  room := fun _ _ _ hfree => mysockNewMysocket_of_room hfree
  runs := fun _ henabled =>
    have ⟨t', hcall, _⟩ := h.call henabled
    ⟨t', hcall⟩

/-- The table is sound after every sequence of calls. -/
theorem table_sound (calls : List Call) (t : Table)
    (hrun : exec Table.step Table.init calls = some t) : t.Sound := by
  have hinv : t.Inv :=
    exec_keeps (fun _ _ _ h hstep => h.step hstep) Table.inv_init hrun
  exact hinv.sound

/-- The table is filled, one more context finds no place, and descriptor 5 is freed and given to a
context at the address of that one. -/
def fillAndReuse : List Call :=
  (List.range 64).map .newMysocket ++ [.newMysocket 64, .freeContext 5, .newMysocket 64]

theorem table_sound_full :
    ∃ t, exec Table.step Table.init fillAndReuse = some t ∧
      t.log.take 3 = [(.newMysocket 64, 5), (.freeContext 5, 0), (.newMysocket 64, -1)] ∧
      owner t.log 5 = some 64 ∧ t.Sound := by
  have hrun : (exec Table.step Table.init fillAndReuse).map
      (fun t => (t.log.take 3, owner t.log 5)) =
      some ([(.newMysocket 64, 5), (.freeContext 5, 0), (.newMysocket 64, -1)], some 64) := by
    decide +kernel
  obtain ⟨t, ht, hvals⟩ := Option.map_eq_some_iff.mp hrun
  obtain ⟨hlog, howner⟩ := Prod.mk.inj hvals
  exact ⟨t, ht, hlog, howner, table_sound _ _ ht⟩

/-- The table of contexts takes the same place for the same occupancy. -/
theorem mysockNewMysocket_agrees {d : Descriptors}
    (hsame : d.globalCtx.map (·.isNone) = s.globalCtx.map (·.isNone)) {r : Nat × Descriptors}
    (hnew : Listen.mysockNewMysocket d = some r) :
    ∃ s', mysockNewMysocket s a = .ok ((r.1 : Int), s') := by
  have hfind : d.globalCtx.findIdx? (·.isNone) = s.globalCtx.findIdx? (·.isNone) := by
    have hid := congrArg (List.findIdx? id) hsame
    rwa [List.findIdx?_map, List.findIdx?_map] at hid
  obtain ⟨k, hk, rfl⟩ := Option.map_eq_some_iff.mp hnew
  exact ⟨_, mysockNewMysocket_of_some (hfind ▸ hk)⟩

end NetworkStack.Listen.DescriptorTable
