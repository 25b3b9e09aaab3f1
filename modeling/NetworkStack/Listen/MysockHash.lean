import NetworkStack.Lib.KeyedList
import NetworkStack.Lib.LinkedQueue
import NetworkStack.Lib.Computation
import Mathlib.Data.List.Pairwise

/-!
# The chained hash table

The functions that `HASH_TABLE_DECLARE_EXTENDED` declares, on the entries they link, with every
assertion they make. No two keys of a chain are equal, and each function does to the chain of its
key what the list function does.

## Implementation notes

A chain is walked with fuel. The address that `malloc` returns is an argument; it is not null.
-/

namespace NetworkStack.Listen.MysockHash

open LinkedQueue NetworkStack.Computation

/-- The arguments of `HASH_TABLE_DECLARE_EXTENDED`. -/
structure Declaration (K : Type) where
  keyequal : K → K → Bool
  hashfn : K → Nat → Nat
  size : Nat

/-- What the functions of a declaration should be. -/
structure Declaration.Lawful {K : Type} (d : Declaration K) : Prop where
  equivalence : Equivalence fun a b => d.keyequal a b = true
  hash_lt : ∀ key, d.hashfn key d.size < d.size
  hash_eq : ∀ a b, d.keyequal a b = true → d.hashfn a d.size = d.hashfn b d.size

/-- An entry without its `next`, which the cell of the heap has. -/
structure Entry (K D : Type) where
  key : K
  data : D

structure State (K D : Type) where
  mem : Heap (Entry K D)
  tbl : List (Option Addr)

inductive Fault where
  | assertion
  /-- An access outside the table. -/
  | outside
  /-- An access to memory that is no entry. -/
  | wild
  /-- The chain has not ended yet. -/
  | endless
  deriving DecidableEq, Repr

variable {K D : Type}

def cassert (b : Bool) : Except Fault Unit := if b then .ok () else .error .assertion

def deref (mem : Heap (Entry K D)) (e : Addr) : Except Fault (Cell (Entry K D)) :=
  match mem e with
  | some cell => .ok cell
  | none => .error .wild

/-- `tbl[ndx]`. -/
def head (s : State K D) (ndx : Nat) : Except Fault (Option Addr) :=
  match s.tbl[ndx]? with
  | some e => .ok e
  | none => .error .outside

/-- `free`. -/
def free (s : State K D) : Option Addr → Except Fault (State K D)
  | none => .ok s
  | some e => do
      let _ ← deref s.mem e
      return { s with mem := Function.update s.mem e none }

section Functions

variable (d : Declaration K) (fuel : Nat) (s : State K D) (key : K)

def index : Except Fault Nat := do
  cassert (d.hashfn key d.size < d.size)
  return d.hashfn key d.size

/-- The loop of `_hash_get_entry`. -/
def getEntryLoop : Nat → Option Addr → Except Fault (Option Addr)
  | _, none => .ok none
  | 0, some _ => .error .endless
  | fuel + 1, some e => do
      let cell ← deref s.mem e
      if d.keyequal cell.value.key key then return some e else getEntryLoop fuel cell.next

/-- `_hash_get_entry`. -/
def hashGetEntry : Except Fault (Option Addr) := do
  let ndx ← index d key
  let e ← getEntryLoop d s key fuel (← head s ndx)
  match e with
  | none => return none
  | some e => do
      let cell ← deref s.mem e
      return if d.keyequal cell.value.key key then some e else none

/-- `_hash_insert`. -/
def hashInsert (e : Addr) (data : D) : Except Fault (State K D) := do
  let ndx ← index d key
  let oldHead ← head s ndx
  let s : State K D := {
    mem := Function.update s.mem e (some ⟨⟨key, data⟩, oldHead⟩)
    tbl := s.tbl.set ndx (some e) }
  let found ← hashGetEntry d fuel s key
  cassert (found = (← head s ndx))
  return s

/-- `_hash_lookup`. -/
def hashLookup : Except Fault D := do
  match ← hashGetEntry d fuel s key with
  | none => .error .assertion
  | some e => do
      let cell ← deref s.mem e
      return cell.value.data

/-- `_hash_lookup_ptr`. -/
def hashLookupPtr (null : D) : Except Fault D := do
  match ← hashGetEntry d fuel s key with
  | none => return null
  | some e => do
      let cell ← deref s.mem e
      return cell.value.data

/-- `_hash_entry_exists`. -/
def hashEntryExists : Except Fault Bool := do
  let e ← hashGetEntry d fuel s key
  return e.isSome

/-- `_hash_set_entry`. The address is that of a new entry, if one is needed. -/
def hashSetEntry (new : Addr) (data : D) : Except Fault (State K D) := do
  match ← hashGetEntry d fuel s key with
  | none => hashInsert d fuel s key new data
  | some e => do
      let cell ← deref s.mem e
      return { s with
        mem := Function.update s.mem e (some { cell with value := ⟨cell.value.key, data⟩ }) }

/-- The assignment `*((e == tbl[ndx]) ? &tbl[ndx] : &prev->next) = e->next`. -/
def unlink (ndx : Nat) (prev : Option Addr) (e : Addr) (next : Option Addr) :
    Except Fault (State K D) := do
  if (← head s ndx) = some e then return { s with tbl := s.tbl.set ndx next }
  match prev with
  | none => .error .wild
  | some prev => do
      let cell ← deref s.mem prev
      return { s with mem := Function.update s.mem prev (some { cell with next := next }) }

/-- The loop of `_hash_delete`, with the entry it stops at. -/
def deleteLoop (ndx : Nat) :
    Nat → Option Addr → Option Addr → Except Fault (State K D × Option Addr)
  | _, _, none => .ok (s, none)
  | 0, _, some _ => .error .endless
  | fuel + 1, prev, some e => do
      let cell ← deref s.mem e
      if d.keyequal cell.value.key key then
        return (← unlink s ndx prev e cell.next, some e)
      else deleteLoop ndx fuel (some e) cell.next

/-- `_hash_delete`. -/
def hashDelete : Except Fault (State K D) := do
  let ndx ← index d key
  let (s, e) ← deleteLoop d s key ndx fuel none (← head s ndx)
  let s ← free s e
  let found ← hashGetEntry d fuel s key
  cassert found.isNone
  return s

end Functions

/-! ## The chains -/

/-- The table links these chains. An address is in one place only, since the key of its entry
is. -/
structure Represents (d : Declaration K) (s : State K D)
    (chains : Nat → List (Addr × Entry K D)) : Prop where
  size : s.tbl.length = d.size
  links : ∀ (i : Nat) (e : Option Addr), s.tbl[i]? = some e → Links s.mem e (chains i)
  home : ∀ i, ∀ c ∈ chains i, d.hashfn c.2.key d.size = i
  unique : ∀ i, (chains i).Pairwise fun c c' => d.keyequal c.2.key c'.2.key = false

/-- The first entry of the key in a chain. -/
def find (d : Declaration K) (key : K) (chain : List (Addr × Entry K D)) :
    Option (Addr × Entry K D) :=
  chain.find? fun c => d.keyequal c.2.key key

section Lookup

variable {d : Declaration K} {fuel : Nat} {s : State K D} {key : K} {e : Option Addr}
  {chain : List (Addr × Entry K D)} {chains : Nat → List (Addr × Entry K D)}

theorem cassert_true {b : Bool} (h : b = true) : cassert b = .ok () := if_pos h

theorem deref_eq {a : Addr} {mem : Heap (Entry K D)} {cell : Cell (Entry K D)}
    (h : mem a = some cell) : deref mem a = .ok cell := by
  rw [deref, h]

theorem head_eq {ndx : Nat} (h : s.tbl[ndx]? = some e) : head s ndx = .ok e := by
  rw [head, h]

theorem head_set {mem : Heap (Entry K D)} {ndx : Nat} (h : ndx < s.tbl.length) :
    head ⟨mem, s.tbl.set ndx e⟩ ndx = .ok e :=
  head_eq (List.getElem?_set_self h)

theorem index_eq (hlaw : d.Lawful) (key : K) : index d key = .ok (d.hashfn key d.size) := by
  rw [index, cassert_true (decide_eq_true (hlaw.hash_lt key))]
  rfl

theorem Represents.exists_head (h : Represents d s chains) (hlaw : d.Lawful) (key : K) :
    ∃ e, s.tbl[d.hashfn key d.size]? = some e ∧ Links s.mem e (chains (d.hashfn key d.size)) := by
  have hlt : d.hashfn key d.size < s.tbl.length := h.size ▸ hlaw.hash_lt key
  have hget := List.getElem?_eq_getElem hlt
  exact ⟨_, hget, h.links _ _ hget⟩

/-- The address of a cell tells its chain and its entry. -/
theorem Represents.eq_of_mem (h : Represents d s chains) {i j : Nat} (hi : i < d.size)
    (hj : j < d.size) {a : Addr} {x y : Entry K D} (hx : (a, x) ∈ chains i)
    (hy : (a, y) ∈ chains j) : i = j ∧ x = y := by
  have hlink : ∀ k, k < d.size → ∀ z, (a, z) ∈ chains k → ∃ next, s.mem a = some ⟨z, next⟩ := by
    intro k hk z hz
    have hlt : k < s.tbl.length := h.size ▸ hk
    have hget : s.tbl[k]? = some s.tbl[k] := List.getElem?_eq_getElem hlt
    exact (h.links k _ hget).mem_of hz
  obtain ⟨next, hmem⟩ := hlink i hi x hx
  obtain ⟨next', hmem'⟩ := hlink j hj y hy
  rw [hmem] at hmem'
  have hxy : x = y := (Cell.mk.inj (Option.some.inj hmem')).1
  refine ⟨?_, hxy⟩
  calc i = d.hashfn x.key d.size := (h.home i _ hx).symm
    _ = d.hashfn y.key d.size := by rw [hxy]
    _ = j := h.home j _ hy

theorem find_cons (c : Addr × Entry K D) :
    find d key (c :: chain) =
      if d.keyequal c.2.key key = true then some c else find d key chain := by
  rw [find, List.find?_cons, find]
  cases d.keyequal c.2.key key <;> rfl

theorem getEntryLoop_eq (h : Links s.mem e chain) (hfuel : chain.length ≤ fuel) :
    getEntryLoop d s key fuel e = .ok ((find d key chain).map Prod.fst) := by
  induction chain generalizing e fuel with
  | nil =>
      obtain rfl : e = none := h
      rw [getEntryLoop]
      rfl
  | cons c rest ih =>
      obtain ⟨rfl, next, hmem, hrest⟩ := h
      cases fuel with
      | zero => cases hfuel
      | succ fuel =>
          rw [getEntryLoop, deref_eq hmem, ok_bind]
          dsimp only
          by_cases hkey : d.keyequal c.2.key key = true
          · rw [if_pos hkey, find_cons, if_pos hkey]
            rfl
          · rw [if_neg hkey, find_cons, if_neg hkey]
            exact ih hrest (Nat.le_of_succ_le_succ hfuel)

/-- The entry that is found is an entry of the chain. -/
theorem mem_of_find {c : Addr × Entry K D} (h : find d key chain = some c) :
    c ∈ chain ∧ d.keyequal c.2.key key = true :=
  ⟨List.mem_of_find?_eq_some h, List.find?_some (p := fun c : Addr × Entry K D => d.keyequal c.2.key key) h⟩

theorem hashGetEntry_eq (h : Represents d s chains) (hlaw : d.Lawful)
    (hfuel : (chains (d.hashfn key d.size)).length ≤ fuel) :
    hashGetEntry d fuel s key =
      .ok ((find d key (chains (d.hashfn key d.size))).map Prod.fst) := by
  obtain ⟨e, he, hlinks⟩ := h.exists_head hlaw key
  rw [hashGetEntry, index_eq hlaw, ok_bind, head_eq he, ok_bind, getEntryLoop_eq hlinks hfuel,
    ok_bind]
  cases hfind : find d key (chains (d.hashfn key d.size)) with
  | none => rfl
  | some c =>
      obtain ⟨hmem, hkey⟩ := mem_of_find hfind
      obtain ⟨next, hcell⟩ := hlinks.mem_of (a := c.1) (x := c.2) hmem
      rw [Option.map_some]
      dsimp only
      rw [deref_eq hcell, ok_bind, if_pos hkey]
      rfl

/-- What the lookups return. -/
theorem lookups_eq (h : Represents d s chains) (hlaw : d.Lawful)
    (hfuel : (chains (d.hashfn key d.size)).length ≤ fuel) {data : Option D}
    (hdata : (find d key (chains (d.hashfn key d.size))).map (·.2.data) = data) :
    (∀ null, hashLookupPtr d fuel s key null = .ok (data.getD null)) ∧
    hashEntryExists d fuel s key = .ok data.isSome ∧
    ∀ x, data = some x → hashLookup d fuel s key = .ok x := by
  obtain ⟨e, he, hlinks⟩ := h.exists_head hlaw key
  have hget := hashGetEntry_eq h hlaw hfuel
  cases hfind : find d key (chains (d.hashfn key d.size)) with
  | none =>
      rw [hfind] at hget hdata
      obtain rfl : data = none := hdata.symm
      refine ⟨fun null => ?_, ?_, fun x hx => by cases hx⟩
      · rw [hashLookupPtr, hget]
        rfl
      · rw [hashEntryExists, hget]
        rfl
  | some c =>
      rw [hfind] at hget hdata
      obtain rfl : data = some c.2.data := hdata.symm
      obtain ⟨next, hcell⟩ := hlinks.mem_of (a := c.1) (x := c.2) (mem_of_find hfind).1
      refine ⟨fun null => ?_, ?_, fun x hx => ?_⟩
      · rw [hashLookupPtr, hget, ok_bind, Option.map_some]
        dsimp only
        rw [deref_eq hcell]
        rfl
      · rw [hashEntryExists, hget]
        rfl
      · rw [hashLookup, hget, ok_bind, Option.map_some]
        dsimp only
        rw [deref_eq hcell, ← Option.some.inj hx]
        rfl

end Lookup

/-! ## What the functions do to a chain -/

section Update

variable {d : Declaration K} {fuel ndx : Nat} {s : State K D} {key : K} {e prev next : Option Addr}
  {a : Addr} {x : Entry K D} {chain pre rest : List (Addr × Entry K D)}
  {chains : Nat → List (Addr × Entry K D)}

theorem set_of_getElem? {α : Type} {l : List α} {i : Nat} {b : α} (h : l[i]? = some b) :
    l.set i b = l := by
  obtain ⟨hi, rfl⟩ := List.getElem?_eq_some_iff.mp h
  exact List.set_getElem_self hi

theorem Represents.lt_of_mem (h : Represents d s chains) (hlaw : d.Lawful) {i : Nat}
    {c : Addr × Entry K D} (hc : c ∈ chains i) : i < d.size := by
  rw [← h.home i c hc]
  exact hlaw.hash_lt c.2.key

theorem Represents.nodup (h : Represents d s chains) (hlaw : d.Lawful) (i : Nat) :
    ((chains i).map Prod.fst).Nodup := by
  rw [List.Nodup, List.pairwise_map]
  refine (h.unique i).imp_of_mem fun {c c'} hc hc' hne heq => ?_
  have hi := h.lt_of_mem hlaw hc
  obtain ⟨-, hsame⟩ := h.eq_of_mem hi hi (a := c.1) (x := c.2) (y := c'.2) hc (heq ▸ hc')
  rw [hsame, hlaw.equivalence.refl c'.2.key] at hne
  cases hne

/-- One chain is replaced, and no other memory is written. -/
theorem Represents.replace (h : Represents d s chains) (hlaw : d.Lawful) (hndx : ndx < d.size)
    {mem : Heap (Entry K D)} (hlinks : Links mem e chain)
    (hframe : ∀ b, b ∉ (chains ndx).map Prod.fst → s.mem b ≠ none → mem b = s.mem b)
    (hhome : ∀ c ∈ chain, d.hashfn c.2.key d.size = ndx)
    (hunique : chain.Pairwise fun c c' => d.keyequal c.2.key c'.2.key = false) :
    Represents d ⟨mem, s.tbl.set ndx e⟩ (Function.update chains ndx chain) := by
  refine ⟨by rw [List.length_set, h.size], fun i e' hi => ?_, fun i => ?_, fun i => ?_⟩
  · by_cases heq : ndx = i
    · have hlt : i < s.tbl.length := by
        rw [h.size, ← heq]
        exact hndx
      rw [heq, List.getElem?_set_self hlt] at hi
      rw [← Option.some.inj hi, heq, Function.update_self]
      exact hlinks
    · rw [List.getElem?_set_ne heq] at hi
      rw [Function.update_of_ne (Ne.symm heq)]
      have hold := h.links i e' hi
      apply hold.congr
      intro b hb
      obtain ⟨c, hc, rfl⟩ := List.mem_map.mp hb
      obtain ⟨next, hcell⟩ := hold.mem_of (a := c.1) (x := c.2) hc
      apply hframe
      · intro hother
        obtain ⟨c', hc', hsame⟩ := List.mem_map.mp hother
        have hi' := h.lt_of_mem hlaw hc
        exact heq (h.eq_of_mem hndx hi' (a := c.1) (x := c'.2) (hsame ▸ hc') hc).1
      · rw [hcell]
        exact Option.some_ne_none _
  · by_cases heq : i = ndx
    · rw [heq, Function.update_self]
      exact hhome
    · rw [Function.update_of_ne heq]
      exact h.home i
  · by_cases heq : i = ndx
    · rw [heq, Function.update_self]
      exact hunique
    · rw [Function.update_of_ne heq]
      exact h.unique i

theorem find_eq_none : find d key chain = none ↔ ∀ c ∈ chain, d.keyequal c.2.key key = false := by
  rw [find, List.find?_eq_none]
  simp only [Bool.not_eq_true]

theorem split_of_find (h : find d key chain = some (a, x)) :
    ∃ pre rest, chain = pre ++ (a, x) :: rest ∧ ∀ c ∈ pre, d.keyequal c.2.key key = false := by
  obtain ⟨-, pre, rest, hchain, hpre⟩ := List.find?_eq_some_iff_append.mp h
  refine ⟨pre, rest, hchain, fun c hc => ?_⟩
  simpa using hpre c hc

theorem find_split (hpre : ∀ c ∈ pre, d.keyequal c.2.key key = false)
    (hkey : d.keyequal x.key key = true) : find d key (pre ++ (a, x) :: rest) = some (a, x) := by
  induction pre with
  | nil => rw [List.nil_append, find_cons, if_pos hkey]
  | cons c pre ih =>
      rw [List.forall_mem_cons] at hpre
      rw [List.cons_append, find_cons, hpre.1, if_neg Bool.false_ne_true, ih hpre.2]

theorem find_write (hlaw : d.Lawful) (hpre : ∀ c ∈ pre, d.keyequal c.2.key key = false)
    (hkey : d.keyequal x.key key = true) {data : D} {key' : K} :
    find d key' (pre ++ (a, ⟨x.key, data⟩) :: rest) =
      if d.keyequal key key' = true then some (a, ⟨x.key, data⟩)
      else find d key' (pre ++ (a, x) :: rest) :=
  KeyedList.find_replace (fun c : Addr × Entry K D => c.2.key) hlaw.equivalence hpre hkey rfl

theorem find_unlink (hlaw : d.Lawful)
    (hunique : (pre ++ (a, x) :: rest).Pairwise fun c c' => d.keyequal c.2.key c'.2.key = false)
    (hpre : ∀ c ∈ pre, d.keyequal c.2.key key = false) (hkey : d.keyequal x.key key = true)
    {key' : K} :
    find d key' (pre ++ rest) =
      if d.keyequal key key' = true then none else find d key' (pre ++ (a, x) :: rest) :=
  KeyedList.find_remove (fun c : Addr × Entry K D => c.2.key) hlaw.equivalence hunique hpre hkey

theorem hashInsert_spec (h : Represents d s chains) (hlaw : d.Lawful)
    (habsent : find d key (chains (d.hashfn key d.size)) = none) (hfresh : s.mem a = none)
    (hfuel : (chains (d.hashfn key d.size)).length < fuel) (data : D) :
    ∃ s', hashInsert d fuel s key a data = .ok s' ∧
      Represents d s' (Function.update chains (d.hashfn key d.size)
        ((a, ⟨key, data⟩) :: chains (d.hashfn key d.size))) := by
  obtain ⟨e, he, hlinks⟩ := h.exists_head hlaw key
  have hlt := hlaw.hash_lt key
  have hnew : Links (Function.update s.mem a (some ⟨⟨key, data⟩, e⟩)) (some a)
      ((a, ⟨key, data⟩) :: chains (d.hashfn key d.size)) :=
    ⟨rfl, e, Function.update_self .., hlinks.update (hlinks.not_mem hfresh) _⟩
  have hframe : ∀ b, b ∉ (chains (d.hashfn key d.size)).map Prod.fst → s.mem b ≠ none →
      Function.update s.mem a (some ⟨⟨key, data⟩, e⟩) b = s.mem b := by
    intro b _ hb
    have hne : b ≠ a := by
      intro heq
      rw [heq] at hb
      exact hb hfresh
    exact Function.update_of_ne hne _ _
  have hrep := h.replace hlaw hlt hnew hframe
    (List.forall_mem_cons.mpr ⟨rfl, h.home _⟩)
    (List.pairwise_cons.mpr ⟨fun c hc => ?_, h.unique _⟩)
  · refine ⟨_, ?_, hrep⟩
    have hlen : (Function.update chains (d.hashfn key d.size)
        ((a, ⟨key, data⟩) :: chains (d.hashfn key d.size)) (d.hashfn key d.size)).length ≤ fuel := by
      rw [Function.update_self]
      exact hfuel
    have hget := hashGetEntry_eq hrep hlaw hlen
    rw [Function.update_self, find_cons, if_pos (hlaw.equivalence.refl key), Option.map_some]
      at hget
    rw [hashInsert, index_eq hlaw, ok_bind, head_eq he, ok_bind]
    dsimp only
    rw [hget, ok_bind, head_set (h.size ▸ hlt), ok_bind, cassert_true (decide_eq_true rfl)]
    rfl
  · have hne := find_eq_none.mp habsent c hc
    apply Bool.eq_false_iff.mpr
    intro heq
    rw [hlaw.equivalence.symm heq] at hne
    cases hne

theorem hashSetEntry_found (h : Represents d s chains) (hlaw : d.Lawful)
    (hsplit : chains (d.hashfn key d.size) = pre ++ (a, x) :: rest)
    (hpre : ∀ c ∈ pre, d.keyequal c.2.key key = false) (hkey : d.keyequal x.key key = true)
    (hfuel : (chains (d.hashfn key d.size)).length ≤ fuel) (new : Addr) (data : D) :
    ∃ s', hashSetEntry d fuel s key new data = .ok s' ∧
      Represents d s' (Function.update chains (d.hashfn key d.size)
        (pre ++ (a, ⟨x.key, data⟩) :: rest)) := by
  obtain ⟨e, he, hlinks⟩ := h.exists_head hlaw key
  have hlt := hlaw.hash_lt key
  have hget := hashGetEntry_eq h hlaw hfuel
  have hnodup := h.nodup hlaw (d.hashfn key d.size)
  have hhome := h.home (d.hashfn key d.size)
  have hunique := h.unique (d.hashfn key d.size)
  have hframe : ∀ c b, b ∉ (chains (d.hashfn key d.size)).map Prod.fst → s.mem b ≠ none →
      Function.update s.mem a c b = s.mem b := by
    intro c b hb _
    refine Function.update_of_ne (fun heq => hb ?_) _ _
    rw [hsplit, heq]
    simp
  rw [hsplit] at hget hlinks hnodup hhome hunique
  rw [find_split hpre hkey] at hget
  obtain ⟨next, hcell, hrest⟩ := hlinks.drop
  obtain ⟨hnotpre, hnotrest⟩ := not_mem_of_nodup hnodup
  have hnew : Links (Function.update s.mem a (some ⟨⟨x.key, data⟩, next⟩)) e
      (pre ++ (a, ⟨x.key, data⟩) :: rest) :=
    hlinks.replace hnotpre hrest hnotrest
  have hrep := h.replace hlaw hlt hnew (hframe _) ?_ ?_
  · rw [set_of_getElem? he] at hrep
    refine ⟨_, ?_, hrep⟩
    rw [hashSetEntry, hget, ok_bind, Option.map_some]
    dsimp only
    rw [deref_eq hcell, ok_bind]
    rfl
  · rw [List.forall_mem_append, List.forall_mem_cons] at hhome ⊢
    exact hhome
  · rw [List.pairwise_append, List.pairwise_cons] at hunique ⊢
    refine ⟨hunique.1, hunique.2.1, fun c hc c' hc' => ?_⟩
    rcases List.mem_cons.mp hc' with rfl | hc'
    · exact hunique.2.2 c hc (a, x) List.mem_cons_self
    · exact hunique.2.2 c hc c' (List.mem_cons_of_mem _ hc')

theorem deleteLoop_of_absent (h : Links s.mem e chain) (hfuel : chain.length ≤ fuel)
    (habsent : find d key chain = none) :
    deleteLoop d s key ndx fuel prev e = .ok (s, none) := by
  induction chain generalizing e prev fuel with
  | nil =>
      obtain rfl : e = none := h
      rw [deleteLoop]
  | cons c rest ih =>
      obtain ⟨rfl, next, hmem, hrest⟩ := h
      rw [find_eq_none, List.forall_mem_cons] at habsent
      cases fuel with
      | zero => cases hfuel
      | succ fuel =>
          rw [deleteLoop, deref_eq hmem, ok_bind]
          dsimp only
          rw [habsent.1, if_neg Bool.false_ne_true]
          exact ih hrest (Nat.le_of_succ_le_succ hfuel) (find_eq_none.mpr habsent.2)

/-- The loop stops at the first entry of the key and takes it out behind the entry before it. -/
theorem deleteLoop_of_found (h : Links s.mem e (pre ++ (a, x) :: rest))
    (hfuel : (pre ++ (a, x) :: rest).length ≤ fuel)
    (hpre : ∀ c ∈ pre, d.keyequal c.2.key key = false) (hkey : d.keyequal x.key key = true)
    (hcell : s.mem a = some ⟨x, next⟩) :
    deleteLoop d s key ndx fuel prev e =
      (do return (← unlink s ndx ((pre.getLast?.map Prod.fst).or prev) a next, some a)) := by
  induction pre generalizing e prev fuel with
  | nil =>
      obtain ⟨rfl, -⟩ := h
      cases fuel with
      | zero => cases hfuel
      | succ fuel =>
          rw [deleteLoop, deref_eq hcell, ok_bind]
          dsimp only
          rw [if_pos hkey]
          rfl
  | cons c pre ih =>
      obtain ⟨rfl, next', hmem, hrest⟩ := h
      rw [List.forall_mem_cons] at hpre
      have hlast : ((c :: pre).getLast?.map Prod.fst).or prev =
          (pre.getLast?.map Prod.fst).or (some c.1) := by
        rw [List.getLast?_cons]
        cases pre.getLast? <;> rfl
      cases fuel with
      | zero => cases hfuel
      | succ fuel =>
          rw [deleteLoop, deref_eq hmem, ok_bind]
          dsimp only
          rw [hpre.1, if_neg Bool.false_ne_true, hlast]
          exact ih hrest (Nat.le_of_succ_le_succ hfuel) hpre.2

theorem unlink_head (h : s.tbl[ndx]? = some (some a)) :
    unlink s ndx prev a next = .ok { s with tbl := s.tbl.set ndx next } := by
  rw [unlink.eq_def, head_eq h, ok_bind, if_pos rfl]
  rfl

theorem unlink_behind {p : Addr} {cell : Cell (Entry K D)} (h : s.tbl[ndx]? = some e)
    (hne : e ≠ some a) (hcell : s.mem p = some cell) :
    unlink s ndx (some p) a next =
      .ok { s with mem := Function.update s.mem p (some { cell with next := next }) } := by
  rw [unlink.eq_def, head_eq h, ok_bind, if_neg hne]
  dsimp only
  rw [deref_eq hcell]
  rfl

/-- At the head of the chain and behind it, the loop leaves the other entries linked. -/
theorem deleteLoop_spec (he : s.tbl[ndx]? = some e) (hlinks : Links s.mem e (pre ++ (a, x) :: rest))
    (hnodup : ((pre ++ (a, x) :: rest).map Prod.fst).Nodup)
    (hfuel : (pre ++ (a, x) :: rest).length ≤ fuel)
    (hpre : ∀ c ∈ pre, d.keyequal c.2.key key = false) (hkey : d.keyequal x.key key = true) :
    ∃ (mem : Heap (Entry K D)) (e' : Option Addr),
      deleteLoop d s key ndx fuel none e = .ok (⟨mem, s.tbl.set ndx e'⟩, some a) ∧
      Links mem e' (pre ++ rest) ∧ mem a = s.mem a ∧
      ∀ b, b ∉ (pre ++ (a, x) :: rest).map Prod.fst → mem b = s.mem b := by
  obtain ⟨next, hcell, hrest⟩ := hlinks.drop
  have hloop : deleteLoop d s key ndx fuel none e = _ :=
    deleteLoop_of_found hlinks hfuel hpre hkey hcell
  obtain ⟨hnotpre, hnotrest⟩ := not_mem_of_nodup hnodup
  rcases List.eq_nil_or_concat' pre with rfl | ⟨pre, c, rfl⟩
  · obtain ⟨rfl, -⟩ := hlinks
    refine ⟨s.mem, next, ?_, hrest, rfl, fun _ _ => rfl⟩
    rw [hloop, unlink_head he]
    rfl
  · have hne : e ≠ some a := hlinks.ne_of_not_mem (by simp) hnotpre
    have hca : a ≠ c.1 := by
      rw [List.map_append, List.mem_append, not_or] at hnotpre
      exact fun heq => hnotpre.2 (heq ▸ List.mem_singleton_self _)
    rw [List.append_assoc, List.singleton_append] at hlinks hnodup ⊢
    obtain ⟨next', hcell', -⟩ := hlinks.drop
    obtain ⟨hcpre, hcrest⟩ := not_mem_of_nodup hnodup
    rw [List.map_cons, List.mem_cons, not_or] at hcrest
    refine ⟨Function.update s.mem c.1 (some ⟨c.2, next⟩), e, ?_, ?_, ?_, fun b hb => ?_⟩
    · rw [hloop, List.getLast?_concat, Option.map_some, Option.some_or,
        unlink_behind he hne hcell', set_of_getElem? he]
      rfl
    · exact hlinks.replace hcpre hrest hcrest.2
    · exact Function.update_of_ne hca _ _
    · refine Function.update_of_ne (fun heq => hb ?_) _ _
      rw [heq]
      simp

theorem hashDelete_absent (h : Represents d s chains) (hlaw : d.Lawful)
    (habsent : find d key (chains (d.hashfn key d.size)) = none)
    (hfuel : (chains (d.hashfn key d.size)).length ≤ fuel) :
    hashDelete d fuel s key = .ok s := by
  obtain ⟨e, he, hlinks⟩ := h.exists_head hlaw key
  have hget := hashGetEntry_eq h hlaw hfuel
  rw [habsent, Option.map_none] at hget
  rw [hashDelete, index_eq hlaw, ok_bind, head_eq he, ok_bind,
    deleteLoop_of_absent hlinks hfuel habsent, ok_bind]
  dsimp only
  rw [free, ok_bind, hget]
  rfl

theorem hashDelete_found (h : Represents d s chains) (hlaw : d.Lawful)
    (hsplit : chains (d.hashfn key d.size) = pre ++ (a, x) :: rest)
    (hpre : ∀ c ∈ pre, d.keyequal c.2.key key = false) (hkey : d.keyequal x.key key = true)
    (hfuel : (chains (d.hashfn key d.size)).length ≤ fuel) :
    ∃ s', hashDelete d fuel s key = .ok s' ∧
      Represents d s' (Function.update chains (d.hashfn key d.size) (pre ++ rest)) := by
  obtain ⟨e, he, hlinks⟩ := h.exists_head hlaw key
  have hnodup := h.nodup hlaw (d.hashfn key d.size)
  have hhome := h.home (d.hashfn key d.size)
  have hunique := h.unique (d.hashfn key d.size)
  have hsub : List.Sublist (pre ++ rest) (pre ++ (a, x) :: rest) :=
    (List.sublist_cons_self _ _).append_left pre
  rw [hsplit] at hlinks hnodup hhome hunique hfuel
  obtain ⟨hnotpre, hnotrest⟩ := not_mem_of_nodup hnodup
  obtain ⟨mem, e', hloop, hnew, hmem, hframe⟩ :=
    deleteLoop_spec he hlinks hnodup hfuel hpre hkey
  have hnot : a ∉ (pre ++ rest).map Prod.fst := by
    rw [List.map_append, List.mem_append, not_or]
    exact ⟨hnotpre, hnotrest⟩
  have hrep : Represents d ⟨Function.update mem a none, s.tbl.set (d.hashfn key d.size) e'⟩
      (Function.update chains (d.hashfn key d.size) (pre ++ rest)) := by
    apply h.replace hlaw (hlaw.hash_lt key) (hnew.update hnot none)
    · intro b hb _
      rw [hsplit] at hb
      have hne : b ≠ a := by
        rintro rfl
        exact hb (by simp)
      rw [Function.update_of_ne hne, hframe b hb]
    · exact fun c hc => hhome c (hsub.subset hc)
    · exact hunique.sublist hsub
  refine ⟨_, ?_, hrep⟩
  have habsent : find d key (pre ++ rest) = none := by
    rw [find_unlink hlaw hunique hpre hkey, if_pos (hlaw.equivalence.refl key)]
  have hlen : (Function.update chains (d.hashfn key d.size) (pre ++ rest)
      (d.hashfn key d.size)).length ≤ fuel := by
    rw [Function.update_self]
    exact Nat.le_trans hsub.length_le hfuel
  have hget := hashGetEntry_eq hrep hlaw hlen
  rw [Function.update_self, habsent, Option.map_none] at hget
  obtain ⟨next, hcell, -⟩ := hlinks.drop
  rw [hashDelete, index_eq hlaw, ok_bind, head_eq he, ok_bind, hloop, ok_bind]
  dsimp only
  rw [free, deref_eq (hmem.trans hcell), ok_bind]
  dsimp only [pure, Except.pure]
  rw [ok_bind, hget]
  rfl

end Update

end NetworkStack.Listen.MysockHash
