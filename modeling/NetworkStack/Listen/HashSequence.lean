import NetworkStack.Lib.Transition
import NetworkStack.Listen.MysockHash

/-!
# Sequences of calls on the hash table

In every sequence of calls that insert, set and delete, the hash table is the finite map of the
values that were set last.

## Implementation notes

A lookup returns no new table, so the lookups are not calls of a sequence. They are made on every
table that a sequence ends with.
-/

namespace NetworkStack.Listen.MysockHash

open LinkedQueue Transition

variable {K D : Type}

/-- A call that writes, with the address of a new entry. -/
inductive Call (K D : Type) where
  | insert (e : Addr) (key : K) (data : D)
  | setEntry (e : Addr) (key : K) (data : D)
  | delete (key : K)

def Call.key : Call K D → K
  | .insert _ key _ => key
  | .setEntry _ key _ => key
  | .delete key => key

/-- The value that the call leaves for its key. -/
def Call.value : Call K D → Option D
  | .insert _ _ data => some data
  | .setEntry _ _ data => some data
  | .delete _ => none

/-- The table and the calls so far, the last one first. -/
structure Table (K D : Type) where
  state : State K D
  log : List (Call K D)

section Calls

variable (d : Declaration K) (fuel : Nat)

def Table.init : Table K D where
  state := { mem := fun _ => none, tbl := List.replicate d.size none }
  log := []

/-- A new entry is not in use, and only absent keys are inserted. -/
def Table.Enabled (t : Table K D) : Call K D → Prop
  | .insert e key _ => t.state.mem e = none ∧ hashEntryExists d fuel t.state key = .ok false
  | .setEntry e _ _ => t.state.mem e = none
  | .delete _ => True

instance (t : Table K D) (c : Call K D) : Decidable (t.Enabled d fuel c) :=
  match c with
  | .insert _ _ _ => inferInstanceAs (Decidable (_ ∧ _))
  | .setEntry _ _ _ => inferInstanceAs (Decidable (_ = none))
  | .delete _ => .isTrue trivial

def Table.call (t : Table K D) (c : Call K D) : Except Fault (Table K D) := do
  let state ← match c with
    | .insert e key data => hashInsert d fuel t.state key e data
    | .setEntry e key data => hashSetEntry d fuel t.state key e data
    | .delete key => hashDelete d fuel t.state key
  return ⟨state, c :: t.log⟩

def Table.step (t : Table K D) (c : Call K D) : Option (Table K D) :=
  if t.Enabled d fuel c then (t.call d fuel c).toOption else none

/-- The value that was set last for the key, if it was not deleted since. -/
def latest : List (Call K D) → K → Option D
  | [], _ => none
  | c :: log, key => if d.keyequal c.key key then c.value else latest log key

end Calls

/-! ## Runs -/

/-- The chains hold the latest values, and each call adds at most one entry. -/
structure Table.Inv (d : Declaration K) (t : Table K D)
    (chains : Nat → List (Addr × Entry K D)) : Prop where
  represents : Represents d t.state chains
  values : ∀ key, (find d key (chains (d.hashfn key d.size))).map (·.2.data) = latest d t.log key
  short : ∀ i, (chains i).length ≤ t.log.length

/-- What the table is for. -/
structure Table.Sound (d : Declaration K) (fuel : Nat) (null : D) (t : Table K D) : Prop where
  lookupPtr : ∀ key, hashLookupPtr d fuel t.state key null = .ok ((latest d t.log key).getD null)
  entryExists : ∀ key, hashEntryExists d fuel t.state key = .ok (latest d t.log key).isSome
  lookup : ∀ key data, latest d t.log key = some data → hashLookup d fuel t.state key = .ok data
  agrees : (∀ c ∈ t.log, c.value ≠ some null) → ∀ key,
    hashEntryExists d fuel t.state key = .ok true ↔
      hashLookupPtr d fuel t.state key null ≠ .ok null
  others : ∀ c t', t.Enabled d fuel c → t.call d fuel c = .ok t' →
    ∀ key, d.keyequal c.key key = false →
      hashLookupPtr d fuel t'.state key null = hashLookupPtr d fuel t.state key null ∧
      hashEntryExists d fuel t'.state key = hashEntryExists d fuel t.state key
  runs : ∀ c, t.Enabled d fuel c → ∃ t', t.call d fuel c = .ok t'

section Runs

variable {d : Declaration K} {fuel : Nat} {t t' : Table K D} {c : Call K D} {key : K}
  {chains : Nat → List (Addr × Entry K D)}

theorem Table.inv_init (d : Declaration K) : (Table.init d : Table K D).Inv d fun _ => [] where
  represents := {
    size := List.length_replicate
    links := fun i e he => by
      have hmem := List.mem_of_getElem? he
      rw [Table.init, List.mem_replicate] at hmem
      exact hmem.2
    home := fun _ _ hc => by cases hc
    unique := fun _ => List.Pairwise.nil }
  values := fun _ => rfl
  short := fun _ => Nat.le_refl 0

/-- The chain of a key after a call, and so the values of all the keys. -/
theorem Table.Inv.write (h : t.Inv d chains) (hlaw : d.Lawful) {s : State K D}
    {chain : List (Addr × Entry K D)}
    (hrep : Represents d s (Function.update chains (d.hashfn c.key d.size) chain))
    (hfind : ∀ key, (find d key chain).map (·.2.data) =
      if d.keyequal c.key key = true then c.value
      else (find d key (chains (d.hashfn c.key d.size))).map (·.2.data))
    (hlen : chain.length ≤ t.log.length + 1) :
    Table.Inv d ⟨s, c :: t.log⟩ (Function.update chains (d.hashfn c.key d.size) chain) where
  represents := hrep
  values := fun key => by
    rw [latest, ← h.values key]
    by_cases hhash : d.hashfn key d.size = d.hashfn c.key d.size
    · rw [hhash, Function.update_self, hfind]
    · have hne : ¬ d.keyequal c.key key = true := fun heq => hhash (hlaw.hash_eq _ _ heq).symm
      rw [Function.update_of_ne hhash, if_neg hne]
  short := fun i => by
    by_cases hi : i = d.hashfn c.key d.size
    · rw [hi, Function.update_self]
      exact hlen
    · rw [Function.update_of_ne hi]
      exact Nat.le_succ_of_le (h.short i)

theorem Table.Inv.lookups (h : t.Inv d chains) (hlaw : d.Lawful) (hfuel : t.log.length ≤ fuel)
    (key : K) :
    (∀ null, hashLookupPtr d fuel t.state key null = .ok ((latest d t.log key).getD null)) ∧
    hashEntryExists d fuel t.state key = .ok (latest d t.log key).isSome ∧
    ∀ x, latest d t.log key = some x → hashLookup d fuel t.state key = .ok x :=
  lookups_eq h.represents hlaw (Nat.le_trans (h.short _) hfuel) (h.values key)

theorem Table.Inv.insert (h : t.Inv d chains) (hlaw : d.Lawful) (hfuel : t.log.length < fuel)
    {e : Addr} {data : D} (hfresh : t.state.mem e = none)
    (habsent : find d key (chains (d.hashfn key d.size)) = none) {c : Call K D}
    (hkey : c.key = key) (hvalue : c.value = some data) :
    ∃ s chains', hashInsert d fuel t.state key e data = .ok s ∧
      Table.Inv d ⟨s, c :: t.log⟩ chains' := by
  subst hkey
  have hlen := h.short (d.hashfn c.key d.size)
  obtain ⟨s, hs, hrep⟩ := hashInsert_spec h.represents hlaw habsent hfresh
    (Nat.lt_of_le_of_lt hlen hfuel) data
  refine ⟨s, _, hs, h.write hlaw hrep (fun key => ?_) (Nat.succ_le_succ hlen)⟩
  rw [find_cons, hvalue]
  split <;> rfl

theorem Table.Inv.setEntry (h : t.Inv d chains) (hlaw : d.Lawful) (hfuel : t.log.length < fuel)
    {e : Addr} (hfresh : t.state.mem e = none) (key : K) (data : D) :
    ∃ s chains', hashSetEntry d fuel t.state key e data = .ok s ∧
      Table.Inv d ⟨s, .setEntry e key data :: t.log⟩ chains' := by
  have hlen := h.short (d.hashfn key d.size)
  have hle : (chains (d.hashfn key d.size)).length ≤ fuel :=
    Nat.le_of_lt (Nat.lt_of_le_of_lt hlen hfuel)
  cases hfind : find d key (chains (d.hashfn key d.size)) with
  | none =>
      have hget := hashGetEntry_eq h.represents hlaw hle
      rw [hashSetEntry, hget, hfind]
      exact h.insert hlaw hfuel hfresh hfind rfl rfl
  | some c =>
      obtain ⟨a, x⟩ := c
      obtain ⟨pre, rest, hsplit, hpre⟩ := split_of_find hfind
      have hkey := (mem_of_find hfind).2
      obtain ⟨s, hs, hrep⟩ :=
        hashSetEntry_found h.represents hlaw hsplit hpre hkey hle e data
      refine ⟨s, _, hs, h.write (c := .setEntry e key data) hlaw hrep (fun key' => ?_) ?_⟩
      · rw [find_write hlaw hpre hkey, Call.key, hsplit]
        split <;> rfl
      · rw [hsplit] at hlen
        exact Nat.le_succ_of_le (by simpa using hlen)

theorem Table.Inv.delete (h : t.Inv d chains) (hlaw : d.Lawful) (hfuel : t.log.length < fuel)
    (key : K) :
    ∃ s chains', hashDelete d fuel t.state key = .ok s ∧
      Table.Inv d ⟨s, .delete key :: t.log⟩ chains' := by
  have hlen := h.short (d.hashfn key d.size)
  have hle : (chains (d.hashfn key d.size)).length ≤ fuel :=
    Nat.le_of_lt (Nat.lt_of_le_of_lt hlen hfuel)
  cases hfind : find d key (chains (d.hashfn key d.size)) with
  | none =>
      have hrep : Represents d t.state (Function.update chains (d.hashfn key d.size)
          (chains (d.hashfn key d.size))) := by
        rw [Function.update_eq_self]
        exact h.represents
      refine ⟨t.state, _, hashDelete_absent h.represents hlaw hfind hle,
        h.write (c := .delete key) hlaw hrep (fun key' => ?_) (Nat.le_succ_of_le hlen)⟩
      rw [Call.key, Call.value]
      split
      · next heq =>
        have hnone : find d key' (chains (d.hashfn key d.size)) = none := by
          rw [find_eq_none] at hfind ⊢
          intro c hc
          rw [← KeyedList.eqv_congr hlaw.equivalence heq, hfind c hc]
        rw [hnone]
        rfl
      · rfl
  | some c =>
      obtain ⟨a, x⟩ := c
      obtain ⟨pre, rest, hsplit, hpre⟩ := split_of_find hfind
      have hkey := (mem_of_find hfind).2
      have hunique := h.represents.unique (d.hashfn key d.size)
      obtain ⟨s, hs, hrep⟩ := hashDelete_found h.represents hlaw hsplit hpre hkey hle
      rw [hsplit] at hunique hlen
      refine ⟨s, _, hs, h.write (c := .delete key) hlaw hrep (fun key' => ?_) ?_⟩
      · rw [find_unlink hlaw hunique hpre hkey, Call.key, hsplit]
        split <;> rfl
      · have hsub : List.Sublist (pre ++ rest) (pre ++ (a, x) :: rest) :=
          (List.sublist_cons_self _ _).append_left pre
        exact Nat.le_succ_of_le (Nat.le_trans hsub.length_le hlen)

/-- Every call runs through and keeps the table. -/
theorem Table.Inv.call (h : t.Inv d chains) (hlaw : d.Lawful) (hfuel : t.log.length < fuel)
    (henabled : t.Enabled d fuel c) :
    ∃ s chains', t.call d fuel c = .ok ⟨s, c :: t.log⟩ ∧ Table.Inv d ⟨s, c :: t.log⟩ chains' := by
  cases c with
  | insert e key data =>
      have habsent : find d key (chains (d.hashfn key d.size)) = none := by
        have hexists := (h.lookups hlaw (Nat.le_of_lt hfuel) key).2.1.symm.trans henabled.2
        rw [Except.ok.injEq, Option.isSome_eq_false_iff, Option.isNone_iff_eq_none,
          ← h.values key, Option.map_eq_none_iff] at hexists
        exact hexists
      obtain ⟨s, chains', hs, hinv⟩ :=
        h.insert hlaw hfuel henabled.1 habsent (c := .insert e key data) rfl rfl
      exact ⟨s, chains', by rw [Table.call, hs]; rfl, hinv⟩
  | setEntry e key data =>
      obtain ⟨s, chains', hs, hinv⟩ := h.setEntry hlaw hfuel henabled key data
      exact ⟨s, chains', by rw [Table.call, hs]; rfl, hinv⟩
  | delete key =>
      obtain ⟨s, chains', hs, hinv⟩ := h.delete hlaw hfuel key
      exact ⟨s, chains', by rw [Table.call, hs]; rfl, hinv⟩

theorem latest_ne_null {null : D} {log : List (Call K D)} (h : ∀ c ∈ log, c.value ≠ some null) :
    latest d log key ≠ some null := by
  induction log with
  | nil => exact fun hnone => by cases hnone
  | cons c log ih =>
      rw [List.forall_mem_cons] at h
      rw [latest]
      split
      · exact h.1
      · exact ih h.2

theorem Table.Inv.sound (h : t.Inv d chains) (hlaw : d.Lawful) (hfuel : t.log.length < fuel)
    (null : D) : t.Sound d fuel null where
  lookupPtr := fun key => (h.lookups hlaw (Nat.le_of_lt hfuel) key).1 null
  entryExists := fun key => (h.lookups hlaw (Nat.le_of_lt hfuel) key).2.1
  lookup := fun key => (h.lookups hlaw (Nat.le_of_lt hfuel) key).2.2
  agrees := fun hnull key => by
    obtain ⟨hptr, hexists, -⟩ := h.lookups hlaw (Nat.le_of_lt hfuel) key
    have hne : latest d t.log key ≠ some null := latest_ne_null hnull
    rw [hptr, hexists]
    cases hlatest : latest d t.log key with
    | none => simp
    | some data =>
        rw [hlatest] at hne
        simpa using hne
  others := fun c t' henabled hcall key hkey => by
    obtain ⟨s, chains', hs, hinv⟩ := h.call hlaw hfuel henabled
    obtain rfl : ⟨s, c :: t.log⟩ = t' := Except.ok.inj (hs.symm.trans hcall)
    obtain ⟨hptr, hexists, -⟩ := h.lookups hlaw (Nat.le_of_lt hfuel) key
    obtain ⟨hptr', hexists', -⟩ := hinv.lookups hlaw hfuel key
    rw [latest, hkey, if_neg Bool.false_ne_true] at hptr' hexists'
    exact ⟨(hptr' null).trans (hptr null).symm, hexists'.trans hexists.symm⟩
  runs := fun c henabled => by
    obtain ⟨s, -, hs, -⟩ := h.call hlaw hfuel henabled
    exact ⟨_, hs⟩

theorem Table.Inv.run (hlaw : d.Lawful) (null : D) {calls : List (Call K D)}
    (h : t.Inv d chains) (hfuel : t.log.length + calls.length < fuel)
    (hrun : exec (Table.step d fuel) t calls = some t') : t'.Sound d fuel null := by
  induction calls generalizing t chains with
  | nil =>
      obtain rfl := Option.some.inj hrun
      exact h.sound hlaw hfuel null
  | cons c calls ih =>
      obtain ⟨u, hu, hrest⟩ := exec_cons.mp hrun
      rw [List.length_cons] at hfuel
      by_cases henabled : t.Enabled d fuel c
      · obtain ⟨s, chains', hs, hinv⟩ := h.call hlaw (by omega) henabled
        rw [Table.step, if_pos henabled, hs] at hu
        obtain rfl := Option.some.inj hu
        refine ih hinv ?_ hrest
        rw [List.length_cons]
        omega
      · rw [Table.step, if_neg henabled] at hu
        cases hu

/-- After every sequence of calls the table is the finite map of the values set last. -/
theorem hash_sound (d : Declaration K) (hlaw : d.Lawful) (null : D) (calls : List (Call K D))
    (fuel : Nat) (hfuel : calls.length < fuel) (t : Table K D)
    (hrun : exec (Table.step d fuel) (Table.init d) calls = some t) : t.Sound d fuel null := by
  refine (Table.inv_init d).run hlaw null ?_ hrun
  rw [Table.init, List.length_nil, Nat.zero_add]
  exact hfuel

end Runs

/-- `HASH_TABLE_DECLARE`, for keys that are not negative. -/
def hashTableDeclare (size : Nat) : Declaration Nat where
  keyequal := fun a b => a == b
  hashfn := fun key size => key % size
  size := size

theorem hashTableDeclare_lawful {size : Nat} (h : 0 < size) : (hashTableDeclare size).Lawful where
  equivalence := by
    refine ⟨fun a => ?_, fun {a b} hab => ?_, fun {a b c} hab hbc => ?_⟩
    · exact beq_self_eq_true a
    · exact beq_iff_eq.mpr (beq_iff_eq.mp hab).symm
    · exact beq_iff_eq.mpr ((beq_iff_eq.mp hab).trans (beq_iff_eq.mp hbc))
  hash_lt := fun key => Nat.mod_lt key h
  hash_eq := fun a b hab => by rw [beq_iff_eq.mp hab]

/-- The entry in the middle of a chain is deleted, and its key is inserted again. -/
theorem hash_sound_middle :
    ∃ t, exec (Table.step (hashTableDeclare 2) 6) (Table.init (hashTableDeclare 2))
        [.insert 10 1 100, .insert 20 3 300, .setEntry 30 5 500, .delete 3, .insert 20 3 301] =
          some t ∧
      latest (hashTableDeclare 2) t.log 3 = some 301 ∧ t.Sound (hashTableDeclare 2) 6 0 := by
  have hrun : (exec (Table.step (hashTableDeclare 2) 6) (Table.init (hashTableDeclare 2))
      [.insert 10 1 100, .insert 20 3 300, .setEntry 30 5 500, .delete 3, .insert 20 3 301]).isSome =
        true := by
    decide
  exact ⟨_, (Option.some_get hrun).symm, rfl,
    hash_sound _ (hashTableDeclare_lawful (by decide)) 0 _ 6 (by decide) _
      (Option.some_get hrun).symm⟩

end NetworkStack.Listen.MysockHash
