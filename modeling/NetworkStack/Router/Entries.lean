import Mathlib.Data.List.Basic
import NetworkStack.Router.Arpcache

/-!
# The mappings of the ARP cache

What the lookup, the insertion and the expiry of mappings do to the array of slots. The
lookup takes the last valid slot of an address, the insertion the first slot that is not
valid.
-/

namespace NetworkStack.Router

variable {ip : Addr} {mac : Mac} {now : Int} {e x : SrArpentry} {l : List SrArpentry}

/-- The slot holds a valid mapping of the address. -/
def SrArpentry.Maps (e : SrArpentry) (ip : Addr) : Prop := e.valid = true ∧ e.ip = ip

instance (e : SrArpentry) (ip : Addr) : Decidable (e.Maps ip) := by
  unfold SrArpentry.Maps
  infer_instance

/-- The mapping that an insertion writes. -/
def newEntry (mac : Mac) (ip : Addr) (now : Int) : SrArpentry where
  mac := mac
  ip := ip
  added := now
  valid := true

theorem maps_newEntry : (newEntry mac ip now).Maps ip := ⟨rfl, rfl⟩

/-! ## Lookup -/

theorem lookupLoop_cons (acc : Option SrArpentry) :
    lookupLoop ip (e :: l) acc = lookupLoop ip l (if e.Maps ip then some e else acc) := rfl

theorem lookupLoop_mem {acc : Option SrArpentry} (h : lookupLoop ip l acc = some e) :
    acc = some e ∨ (e ∈ l ∧ e.Maps ip) := by
  induction l generalizing acc with
  | nil => exact .inl h
  | cons a rest ih =>
      obtain hacc | ⟨hmem, hmaps⟩ := ih h
      · split at hacc
        · rename_i ha
          obtain rfl := Option.some.inj hacc
          exact .inr ⟨List.mem_cons_self, ha⟩
        · exact .inl hacc
      · exact .inr ⟨List.mem_cons_of_mem a hmem, hmaps⟩

/-- Once a mapping is found, the result has its Ethernet address if the later mappings
of the address have it. -/
theorem lookupLoop_mac (hx : x.mac = mac) (h : ∀ e ∈ l, e.Maps ip → e.mac = mac) :
    (lookupLoop ip l (some x)).map SrArpentry.mac = some mac := by
  induction l generalizing x with
  | nil => exact congrArg some hx
  | cons a rest ih =>
      have hrest : ∀ e ∈ rest, e.Maps ip → e.mac = mac :=
        fun e he => h e (List.mem_cons_of_mem a he)
      rw [lookupLoop_cons]
      split
      · rename_i ha
        exact ih (h a List.mem_cons_self ha) hrest
      · exact ih hx hrest

/-- The slot of `x` is there, and later slots do not contradict it. -/
def Holds (x : SrArpentry) : List SrArpentry → Prop
  | [] => False
  | e :: rest => (e = x ∧ ∀ e' ∈ rest, e'.Maps x.ip → e'.mac = x.mac) ∨ Holds x rest

theorem Holds.lookup (h : Holds x l) (hx : x.valid = true) (acc : Option SrArpentry) :
    (lookupLoop x.ip l acc).map SrArpentry.mac = some x.mac := by
  induction l generalizing acc with
  | nil => exact h.elim
  | cons e rest ih =>
      rw [lookupLoop_cons]
      obtain ⟨rfl, hrest⟩ | hrest := h
      · rw [if_pos ⟨hx, rfl⟩]
        exact lookupLoop_mac rfl hrest
      · exact ih hrest _

theorem holds_of_mem (hx : x ∈ l) (h : ∀ e ∈ l, e.Maps x.ip → e.mac = x.mac) : Holds x l := by
  induction l with
  | nil => cases hx
  | cons e rest ih =>
      have hrest : ∀ e ∈ rest, e.Maps x.ip → e.mac = x.mac :=
        fun e' he => h e' (List.mem_cons_of_mem e he)
      obtain rfl | hx := List.mem_cons.mp hx
      · exact .inl ⟨rfl, hrest⟩
      · exact .inr (ih hx hrest)

/-! ## Insertion -/

theorem insertEntry_cons : insertEntry (e :: l) mac ip now =
    if e.valid then e :: insertEntry l mac ip now else newEntry mac ip now :: l := by
  unfold insertEntry
  rw [List.findIdx?_cons]
  cases he : e.valid with
  | false => simp [newEntry]
  | true =>
      cases hl : l.findIdx? fun x => decide ¬x.valid = true with
      | none => simp
      | some k => simp

theorem mem_insertEntry (h : x ∈ insertEntry l mac ip now) : x = newEntry mac ip now ∨ x ∈ l := by
  induction l with
  | nil => cases h
  | cons e rest ih =>
      rw [insertEntry_cons] at h
      split at h
      · obtain rfl | h := List.mem_cons.mp h
        · exact .inr List.mem_cons_self
        · exact (ih h).imp_right (List.mem_cons_of_mem e)
      · exact (List.mem_cons.mp h).imp_right (List.mem_cons_of_mem e)

theorem newEntry_mem_insertEntry (hfree : ∃ e ∈ l, e.valid = false) :
    newEntry mac ip now ∈ insertEntry l mac ip now := by
  induction l with
  | nil =>
      obtain ⟨e, he, -⟩ := hfree
      cases he
  | cons a rest ih =>
      rw [insertEntry_cons]
      cases ha : a.valid with
      | false => exact List.mem_cons_self
      | true =>
          obtain ⟨e, he, hvalid⟩ := hfree
          obtain rfl | he := List.mem_cons.mp he
          · rw [ha] at hvalid
            cases hvalid
          · exact List.mem_cons_of_mem a (ih ⟨e, he, hvalid⟩)

/-- A mapping goes in unless every slot is taken. -/
theorem insertEntry_eq_self_iff : insertEntry l mac ip now = l ↔ ∀ e ∈ l, e.valid = true := by
  induction l with
  | nil => exact iff_of_true rfl fun e he => absurd he List.not_mem_nil
  | cons a rest ih =>
      rw [insertEntry_cons, List.forall_mem_cons]
      cases ha : a.valid with
      | true =>
          rw [if_pos rfl, List.cons_inj_right, ih]
          exact (and_iff_right rfl).symm
      | false =>
          refine iff_of_false (fun heq => ?_) fun hvalid => Bool.false_ne_true hvalid.1
          have hhead : newEntry mac ip now = a := (List.cons.inj heq).1
          rw [← hhead] at ha
          cases ha

/-- The inserted mapping is found if no later slot contradicts it. -/
theorem holds_insertEntry (hfree : ∃ e ∈ l, e.valid = false)
    (h : ∀ e ∈ l.dropWhile (·.valid), e.Maps ip → e.mac = mac) :
    Holds (newEntry mac ip now) (insertEntry l mac ip now) := by
  induction l with
  | nil =>
      obtain ⟨e, he, -⟩ := hfree
      cases he
  | cons a rest ih =>
      rw [insertEntry_cons]
      cases ha : a.valid with
      | false =>
          rw [List.dropWhile_cons_of_neg (by simp [ha])] at h
          exact .inl ⟨rfl, fun e he => h e (List.mem_cons_of_mem a he)⟩
      | true =>
          rw [List.dropWhile_cons_of_pos ha] at h
          obtain ⟨e, he, hvalid⟩ := hfree
          have hrest : e ∈ rest := by
            obtain rfl | he := List.mem_cons.mp he
            · rw [ha] at hvalid
              cases hvalid
            · exact he
          exact .inr (ih ⟨e, hrest, hvalid⟩ h)

/-- Inserting a mapping of another address. -/
theorem Holds.insertEntry_ne (h : Holds x l) (hx : x.valid = true) (hne : ip ≠ x.ip) :
    Holds x (insertEntry l mac ip now) := by
  induction l with
  | nil => exact h.elim
  | cons e rest ih =>
      have hkeep (hr : ∀ e' ∈ rest, e'.Maps x.ip → e'.mac = x.mac) :
          ∀ e' ∈ insertEntry rest mac ip now, e'.Maps x.ip → e'.mac = x.mac := by
        intro e' he hmaps
        obtain rfl | he := mem_insertEntry he
        · exact absurd hmaps.2 hne
        · exact hr e' he hmaps
      rw [insertEntry_cons]
      obtain ⟨rfl, hr⟩ | hr := h
      · rw [if_pos hx]
        exact .inl ⟨rfl, hkeep hr⟩
      · split
        · exact .inr (ih hr)
        · exact .inr hr

/-! ## Expiry -/

/-- A pass at this time takes the mapping out. -/
def SrArpentry.Outdated (e : SrArpentry) (curtime : Int) : Prop := curtime - e.added > srArpcacheTo

instance (e : SrArpentry) (curtime : Int) : Decidable (e.Outdated curtime) := by
  unfold SrArpentry.Outdated
  infer_instance

/-- What is valid after a pass had been valid and is not outdated. -/
theorem mem_expireEntries (h : x ∈ expireEntries l now) (hx : x.valid = true) :
    x ∈ l ∧ ¬x.Outdated now := by
  obtain ⟨e, he, rfl⟩ := List.mem_map.mp h
  split at hx
  · cases hx
  · rename_i hnot
    rw [if_neg hnot]
    exact ⟨he, fun hout => hnot ⟨hx, hout⟩⟩

theorem Holds.expireEntries (h : Holds x l) (hx : x.valid = true) (hout : ¬x.Outdated now) :
    Holds x (expireEntries l now) := by
  induction l with
  | nil => exact h.elim
  | cons e rest ih =>
      obtain ⟨rfl, hrest⟩ | hrest := h
      · left
        constructor
        · exact if_neg fun hboth => hout hboth.2
        · intro e' he hmaps
          exact hrest e' (mem_expireEntries he hmaps.1).1 hmaps
      · exact .inr (ih hrest)

end NetworkStack.Router
