import NetworkStack.Lib.Transition
import NetworkStack.Router.Entries

/-!
# Which mapping the ARP cache returns

A run inserts mappings and lets expiry passes go over the cache, at times that do not
decrease; an insertion finds a slot. The record of a run has each insertion and whether
a pass has found it outdated since.

The lookup prefers later slots and the insertion earlier ones, so a mapping can be
inserted in front of an older one of the same address. The lookup is right as long as
no insertion is contradicted by a slot behind the one that it takes.
-/

namespace NetworkStack.Router

open Transition

/-- A call of `sr_arpcache_insert` and whether it has expired. -/
structure Insert where
  ip : Addr
  mac : Mac
  added : Int
  expired : Bool
  deriving DecidableEq, Repr

/-- A cache in a run. -/
structure CacheRun where
  cache : SrArpcache
  clock : Int
  /-- The insertions so far, the most recent first. -/
  inserts : List Insert
  deriving DecidableEq, Repr

inductive CacheAction where
  | insert (mac : Mac) (ip : Addr) (now : Int)
  /-- A pass of `sr_arpcache_timeout`. -/
  | expire (curtime : Int)
  deriving DecidableEq, Repr

/-- The insertion after a pass. -/
def Insert.expire (i : Insert) (curtime : Int) : Insert :=
  { i with expired := i.expired || curtime - i.added > srArpcacheTo }

/-- The slot that the insertion fills. -/
def Insert.entry (i : Insert) : SrArpentry := newEntry i.mac i.ip i.added

namespace CacheRun

variable {s t : CacheRun} {a : CacheAction}

def step (s : CacheRun) : CacheAction → Option CacheRun
  | .insert mac ip now =>
      if s.clock ≤ now ∧ ∃ e ∈ s.cache.entries, e.valid = false then
        some {
          cache := (srArpcacheInsert s.cache mac ip now).1
          clock := now
          inserts := { ip := ip, mac := mac, added := now, expired := false } :: s.inserts }
      else none
  | .expire curtime =>
      if s.clock ≤ curtime then
        some {
          cache := { s.cache with entries := expireEntries s.cache.entries curtime }
          clock := curtime
          inserts := s.inserts.map (·.expire curtime) }
      else none

def start (clock : Int) : CacheRun where
  cache := srArpcacheInit
  clock := clock
  inserts := []

/-- The most recent insertion for the address. -/
def latest (s : CacheRun) (ip : Addr) : Option Insert := s.inserts.find? (·.ip = ip)

/-- The lookup returns the most recent mapping until it expires. -/
structure Fresh (s : CacheRun) : Prop where
  latest : ∀ ip i, s.latest ip = some i → i.expired = false →
    (srArpcacheLookup s.cache ip).map SrArpentry.mac = some i.mac
  expired : ∀ ip, (∀ i ∈ s.inserts, i.ip = ip → i.expired = true) →
    srArpcacheLookup s.cache ip = none

/-- No slot behind the first free one has another Ethernet address for the address that
is inserted. -/
def Unshadowed (s : CacheRun) : CacheAction → Prop
  | .insert mac ip _ =>
      ∀ e ∈ s.cache.entries.dropWhile (·.valid), e.Maps ip → e.mac = mac
  | .expire _ => True

instance decidableUnshadowed (s : CacheRun) : ∀ a, Decidable (s.Unshadowed a)
  | .insert mac ip _ => inferInstanceAs (Decidable
      (∀ e ∈ s.cache.entries.dropWhile (·.valid), e.Maps ip → e.mac = mac))
  | .expire _ => .isTrue trivial

/-- The slots and the record agree. -/
structure Agrees (s : CacheRun) : Prop where
  /-- A valid slot was filled by an insertion that has not expired. -/
  recorded : ∀ e ∈ s.cache.entries, e.valid = true →
    ∃ i ∈ s.inserts, i.entry = e ∧ i.expired = false
  /-- The most recent insertion for an address has its slot until it expires. -/
  held : ∀ ip i, s.latest ip = some i → i.expired = false → Holds i.entry s.cache.entries

theorem agrees_start (clock : Int) : (start clock).Agrees where
  recorded := by
    intro e he hvalid
    rw [List.eq_of_mem_replicate he] at hvalid
    cases hvalid
  held := nofun

theorem Agrees.insert {mac : Mac} {ip : Addr} {now : Int} (h : s.Agrees)
    (hfree : ∃ e ∈ s.cache.entries, e.valid = false) (hg : s.Unshadowed (.insert mac ip now)) :
    Agrees {
      cache := (srArpcacheInsert s.cache mac ip now).1
      clock := now
      inserts := { ip := ip, mac := mac, added := now, expired := false } :: s.inserts } where
  recorded := by
    intro e he hvalid
    obtain rfl | he := mem_insertEntry he
    · exact ⟨_, List.mem_cons_self, rfl, rfl⟩
    · obtain ⟨i, hi, hie⟩ := h.recorded e he hvalid
      exact ⟨i, List.mem_cons_of_mem _ hi, hie⟩
  held := by
    intro ip' i hi hexp
    change List.find? _ (_ :: _) = _ at hi
    rw [List.find?_cons] at hi
    split at hi
    · obtain rfl := Option.some.inj hi
      exact holds_insertEntry hfree hg
    · rename_i hne
      have hip : i.ip = ip' := by simpa using List.find?_some hi
      apply (h.held ip' i hi hexp).insertEntry_ne rfl
      change ip ≠ i.ip
      rw [hip]
      simpa using hne

theorem Agrees.expire (h : s.Agrees) (curtime : Int) :
    Agrees {
      cache := { s.cache with entries := expireEntries s.cache.entries curtime }
      clock := curtime
      inserts := s.inserts.map (·.expire curtime) } where
  recorded := by
    intro e he hvalid
    obtain ⟨he, hout⟩ := mem_expireEntries he hvalid
    obtain ⟨i, hi, rfl, hexp⟩ := h.recorded e he hvalid
    refine ⟨i.expire curtime, List.mem_map_of_mem hi, rfl, ?_⟩
    simp only [Insert.expire, hexp, Bool.false_or, decide_eq_false_iff_not]
    exact hout
  held := by
    intro ip i hi hexp
    -- A pass changes no address, so the same insertion is the most recent one.
    change (s.inserts.map _).find? _ = _ at hi
    rw [List.find?_map] at hi
    obtain ⟨j, hj, rfl⟩ := Option.map_eq_some_iff.mp hi
    simp only [Insert.expire, Bool.or_eq_false_iff, decide_eq_false_iff_not] at hexp
    exact (h.held ip j hj hexp.1).expireEntries rfl hexp.2

theorem Agrees.step (h : s.Agrees) (hg : s.Unshadowed a) (hstep : s.step a = some t) :
    t.Agrees := by
  cases a with
  | insert mac ip now =>
      simp only [CacheRun.step] at hstep
      split at hstep
      · rename_i hok
        obtain rfl := Option.some.inj hstep
        exact h.insert hok.2 hg
      · cases hstep
  | expire curtime =>
      simp only [CacheRun.step] at hstep
      split at hstep
      · obtain rfl := Option.some.inj hstep
        exact h.expire curtime
      · cases hstep

theorem Agrees.fresh (h : s.Agrees) : s.Fresh where
  latest := by
    intro ip i hi hexp
    have hip : i.ip = ip := by simpa using List.find?_some hi
    rw [← hip]
    exact (h.held ip i hi hexp).lookup rfl none
  expired := by
    intro ip hall
    by_contra hsome
    obtain ⟨e, he⟩ := Option.ne_none_iff_exists'.mp hsome
    obtain hnone | ⟨hmem, hvalid, hip⟩ := lookupLoop_mem he
    · cases hnone
    · obtain ⟨i, hi, rfl, hexp⟩ := h.recorded e hmem hvalid
      rw [hall i hi hip] at hexp
      cases hexp

/-- In every run without a shadowed insertion the lookup returns the most recent mapping
of an address until it expires. -/
theorem fresh_of_unshadowed {clock : Int} {acts : List CacheAction} {t : CacheRun}
    (h : exec step (start clock) acts = some t)
    (hg : Guarded step Unshadowed (start clock) acts) : t.Fresh := by
  have hagrees : t.Agrees :=
    exec_invariant (P := Agrees) (fun _ _ _ hs hg hstep => hs.step hg hstep) (agrees_start clock)
      hg h
  exact hagrees.fresh

/-- Two addresses, both announced again, one of them with a new Ethernet address. -/
def refresh : List CacheAction :=
  [.insert 1 10 0, .insert 2 20 5, .insert 3 10 6, .expire 16, .insert 2 20 17, .expire 24,
    .insert 4 10 24]

theorem fresh_refresh : ∃ t, exec step (start 0) refresh = some t ∧ t.Fresh := by
  have hsome : (exec step (start 0) refresh).isSome = true := by decide +kernel
  obtain ⟨t, ht⟩ := Option.isSome_iff_exists.mp hsome
  have hg : Guarded step Unshadowed (start 0) refresh := by decide +kernel
  exact ⟨t, ht, fresh_of_unshadowed ht hg⟩

/-- The slot of one mapping expires in front of another, whose address is then announced
with a new Ethernet address. -/
def renewal : List CacheAction :=
  [.insert 9 20 0, .insert 1 10 10, .expire 16, .insert 2 10 16]

/-- The lookup returns the older mapping. -/
theorem not_fresh_renewal : ∃ t, exec step (start 0) renewal = some t ∧ ¬t.Fresh := by
  have hrun : (exec step (start 0) renewal).map
      (fun t => (t.latest 10, (srArpcacheLookup t.cache 10).map SrArpentry.mac)) =
      some (some { ip := 10, mac := 2, added := 16, expired := false }, some 1) := by
    decide +kernel
  obtain ⟨t, ht, hvals⟩ := Option.map_eq_some_iff.mp hrun
  obtain ⟨hlatest, hlookup⟩ := Prod.mk.inj hvals
  refine ⟨t, ht, fun hfresh => ?_⟩
  have hmac := hfresh.latest 10 _ hlatest rfl
  rw [hlookup] at hmac
  exact absurd hmac (by decide)

end CacheRun

end NetworkStack.Router
