import NetworkStack.Router.MainLoop

/-!
# The thread of the ARP cache

Once a second `sr_arpcache_timeout` takes the lock of the cache, lets mappings expire, goes over
the requests with `sr_arpcache_sweepreqs` and releases the lock. The loop over the requests saves
the next pointer and moves on only if it is not null, so at the last request it stays where it is
and the lock is never released.
-/

namespace NetworkStack.Router

open Transition

/-- `next` of the request that `id` points to. -/
def nextReq (id : Nat) : List SrArpreq → Option Nat
  | [] => none
  | req :: rest => if req.id = id then rest.head?.map SrArpreq.id else nextReq id rest

/-- Where the thread is: in `sleep`, or at the head of the loop of `sr_arpcache_sweepreqs`. -/
inductive TimeoutPc where
  | sleeping
  | sweeping (start : Option Nat)
  deriving DecidableEq, Repr

/-- The thread and the router. -/
structure TimeoutThread where
  sr : SrInstance
  pc : TimeoutPc
  /-- The thread has the lock of the cache. -/
  locked : Bool
  /-- The requests that the round has called `handle_arpreq` for. -/
  handled : List Nat
  deriving DecidableEq, Repr

namespace TimeoutThread

variable {s t : TimeoutThread} {now : Int}

/-- One step of `sr_arpcache_timeout`: up to the loop over the requests, one round of the loop,
or from the loop to the next `sleep`. -/
def step (s : TimeoutThread) (now : Int) : Option TimeoutThread :=
  match s.pc with
  | .sleeping =>
      some
        { sr := { s.sr with cache := { s.sr.cache with
            entries := expireEntries s.sr.cache.entries now } }
          pc := .sweeping (s.sr.cache.requests.head?.map SrArpreq.id)
          locked := true
          handled := [] }
  | .sweeping none => some { s with pc := .sleeping, locked := false }
  | .sweeping (some start) => do
      let next := nextReq start s.sr.cache.requests
      let (sr, _) ← handleArpreq s.sr start now
      return { s with
        sr := sr
        pc := .sweeping (some (next.getD start))
        handled := s.handled ++ [start] }

/-- The thread before a round. -/
def idle (sr : SrInstance) : TimeoutThread where
  sr := sr
  pc := .sleeping
  locked := false
  handled := []

/-- The thread after `n` steps of a round, of which each reads the clock. -/
def after (clock : Nat → Int) (sr : SrInstance) (n : Nat) : Option TimeoutThread :=
  exec step (idle sr) ((List.range n).map clock)

/-- The round ends: each request is handled once, and the lock is released. -/
def Releases (clock : Nat → Int) (sr : SrInstance) : Prop :=
  ∃ n t, after clock sr (n + 1) = some t ∧ t.pc = .sleeping ∧ t.locked = false ∧
    t.handled.Perm (sr.cache.requests.map SrArpreq.id)

/-- The thread is in the loop and has the lock. -/
structure Sweeping (s : TimeoutThread) : Prop where
  pc : ∃ start, s.pc = .sweeping (some start)
  locked : s.locked = true

/-- The loop does not end at a request. -/
theorem Sweeping.step (h : s.Sweeping) (hstep : s.step now = some t) : t.Sweeping := by
  obtain ⟨start, hpc⟩ := h.pc
  simp only [TimeoutThread.step, hpc] at hstep
  obtain ⟨⟨sr, calls⟩, -, hstep⟩ := Option.bind_eq_some_iff.mp hstep
  obtain rfl := Option.some.inj hstep
  exact ⟨⟨_, rfl⟩, h.locked⟩

/-- Where there is a request, the thread never gets out of the loop. -/
theorem sweeping_after {clock : Nat → Int} {sr : SrInstance} {n : Nat}
    (hreq : sr.cache.requests ≠ []) (h : after clock sr (n + 1) = some t) : t.Sweeping := by
  rw [after, List.range_succ_eq_map, List.map_cons] at h
  obtain ⟨s, hs, hrest⟩ := exec_cons.mp h
  have hsweeping : s.Sweeping := by
    obtain ⟨req, rest, hcons⟩ := List.exists_cons_of_ne_nil hreq
    obtain rfl := Option.some.inj hs
    refine ⟨⟨req.id, ?_⟩, rfl⟩
    simp only [idle, hcons, List.head?_cons, Option.map_some]
  exact exec_keeps (P := Sweeping) (fun _ _ _ hs hstep => hs.step hstep) hsweeping hrest

/-- The thread gets to release the lock exactly if there is no request. -/
theorem releases_iff (clock : Nat → Int) (sr : SrInstance) :
    Releases clock sr ↔ sr.cache.requests = [] := by
  constructor
  · rintro ⟨n, t, ht, hpc, -⟩
    by_contra hreq
    obtain ⟨start, hpc'⟩ := (sweeping_after hreq ht).pc
    rw [hpc] at hpc'
    cases hpc'
  · intro hnone
    have htwo : after clock sr (1 + 1) =
        some (idle { sr with cache := { sr.cache with
          entries := expireEntries sr.cache.entries (clock 0) } }) := by
      simp [after, List.range_succ, exec, step, idle, hnone]
    refine ⟨1, _, htwo, rfl, rfl, ?_⟩
    rw [hnone]
    exact .refl _

/-- A router with a packet that waits. -/
theorem not_releases_hostWaits :
    ∃ sr, exec (mainStep ⟨[], fun _ => none, true⟩) (srInit [eth3] [hostRoute]) hostWaits = some sr ∧
      ¬Releases (fun n => 20 + n) sr := by
  have hrun : ((exec (mainStep ⟨[], fun _ => none, true⟩) (srInit [eth3] [hostRoute])
      hostWaits).map fun sr => sr.cache.requests.length) = some 1 := by
    decide +kernel
  obtain ⟨sr, hsr, hlen⟩ := Option.map_eq_some_iff.mp hrun
  refine ⟨sr, hsr, ?_⟩
  rintro ⟨n, t, ht, hpc, -⟩
  have hreq : sr.cache.requests ≠ [] := by
    intro hnil
    rw [hnil] at hlen
    cases hlen
  obtain ⟨start, hpc'⟩ := (sweeping_after hreq ht).pc
  rw [hpc] at hpc'
  cases hpc'

end TimeoutThread

end NetworkStack.Router
