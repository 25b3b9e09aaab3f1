import NetworkStack.Router.ArpExchange
import NetworkStack.Router.IpBranch

/-!
# Packets that have to wait

What the forwarding code of `sr_handlepacket` does when the cache has no mapping: the packet
is put in front of those that wait for the destination of the route, and nothing but a request
for this address may be sent.
-/

namespace NetworkStack.Router

open Bytes Buffer SrArpcache KeyedList

variable {c : SrArpcache} {sr t : SrInstance} {frame : List Byte} {r : SrRt} {now : Int}
  {calls : List SendCall}

/-- The request that `sr_arpcache_queuereq` returns is the one of the address. -/
theorem find_srArpcacheQueuereq (hwf : c.WellFormed) (hp : frame ≠ []) (ip : Addr)
    (iface : IfName) :
    ∃ req, (srArpcacheQueuereq c ip frame iface).1.requests.find?
        (·.id = (srArpcacheQueuereq c ip frame iface).2) = some req ∧ req.ip = ip := by
  cases h : c.request ip with
  | some req =>
      obtain ⟨hmem, hip⟩ := key_of_find h
      have hkeeps := @keeps_pointwise req.id _ (keeps_addPacket (queuedPacket frame iface))
      refine ⟨_, ?_, (hkeeps.ip req).trans hip⟩
      rw [srArpcacheQueuereq_old hp h]
      rw [update_requests, find_map hkeeps.id, find_of_mem hwf.ids hmem, Option.map_some]
  | none =>
      rw [srArpcacheQueuereq_new hwf hp iface h]
      exact ⟨_, List.find?_cons_of_pos (by simp), rfl⟩

/-- The packet waits for the destination of the route, in front of the others. -/
theorem forward_waits (hwf : sr.cache.WellFormed) (hp : frame ≠ [])
    (hlookup : srArpcacheLookup sr.cache r.dest = none)
    (h : forward sr frame r now = some (t, calls)) (ip : Addr) :
    t.cache.packetsFor ip =
      if swap32 r.dest = ip then queuedPacket frame r.interface :: sr.cache.packetsFor ip
      else sr.cache.packetsFor ip := by
  simp only [forward, hlookup] at h
  obtain ⟨f, hf, hkeeps, rfl, -⟩ := handleArpreq_cases h
  rw [packetsFor_update hf hkeeps, packetsFor_srArpcacheQueuereq hwf hp]

/-- What is sent asks for the destination of the route. -/
theorem forward_asks (hwf : sr.cache.WellFormed) (hp : frame ≠ [])
    (hlookup : srArpcacheLookup sr.cache r.dest = none)
    (h : forward sr frame r now = some (t, calls)) {call : SendCall} (hcall : call ∈ calls) :
    call.origin = .arpRequest ∧ load32 call.buf 38 = some r.dest := by
  simp only [forward, hlookup] at h
  obtain ⟨req, p, interf, hreq, -, -, rfl⟩ := handleArpreq_request h hcall
  obtain ⟨req', hreq', hip⟩ := find_srArpcacheQueuereq hwf hp (swap32 r.dest) r.interface
  obtain rfl := Option.some.inj (hreq'.symm.trans hreq)
  rw [List.mem_singleton.mp hcall, arpRequestFrame_eq, load_tip, hip, swap32_swap32]
  exact ⟨rfl, rfl⟩

/-- An empty cache has no mapping. -/
theorem srArpcacheLookup_init (ip : Addr) : srArpcacheLookup srArpcacheInit ip = none := by
  cases hfound : srArpcacheLookup srArpcacheInit ip with
  | none => rfl
  | some entry =>
      obtain hnone | ⟨hmem, hmaps⟩ := lookupLoop_mem hfound
      · cases hnone
      · rw [List.eq_of_mem_replicate hmem] at hmaps
        cases hmaps.1

/-- A router with an empty cache does not send the packet on, it keeps it. -/
theorem forward_init (hcache : sr.cache = srArpcacheInit) (hp : frame ≠ []) :
    forward sr frame r now ≠ some (sr, calls) := by
  intro h
  have hlookup : srArpcacheLookup sr.cache r.dest = none := by
    rw [hcache]
    exact srArpcacheLookup_init r.dest
  have hwf : sr.cache.WellFormed := by
    rw [hcache]
    exact (queued_srInit [] []).wellFormed
  have hwaits := forward_waits hwf hp hlookup h (swap32 r.dest)
  rw [if_pos rfl] at hwaits
  exact absurd hwaits.symm (List.cons_ne_self _ _)

end NetworkStack.Router
