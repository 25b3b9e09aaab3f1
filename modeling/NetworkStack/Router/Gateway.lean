import NetworkStack.Router.Echo
import NetworkStack.Router.Forwarding

/-!
# The next hop of a packet

The forwarding code of `sr_handlepacket` takes the destination of the route for the next hop,
not its gateway, and it runs even if the loop has found no route.
-/

namespace NetworkStack.Router

open Bytes Buffer SrArpcache

variable {sr t : SrInstance} {dhost shost : Mac} {ip : SrIpHdr} {payload : List Byte}
  {interface : IfName} {env : Env} {r : SrRt} {calls : List SendCall}

/-- The packet is on its way to `hop`: sent to the Ethernet address that the cache has for it,
or else put in front of those that wait for `hop`, and then no other address is asked for. -/
def SentTowards (hop : Addr) (sr : SrInstance) (frame : List Byte) (iface : IfName)
    (t : SrInstance) (calls : List SendCall) : Prop :=
  match srArpcacheLookup sr.cache hop with
  | some entry => t = sr ∧ ∃ buf, calls = [⟨.forward, buf, iface⟩] ∧
      load48 buf 0 = some entry.mac ∧ buf.drop etherLen = frame.drop etherLen
  | none =>
      (∀ ip, t.cache.packetsFor ip =
        if swap32 hop = ip then queuedPacket frame iface :: sr.cache.packetsFor ip
        else sr.cache.packetsFor ip) ∧
      ∀ call ∈ calls, call.origin = .arpRequest ∧ load32 call.buf 38 = some hop

/-- Nothing is sent on or queued. -/
def OnlyAnswered (sr t : SrInstance) (calls : List SendCall) : Prop :=
  t = sr ∧ ∀ call ∈ calls, call.origin = .icmp

/-- With every content of the cache, a packet to `destIp` that is sent on goes to the gateway of
its route, and without a route it is not sent on. -/
def UsesGateway (sr : SrInstance) (frame : List Byte) (destIp : Addr) (interface : IfName)
    (env : Env) : Prop :=
  ∀ cache, Queued { sr with cache := cache } →
    ∃ t calls, srHandlepacket { sr with cache := cache } frame interface env = some (t, calls) ∧
      (OnlyAnswered { sr with cache := cache } t calls ∨
        ∃ r, BestRoute sr.routingTable destIp r ∧
          SentTowards r.gw { sr with cache := cache } frame r.interface t calls)

/-- A route leads to an interface of the router. -/
theorem not_named_of_forall_ne {dst : Addr} (h : ∀ i ∈ sr.ifList, i.ip ≠ dst) :
    ∀ r ∈ sr.routingTable, ¬Named sr (swap32 dst) r := by
  rintro r - ⟨i, hi, heq⟩
  apply h i (List.mem_of_find?_eq_some hi)
  rw [← swap32_swap32 i.ip, ← heq, swap32_swap32]

/-- The forwarding code sends the packet to the destination of the route. -/
theorem Queued.forward_sentTowards (hq : Queued sr)
    (hinter : (srGetInterface sr r.interface).isSome) (env : Env) :
    ∃ t calls, forward sr (ipFrame dhost shost ip payload) r env.now = some (t, calls) ∧
      SentTowards r.dest sr (ipFrame dhost shost ip payload) r.interface t calls := by
  have hlen := etherLen_le_ipFrame dhost shost ip payload
  have hne := ipFrame_ne_nil dhost shost ip payload
  unfold SentTowards
  cases hlookup : srArpcacheLookup sr.cache r.dest with
  | some entry =>
      obtain ⟨inter, hinter⟩ := Option.isSome_iff_exists.mp hinter
      refine ⟨_, _, forward_hit env.now hlen hinter hlookup, rfl, _, rfl, ?_, ?_⟩
      · exact load48_dhost
      · exact drop_addresses
  | none =>
      obtain ⟨⟨t, calls⟩, hforward⟩ :=
        Option.isSome_iff_exists.mp (hq.forward_isSome hlen hinter env.now)
      refine ⟨t, calls, hforward, ?_, ?_⟩
      · exact forward_waits hq.wellFormed hne hlookup hforward
      · exact fun call hcall => forward_asks hq.wellFormed hne hlookup hforward hcall

/-- A packet that waits for one address does not wait for another. -/
theorem not_sentTowards_init {frame : List Byte} {iface : IfName} {hop : Addr}
    (hcache : sr.cache = srArpcacheInit)
    (h : SentTowards r.dest sr frame iface t calls) (hne : r.dest ≠ hop) :
    ¬SentTowards hop sr frame iface t calls := by
  have hlookup (hop : Addr) : srArpcacheLookup sr.cache hop = none := by
    rw [hcache]
    exact srArpcacheLookup_init hop
  unfold SentTowards at h ⊢
  rw [hlookup] at h ⊢
  rintro ⟨hwaits, -⟩
  have hqueued := h.1 (swap32 r.dest)
  have hswap : swap32 hop ≠ swap32 r.dest := by
    intro heq
    rw [← swap32_swap32 r.dest, ← heq, swap32_swap32] at hne
    exact hne rfl
  rw [if_pos rfl, hwaits, if_neg hswap] at hqueued
  exact absurd hqueued.symm (List.cons_ne_self _ _)

/-- A packet that is not for the router goes to the gateway of its route exactly if it is
answered because its time to live is over, or it has a route whose destination is the
gateway. -/
theorem usesGateway_iff (hknown : ∀ r ∈ sr.routingTable, (srGetInterface sr r.interface).isSome)
    (hin : (srGetInterface sr interface).isSome) (hdst : ∀ i ∈ sr.ifList, i.ip ≠ ip.ipDst)
    (dhost shost : Mac) (payload : List Byte) (env : Env) :
    UsesGateway sr (ipFrame dhost shost ip payload) (swap32 ip.ipDst) interface env ↔
      ip.ipTtl = 1 ∧ 8 ≤ payload.length ∨
        ip.ipTtl ≠ 1 ∧ ∃ r, BestRoute sr.routingTable (swap32 ip.ipDst) r ∧ r.dest = r.gw := by
  obtain ⟨inter, hinter⟩ := Option.isSome_iff_exists.mp hin
  obtain ⟨longs, hbest, hhandle⟩ := exists_transit hknown (not_named_of_forall_ne hdst) hinter
    dhost shost payload env
  by_cases httl : ip.ipTtl = 1
  · simp only [UsesGateway, hhandle, httl, if_true, true_and, ne_eq, not_true_eq_false,
      false_and, or_false]
    constructor
    · intro h
      obtain ⟨t, calls, hcalls, -⟩ := h srArpcacheInit (queued_srInit _ _)
      by_contra hlen
      rw [if_neg hlen] at hcalls
      cases hcalls
    · intro hlen c _
      rw [if_pos hlen]
      refine ⟨_, _, rfl, .inl ⟨rfl, ?_⟩⟩
      intro call hcall
      rw [List.mem_singleton.mp hcall]
      rfl
  · simp only [UsesGateway, hhandle, httl, if_false, false_and, false_or, ne_eq, not_false_eq_true,
      true_and]
    constructor
    · intro h
      obtain ⟨t, calls, hcalls, hresult⟩ := h srArpcacheInit (queued_srInit _ _)
      obtain ⟨r, hr, hforward⟩ := Option.bind_eq_some_iff.mp hcalls
      have hroute := (hbest r).mp hr
      refine ⟨r, hroute, ?_⟩
      by_contra hne
      obtain ⟨t', calls', hforward', hsent⟩ :=
        (queued_srInit sr.ifList sr.routingTable).forward_sentTowards (hknown r hroute.mem) env
      obtain ⟨rfl, rfl⟩ := Prod.mk.inj (Option.some.inj (hforward'.symm.trans hforward))
      obtain ⟨rfl, -⟩ | ⟨r', hroute', hgw⟩ := hresult
      · exact forward_init rfl (ipFrame_ne_nil _ _ _ _) hforward
      · obtain rfl := Option.some.inj (hr.symm.trans ((hbest r').mpr hroute'))
        exact not_sentTowards_init rfl hsent hne hgw
    · rintro ⟨r, hroute, hgw⟩ c hq
      obtain ⟨t, calls, hforward, hsent⟩ :=
        hq.forward_sentTowards (hknown r hroute.mem) env
      rw [(hbest r).mpr hroute, Option.bind_some]
      refine ⟨t, calls, hforward, .inr ⟨r, hroute, ?_⟩⟩
      rw [← hgw]
      exact hsent

/-- The IP header of a UDP packet from 192.168.2.2 to this address. -/
def transitHdr (ttl : Byte) (dst : Addr) : SrIpHdr :=
  let hdr := { pingHdr with ipTtl := ttl, ipP := 17, ipSrc := 0x0202a8c0, ipDst := dst, ipSum := 0 }
  { hdr with ipSum := cksum hdr.toBytes }

/-- A packet to the host takes the route whose destination and gateway are the host. -/
theorem usesGateway_host :
    UsesGateway twoRoutes (ipFrame eth3.addr 9 (transitHdr 64 hostRoute.dest) (List.replicate 8 0))
      (swap32 hostRoute.dest) eth3.name ⟨10, 0, 0⟩ := by
  apply (usesGateway_iff _ _ _ eth3.addr 9 _ ⟨10, 0, 0⟩).mpr
  · refine .inr ⟨by decide, hostRoute, ?_, rfl⟩
    exact Selection.scan_eq_some_iff.mp (by decide)
  · decide
  · decide
  · decide

/-- A packet to 8.8.8.8 takes the default route, and 0.0.0.0 is asked for. -/
theorem not_usesGateway_default :
    ¬UsesGateway twoRoutes (ipFrame eth3.addr 9 (transitHdr 64 0x08080808) (List.replicate 8 0))
      (swap32 0x08080808) eth3.name ⟨10, 0, 0⟩ := by
  have hasked : ((srHandlepacket twoRoutes
      (ipFrame eth3.addr 9 (transitHdr 64 0x08080808) (List.replicate 8 0)) eth3.name ⟨10, 0, 0⟩).map
        fun r => r.2.map fun call => (call.origin, load32 call.buf 38)) =
      some [(.arpRequest, some 0)] := by
    decide +kernel
  intro h
  obtain ⟨t, calls, hcalls, hresult⟩ := h srArpcacheInit (queued_srInit _ _)
  have hcalls' : srHandlepacket twoRoutes _ _ _ = _ := hcalls
  rw [hcalls'] at hasked
  obtain ⟨call, rfl, hcall⟩ := List.map_eq_singleton_iff.mp (Option.some.inj hasked)
  obtain ⟨horigin, htip⟩ := Prod.mk.inj hcall
  obtain ⟨-, hicmp⟩ | ⟨r, hroute, hsent⟩ := hresult
  · rw [hicmp call List.mem_cons_self] at horigin
    cases horigin
  · have hgw : r.gw = defaultRoute.gw := by
      obtain rfl | hr := List.mem_cons.mp hroute.mem
      · exact absurd hroute.matches (by decide)
      · rw [List.mem_singleton.mp hr]
    unfold SentTowards at hsent
    rw [srArpcacheLookup_init] at hsent
    obtain ⟨-, hasks⟩ := hsent.2 call List.mem_cons_self
    rw [htip, hgw] at hasks
    exact absurd hasks (by decide)

end NetworkStack.Router
