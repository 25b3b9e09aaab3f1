import NetworkStack.Router.Echo
import NetworkStack.Router.Forwarding

/-!
# Packets for the router

Whether a packet is for the router is decided in the loop over the routing table, so an
interface without a route is not recognised, and a packet of another protocol than ICMP goes on
to the forwarding code after its answer.
-/

namespace NetworkStack.Router

open Bytes Buffer SrArpcache

variable {sr : SrInstance} {dhost shost : Mac} {ip : SrIpHdr} {payload : List Byte}
  {interface : IfName} {env : Env}

/-- The call sends an answer to the source of the packet, where the packet came in; a packet
that is not ICMP is told that its port is unreachable. -/
structure IsAnswer (frame : List Byte) (interface : IfName) (call : SendCall) : Prop where
  iface : call.iface = interface
  type : load16 call.buf 12 = some (swap16 ethertypeIp)
  dst : load32 call.buf 30 = load32 frame 26
  unreachable : load8 frame 23 ≠ some ipProtocolIcmp →
    load8 call.buf 23 = some ipProtocolIcmp ∧ load8 call.buf 34 = some 3 ∧
      load8 call.buf 35 = some 3

/-- At most one answer is sent, and the ARP cache has no part in it: whatever it holds, it stays
as it is and the answer is the same. -/
def TreatsAsLocal (sr : SrInstance) (frame : List Byte) (interface : IfName) (env : Env) : Prop :=
  ∃ calls : List SendCall, calls.length ≤ 1 ∧ (∀ call ∈ calls, IsAnswer frame interface call) ∧
    ∀ cache, Queued { sr with cache := cache } →
      srHandlepacket { sr with cache := cache } frame interface env =
        some ({ sr with cache := cache }, calls)

/-- Some route leads to an interface with the address. -/
def SomeNamed (sr : SrInstance) (destIp : Addr) : Prop := ∃ r ∈ sr.routingTable, Named sr destIp r

section Answers

variable {inter out : SrIf}

/-- An echo reply is an answer. -/
theorem isAnswer_echo (hp : ip.ipP = ipProtocolIcmp) (message : List Byte) :
    IsAnswer (ipFrame dhost shost ip payload) interface
      ⟨.echoReply, ipFrame shost inter.addr (ip.answer out.ip) message, interface⟩ where
  iface := rfl
  type := load_ipFrame_type _ _ _ _
  dst := by
    rw [load_ipFrame_dst, load_ipFrame_src]
    rfl
  unreachable := by
    rw [load_ipFrame_p, hp]
    intro hne
    exact absurd rfl hne

/-- Of the errors only the one for a port is an answer to a packet that is not ICMP. -/
theorem isAnswer_error (type code : Byte) (unused : BitVec 32) (quoted : List Byte) :
    IsAnswer (ipFrame dhost shost ip payload) interface
        ⟨.icmp, ipFrame shost inter.addr (ip.error inter.ip)
          (errorMessage type code unused quoted), interface⟩ ↔
      (ip.ipP ≠ ipProtocolIcmp → type = 3 ∧ code = 3) := by
  have htype : load8 (ipFrame shost inter.addr (ip.error inter.ip)
      (errorMessage type code unused quoted)) 34 = some type := rfl
  have hcode : load8 (ipFrame shost inter.addr (ip.error inter.ip)
      (errorMessage type code unused quoted)) 35 = some code := rfl
  constructor
  · intro h hne
    have hne' : load8 (ipFrame dhost shost ip payload) 23 ≠ some ipProtocolIcmp := by
      rw [load_ipFrame_p]
      exact fun heq => hne (Option.some.inj heq)
    obtain ⟨-, h34, h35⟩ := h.unreachable hne'
    exact ⟨Option.some.inj (htype.symm.trans h34), Option.some.inj (hcode.symm.trans h35)⟩
  · intro h
    refine ⟨rfl, load_ipFrame_type _ _ _ _, ?_, ?_⟩
    · rw [load_ipFrame_dst, load_ipFrame_src]
      rfl
    · rw [load_ipFrame_p]
      intro hne
      obtain ⟨rfl, rfl⟩ := h fun heq => hne (congrArg some heq)
      refine ⟨?_, rfl, rfl⟩
      rw [load_ipFrame_p]
      rfl

end Answers

/-- An ICMP packet for an interface that a route names is answered; a packet of another
protocol is sent on as well. -/
theorem treatsAsLocal_named (hv : srVerifyRoutingTable sr = 0)
    (hin : (srGetInterface sr interface).isSome) (hnamed : SomeNamed sr (swap32 ip.ipDst)) :
    TreatsAsLocal sr (ipFrame dhost shost ip payload) interface env ↔
      ip.ipP = ipProtocolIcmp ∧ 4 ≤ payload.length := by
  have hknown : ∀ r ∈ sr.routingTable, (srGetInterface sr r.interface).isSome :=
    fun r hr => interface_of_verified hv hr
  constructor
  · rintro ⟨calls, hone, -, hcalls⟩
    obtain ⟨r, -, -, hloop⟩ := routeLoop_named hknown hnamed 0 none
    have hinit := hcalls srArpcacheInit (queued_srInit _ _)
    rw [srHandlepacket_local (by rw [routeLoop_cache]; exact hloop)] at hinit
    by_cases hp : ip.ipP = ipProtocolIcmp
    · refine ⟨hp, ?_⟩
      rw [if_pos hp] at hinit
      obtain ⟨call, hecho, -⟩ := Option.map_eq_some_iff.mp hinit
      by_contra hshort
      rw [echo_short (by omega)] at hecho
      cases hecho
    · rw [if_neg hp] at hinit
      obtain ⟨answer, -, hinit⟩ := Option.bind_eq_some_iff.mp hinit
      split at hinit
      · obtain ⟨call, -, heq⟩ := Option.map_eq_some_iff.mp hinit
        obtain ⟨-, rfl⟩ := Prod.mk.inj heq
        exact absurd hone (by simp)
      · obtain ⟨⟨t, calls'⟩, hforward, heq⟩ := Option.map_eq_some_iff.mp hinit
        obtain ⟨rfl, -⟩ := Prod.mk.inj heq
        exact absurd hforward (forward_init rfl (ipFrame_ne_nil _ _ _ _))
  · rintro ⟨hp, hlen⟩
    obtain ⟨inter, hinter⟩ := Option.isSome_iff_exists.mp hin
    obtain ⟨out, -, hecho⟩ := exists_echoed hknown hnamed hinter hp dhost shost env
    obtain ⟨type, code, c₀, c₁, body, rfl⟩ := exists_icmpHdr hlen
    refine ⟨[⟨.echoReply, ipFrame shost inter.addr (ip.answer out.ip) (echoMessage code body),
      interface⟩], List.length_singleton.le, ?_, ?_⟩
    · intro call hcall
      rw [List.mem_singleton.mp hcall]
      exact isAnswer_echo hp _
    · intro c _
      exact hecho c type code c₀ c₁ body

/-- A packet for an interface that no route names is handled like any other, so that it is
answered only if its time to live is over. -/
theorem treatsAsLocal_unnamed (hv : srVerifyRoutingTable sr = 0)
    (hin : (srGetInterface sr interface).isSome) (hnot : ¬SomeNamed sr (swap32 ip.ipDst)) :
    TreatsAsLocal sr (ipFrame dhost shost ip payload) interface env ↔
      ip.ipP = ipProtocolIcmp ∧ ip.ipTtl = 1 ∧ 8 ≤ payload.length := by
  obtain ⟨inter, hinter⟩ := Option.isSome_iff_exists.mp hin
  obtain ⟨longs, -, hhandle⟩ := exists_transit (fun r hr => interface_of_verified hv hr)
    (fun r hr hnamed => hnot ⟨r, hr, hnamed⟩) hinter dhost shost payload env
  constructor
  · rintro ⟨calls, -, hanswers, hcalls⟩
    have hinit := hcalls srArpcacheInit (queued_srInit _ _)
    rw [hhandle] at hinit
    split at hinit
    · rename_i httl
      split at hinit
      · rename_i hlen
        obtain ⟨-, rfl⟩ := Prod.mk.inj (Option.some.inj hinit)
        refine ⟨?_, httl, hlen⟩
        by_contra hp
        have htype := ((isAnswer_error _ _ _ _).mp (hanswers _ List.mem_cons_self) hp).1
        exact absurd htype (by decide)
      · cases hinit
    · obtain ⟨r, -, hforward⟩ := Option.bind_eq_some_iff.mp hinit
      exact absurd hforward (forward_init rfl (ipFrame_ne_nil _ _ _ _))
  · rintro ⟨hp, httl, hlen⟩
    refine ⟨[timeExceededCall shost ip payload interface inter env], List.length_singleton.le, ?_,
      ?_⟩
    · intro call hcall
      rw [List.mem_singleton.mp hcall]
      exact (isAnswer_error _ _ _ _).mpr fun hne => absurd hp hne
    · intro c _
      rw [hhandle, if_pos httl, if_pos hlen]

/-- A packet, for one of the router's interfaces or not, is treated as local exactly if it is
ICMP and either a route names an interface with its destination or its time to live is over,
and the frame has what is read of it. -/
theorem treatsAsLocal_iff (hv : srVerifyRoutingTable sr = 0)
    (hin : (srGetInterface sr interface).isSome) (dhost shost : Mac) (env : Env) :
    TreatsAsLocal sr (ipFrame dhost shost ip payload) interface env ↔
      ip.ipP = ipProtocolIcmp ∧
        (SomeNamed sr (swap32 ip.ipDst) ∧ 4 ≤ payload.length ∨
          ¬SomeNamed sr (swap32 ip.ipDst) ∧ ip.ipTtl = 1 ∧ 8 ≤ payload.length) := by
  by_cases hnamed : SomeNamed sr (swap32 ip.ipDst)
  · rw [treatsAsLocal_named hv hin hnamed]
    simp only [hnamed, true_and, not_true_eq_false, false_and, or_false]
  · rw [treatsAsLocal_unnamed hv hin hnamed]
    simp only [hnamed, false_and, not_false_eq_true, true_and, false_or]

/-- An ICMP packet to the router is treated as local. -/
theorem treatsAsLocal_ping :
    TreatsAsLocal twoRoutes (ipFrame eth3.addr 9 pingHdr (List.replicate 8 0)) eth3.name
      ⟨0, 0, 0⟩ := by
  apply (treatsAsLocal_iff _ _ eth3.addr 9 ⟨0, 0, 0⟩).mpr
  · exact ⟨rfl, .inl ⟨⟨hostRoute, List.mem_cons_self, by decide⟩, by decide⟩⟩
  · decide
  · decide

/-- The IP header of a UDP packet from 10.0.1.100 to the router. -/
def probeHdr : SrIpHdr := { pingHdr with ipP := 17, ipSum := 0x6d64 }

/-- A UDP packet to the router is answered, and its own address is asked for to send it on. -/
theorem not_treatsAsLocal_probe :
    ¬TreatsAsLocal twoRoutes (ipFrame eth3.addr 9 probeHdr (List.replicate 8 0)) eth3.name
      ⟨10, 0, 0⟩ := by
  have hcalls : ((srHandlepacket twoRoutes (ipFrame eth3.addr 9 probeHdr (List.replicate 8 0))
      eth3.name ⟨10, 0, 0⟩).map fun r => r.2.map SendCall.origin) = some [.icmp, .arpRequest] := by
    decide +kernel
  rintro ⟨calls, hone, -, hhandle⟩
  have hcall : srHandlepacket twoRoutes _ _ _ = _ := hhandle srArpcacheInit (queued_srInit _ _)
  rw [hcall] at hcalls
  have hlen := congrArg List.length (Option.some.inj hcalls)
  rw [List.length_map] at hlen
  exact absurd (hlen ▸ hone) (by decide)

end NetworkStack.Router
