import NetworkStack.Router.Gateway

/-!
# The time to live of a packet in transit

A packet whose time to live is 1 is answered with an ICMP error. Every other packet is sent on
as it came, at once or when the Ethernet address of its next hop becomes known: its time to live
is not decremented.
-/

namespace NetworkStack.Router

open Bytes Buffer SrArpcache Transition

variable {session : Session} {sr t : SrInstance} {dhost shost : Mac} {ip : SrIpHdr}
  {payload : List Byte} {interface : IfName} {env : Env} {r : SrRt} {calls : List SendCall}

/-- The call sends an ICMP time exceeded to the source of the packet. -/
structure IsTimeExceeded (frame : List Byte) (interface : IfName) (call : SendCall) : Prop where
  origin : call.origin = .icmp
  iface : call.iface = interface
  type : load16 call.buf 12 = some (swap16 ethertypeIp)
  proto : load8 call.buf 23 = some ipProtocolIcmp
  icmpType : load8 call.buf 34 = some 11
  icmpCode : load8 call.buf 35 = some 0
  dst : load32 call.buf 30 = load32 frame 26

/-- The frames in which the packet leaves the router: at once, or, if it was put in front of
those that wait for `x`, with a reply for `x` at any later time. -/
inductive Leaves (session : Session) (sr : SrInstance) (frame : List Byte) (interface : IfName)
    (env : Env) : List Byte → Prop
  | atOnce {t : SrInstance} {calls : List SendCall} {call : SendCall}
      (hhandle : srHandlepacket sr frame interface env = some (t, calls))
      (hcall : call ∈ calls) (horigin : call.origin = .forward) :
      Leaves session sr frame interface env call.buf
  | later {t u v : SrInstance} {calls flushed : List SendCall} {x : Addr} {p : SrPacket}
      {acts : List MainAction} {reply : List Byte} {i : IfName} {env' : Env} {sha : Mac}
      {call : SendCall}
      (hhandle : srHandlepacket sr frame interface env = some (t, calls))
      (hqueued : t.cache.packetsFor x = p :: sr.cache.packetsFor x)
      (hlater : exec (mainStep session) t acts = some u)
      (hwaits : p ∈ u.cache.packetsFor x)
      (hreply : announced reply = some (swap32 x, sha))
      (hflush : srHandlepacket u reply i env' = some (v, flushed))
      (hcall : call ∈ flushed) (hp : flushPacket u sha p = some call) :
      Leaves session sr frame interface env call.buf

/-- Behind the Ethernet header the frame has the packet with its time to live decremented and a
checksum that verifies, and nothing else is changed. -/
def Decremented (ip : SrIpHdr) (payload buf : List Byte) : Prop :=
  ∃ sum : BitVec 16, ∃ hdr : SrIpHdr,
    hdr = { ip with ipTtl := ip.ipTtl - 1, ipSum := sum } ∧ cksum hdr.toBytes = 0 ∧
      buf.drop etherLen = hdr.toBytes ++ payload

/-- A packet whose time to live is over is answered and not sent on or kept, and every other
packet leaves the router, if it does, with its time to live decremented. -/
def HandlesTtl (session : Session) (sr : SrInstance) (dhost shost : Mac) (ip : SrIpHdr)
    (payload : List Byte) (interface : IfName) (env : Env) : Prop :=
  if ip.ipTtl ≤ 1 then
    ∃ call, srHandlepacket sr (ipFrame dhost shost ip payload) interface env = some (sr, [call]) ∧
      IsTimeExceeded (ipFrame dhost shost ip payload) interface call
  else
    (srHandlepacket sr (ipFrame dhost shost ip payload) interface env).isSome ∧
      ∀ buf, Leaves session sr (ipFrame dhost shost ip payload) interface env buf →
        Decremented ip payload buf

/-- A packet that is as it came is not decremented. -/
theorem not_decremented {buf : List Byte} (h : buf.drop etherLen = ip.toBytes ++ payload) :
    ¬Decremented ip payload buf := by
  rintro ⟨sum, hdr, rfl, -, hbuf⟩
  rw [h] at hbuf
  have hbytes := (List.append_inj_left' hbuf rfl).symm
  have httl : some (ip.ipTtl - 1) = some ip.ipTtl := congrArg (fun l => l[8]?) hbytes
  have hne : ip.ipTtl - 1 ≠ ip.ipTtl := by
    intro heq
    have hzero : (1 : Byte) = 0 := by
      calc (1 : Byte) = ip.ipTtl - (ip.ipTtl - 1) := by bv_omega
        _ = ip.ipTtl - ip.ipTtl := by rw [heq]
        _ = 0 := by bv_omega
    exact absurd hzero (by decide)
  exact hne (Option.some.inj httl)

/-- The forwarding code sends no ICMP errors. -/
theorem forward_ne_icmp {frame : List Byte} {now : Int} {call : SendCall}
    (h : forward sr frame r now = some (t, calls)) (hcall : call ∈ calls) :
    call.origin ≠ .icmp := by
  cases hlookup : srArpcacheLookup sr.cache r.dest with
  | some entry =>
      simp only [forward, hlookup, Option.bind_eq_bind, Option.bind_eq_some_iff, Option.pure_def,
        Option.some.injEq, Prod.mk.injEq] at h
      obtain ⟨_, -, _, -, _, -, -, rfl⟩ := h
      rw [List.mem_singleton.mp hcall]
      simp
  | none =>
      rw [forward_miss hlookup h call hcall]
      simp

/-- A packet that waits is sent with the reply for the address it waits for, as it was. -/
theorem Queued.flush_unchanged {x : Addr} {p : SrPacket} (hq : Queued sr)
    (hp : p ∈ sr.cache.packetsFor x) (mac tha : Mac) (tip : Addr) (i : IfName) (env : Env) :
    ∃ t calls call, srHandlepacket sr (arpReplyFrame mac (swap32 x) tha tip) i env =
        some (t, calls) ∧ call ∈ calls ∧ flushPacket sr mac p = some call ∧
      call.buf.drop etherLen = p.buf.drop etherLen := by
  obtain ⟨hsip, hsha, hhandle⟩ :=
    srHandlepacket_announced sr i env (announced_arpReplyFrame mac (swap32 x) tha tip)
  obtain ⟨calls, hcalls, -⟩ := flushLoop_spec mac (hq.sendable x)
  rw [Router.handleReply_eq hq.wellFormed hsha hsip, swap32_swap32, hcalls, Option.map_some] at hhandle
  obtain ⟨call, hcall, hflush⟩ := exists_flushPacket hcalls hp
  refine ⟨_, calls, call, hhandle, hcall, hflush, ?_⟩
  obtain ⟨hlen, hinter⟩ := hq.sendable x p hp
  obtain ⟨inter, hinter⟩ := Option.isSome_iff_exists.mp hinter
  rw [flushPacket_eq mac hlen hinter] at hflush
  obtain rfl := Option.some.inj hflush
  rfl

/-- A packet that the forwarding code gets leaves the router as it came: at once, or with the
reply for the destination of its route. -/
theorem Queued.leaves_unchanged (hq : Queued sr) (hinter : (srGetInterface sr r.interface).isSome)
    (hhandle : srHandlepacket sr (ipFrame dhost shost ip payload) interface env =
      forward sr (ipFrame dhost shost ip payload) r env.now) :
    ∃ buf, Leaves session sr (ipFrame dhost shost ip payload) interface env buf ∧
      buf.drop etherLen = ip.toBytes ++ payload := by
  have hdrop : (ipFrame dhost shost ip payload).drop etherLen = ip.toBytes ++ payload :=
    ipFrame_drop dhost shost ip payload
  obtain ⟨t, calls, hforward, hsent⟩ := hq.forward_sentTowards hinter env
  rw [hforward] at hhandle
  unfold SentTowards at hsent
  split at hsent
  · obtain ⟨rfl, buf, rfl, -, hbuf⟩ := hsent
    exact ⟨buf, .atOnce hhandle List.mem_cons_self rfl, hbuf.trans hdrop⟩
  · have hqueued := hsent.1 (swap32 r.dest)
    rw [if_pos rfl] at hqueued
    have hwaits : queuedPacket (ipFrame dhost shost ip payload) r.interface ∈
        t.cache.packetsFor (swap32 r.dest) := by
      rw [hqueued]
      exact List.mem_cons_self
    have ht : Queued t := hq.handled (srHandlepacket_handled hhandle)
    obtain ⟨u, flushed, call, hflush, hcall, hp, hbuf⟩ :=
      ht.flush_unchanged hwaits 0 0 0 interface env
    refine ⟨call.buf, ?_, hbuf.trans hdrop⟩
    have hlater : exec (mainStep session) t [] = some t := rfl
    exact .later hhandle hqueued hlater hwaits (announced_arpReplyFrame _ _ _ _) hflush hcall hp

theorem isTimeExceeded_call (inter : SrIf) :
    IsTimeExceeded (ipFrame dhost shost ip payload) interface
      (timeExceededCall shost ip payload interface inter env) := by
  refine ⟨rfl, rfl, load_ipFrame_type _ _ _ _, ?_, rfl, rfl, ?_⟩
  · rw [timeExceededCall, load_ipFrame_p]
    rfl
  · rw [timeExceededCall, load_ipFrame_dst, load_ipFrame_src]
    rfl

/-- A packet that goes to the forwarding code is not handled as its time to live asks for. -/
theorem Queued.not_handlesTtl {longs : Option SrRt} (hq : Queued sr)
    (hinter : ∀ r, longs = some r → (srGetInterface sr r.interface).isSome)
    (hhandle : srHandlepacket sr (ipFrame dhost shost ip payload) interface env =
      longs.bind fun r => forward sr (ipFrame dhost shost ip payload) r env.now) :
    ¬HandlesTtl session sr dhost shost ip payload interface env := by
  intro hproper
  unfold HandlesTtl at hproper
  cases longs with
  | none =>
      rw [Option.bind_none] at hhandle
      rw [hhandle] at hproper
      split at hproper
      · obtain ⟨call, hcall, -⟩ := hproper
        cases hcall
      · cases hproper.1
  | some r =>
      rw [Option.bind_some] at hhandle
      obtain ⟨buf, hleaves, hbuf⟩ :=
        @Queued.leaves_unchanged session _ _ _ _ _ _ _ _ hq (hinter r rfl) hhandle
      split at hproper
      · obtain ⟨call, hcall, htime⟩ := hproper
        exact forward_ne_icmp (hhandle.symm.trans hcall) List.mem_cons_self htime.origin
      · exact not_decremented hbuf (hproper.2 buf hleaves)

/-- A packet that is not for the router is handled as its time to live asks for exactly if it
is 1 and the frame has what the answer quotes. -/
theorem handlesTtl_iff {ifList : List SrIf} {routingTable : List SrRt} {acts : List MainAction}
    (h : exec (mainStep session) (srInit ifList routingTable) acts = some sr)
    (hv : srVerifyRoutingTable sr = 0) (hin : (srGetInterface sr interface).isSome)
    (hdst : ∀ i ∈ sr.ifList, i.ip ≠ ip.ipDst) (dhost shost : Mac) (payload : List Byte)
    (env : Env) :
    HandlesTtl session sr dhost shost ip payload interface env ↔
      ip.ipTtl = 1 ∧ 8 ≤ payload.length := by
  have hq : Queued sr := queued_exec h
  obtain ⟨inter, hinter⟩ := Option.isSome_iff_exists.mp hin
  have hknown : ∀ r ∈ sr.routingTable, (srGetInterface sr r.interface).isSome :=
    fun r hr => interface_of_verified hv hr
  obtain ⟨longs, hbest, hcaches⟩ := exists_transit hknown (not_named_of_forall_ne hdst) hinter
    dhost shost payload env
  have hhandle := hcaches sr.cache
  by_cases httl : ip.ipTtl = 1
  · rw [if_pos httl] at hhandle
    rw [HandlesTtl, if_pos (by rw [httl]; decide), hhandle]
    simp only [httl, true_and]
    constructor
    · rintro ⟨call, hcall, -⟩
      by_contra hlen
      rw [if_neg hlen] at hcall
      cases hcall
    · intro hlen
      rw [if_pos hlen]
      exact ⟨_, rfl, isTimeExceeded_call inter⟩
  · rw [if_neg httl] at hhandle
    simp only [httl, false_and, iff_false]
    exact hq.not_handlesTtl (fun r hr => hknown r ((hbest r).mp hr).mem) hhandle

/-- A packet to 8.8.8.8 whose time to live is 1 is answered. -/
theorem handlesTtl_one :
    HandlesTtl ⟨[], fun _ => none, true⟩ twoRoutes eth3.addr 9 (transitHdr 1 0x08080808)
      (List.replicate 8 0) eth3.name ⟨10, 0, 0⟩ := by
  have hstart : exec (mainStep ⟨[], fun _ => none, true⟩) (srInit [eth3] [hostRoute, defaultRoute])
      [] = some twoRoutes := rfl
  apply (handlesTtl_iff hstart _ _ _ eth3.addr 9 _ ⟨10, 0, 0⟩).mpr
  · exact ⟨rfl, by decide⟩
  · decide
  · decide
  · decide

/-- A packet to the host with a valid checksum whose time to live is 64 waits for the reply, and
leaves with the same time to live. -/
theorem not_handlesTtl_host :
    cksum (transitHdr 64 hostRoute.dest).toBytes = 0 ∧
      ¬HandlesTtl ⟨[], fun _ => none, true⟩ twoRoutes eth3.addr 9
        (transitHdr 64 hostRoute.dest) (List.replicate 8 0) eth3.name ⟨10, 0, 0⟩ := by
  refine ⟨by decide +kernel, ?_⟩
  have hhandle : srHandlepacket twoRoutes
      (ipFrame eth3.addr 9 (transitHdr 64 hostRoute.dest) (List.replicate 8 0)) eth3.name
        ⟨10, 0, 0⟩ =
      forward twoRoutes (ipFrame eth3.addr 9 (transitHdr 64 hostRoute.dest) (List.replicate 8 0))
        hostRoute 10 := by
    have hloop : routeLoop twoRoutes (swap32 (transitHdr 64 hostRoute.dest).ipDst)
        twoRoutes.routingTable 0 none = some (false, some hostRoute) := by
      decide
    rw [srHandlepacket_transit hloop, if_neg (by decide)]
    rfl
  intro h
  rw [HandlesTtl, if_neg (by decide)] at h
  obtain ⟨buf, hleaves, hbuf⟩ := (queued_srInit _ _).leaves_unchanged (by decide) hhandle
  exact not_decremented hbuf (h.2 buf hleaves)

end NetworkStack.Router
