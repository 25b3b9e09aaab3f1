import NetworkStack.Router.MainLoop

/-!
# The source address of every frame

`sr_send_packet` drops a frame whose source is not the Ethernet address of the interface
it is sent on. Each place that sends sets the address and names the interface on its own,
and the packets of an ARP request were queued at any earlier time. No frame is dropped.
-/

namespace NetworkStack.Router

open Bytes Buffer Transition SrArpcache

variable {sr t : SrInstance} {frame : List Byte} {interface : IfName} {env : Env}
  {calls : List SendCall} {call : SendCall} {r : SrRt} {inter : SrIf}

/-- The loop over the routing table on the packet in a frame. -/
def routed (sr : SrInstance) (frame : List Byte) : Option (Bool × Option SrRt) :=
  (load32 frame 30).bind fun ipDst => routeLoop sr (swap32 ipDst) sr.routingTable 0 none

/-- The packet is for an interface of the router. -/
def ForRouter (sr : SrInstance) (frame : List Byte) : Prop :=
  ∃ longs, routed sr frame = some (true, longs)

/-- The frame has the headers that are read of it, it came in on an interface of the router,
and there is a route if its packet is to be forwarded. -/
structure Deliverable (sr : SrInstance) (frame : List Byte) (interface : IfName) : Prop where
  interface : (srGetInterface sr interface).isSome
  ether : etherLen ≤ frame.length
  arp : load16 frame 12 = some (swap16 ethertypeArp) → 42 ≤ frame.length
  ip : load16 frame 12 = some (swap16 ethertypeIp) → 34 ≤ frame.length
  icmp : load16 frame 12 = some (swap16 ethertypeIp) → ForRouter sr frame →
    load8 frame 23 = some ipProtocolIcmp → 38 ≤ frame.length
  /-- An ICMP error has the first eight bytes behind the IP header. -/
  error : load16 frame 12 = some (swap16 ethertypeIp) →
    (ForRouter sr frame ∧ load8 frame 23 ≠ some ipProtocolIcmp ∨
      ¬ForRouter sr frame ∧ load8 frame 22 = some 1) → 42 ≤ frame.length
  route : load16 frame 12 = some (swap16 ethertypeIp) → ¬ForRouter sr frame →
    load8 frame 22 ≠ some 1 → (routeOf sr frame).isSome

/-! ## The check -/

theorem srSendPacket_of_shost (hlen : etherLen ≤ call.buf.length)
    (hinter : srGetInterface sr call.iface = some inter)
    (hshost : load48 call.buf 6 = some inter.addr) : srSendPacket sr call = true := by
  simp [srSendPacket, hlen, hinter, hshost]

theorem icmp_passes {type code : Byte} {unused : BitVec 32}
    (h : icmp sr frame type code interface unused = some call) : srSendPacket sr call = true := by
  simp only [icmp, Option.bind_eq_bind, Option.bind_eq_some_iff, Option.pure_def,
    Option.some.injEq] at h
  obtain ⟨shost, -, etherType, -, inter, hinter, -, -, -, -, ip, -, -, -, hdr, -, rfl⟩ := h
  simp only [List.append_assoc]
  apply srSendPacket_addresses hinter
  simp [le16]

/-- The fields that are written last are all behind the source address. -/
theorem echo_passes (h : echo sr frame r interface = some call) : srSendPacket sr call = true := by
  simp only [echo, Option.bind_eq_bind, Option.bind_eq_some_iff, Option.pure_def,
    Option.some.injEq] at h
  obtain ⟨shost, -, b₁, hb₁, inter, hinter, b₂, hb₂, ipSrc, -, b₃, hb₃, out, -, b₄, hb₄, b₅, hb₅,
    ip, -, b₆, hb₆, b₇, hb₇, b₈, hb₈, icmp, -, b₉, hb₉, rfl⟩ := h
  have hshost : load48 b₉ 6 = some inter.addr := by
    rw [load48_store_of_le hb₉ (by decide), load48_store_of_le hb₈ (by decide),
      load48_store_of_le hb₇ (by decide), load48_store_of_le hb₆ (by decide),
      load48_store_of_le hb₅ (by decide), load48_store_of_le hb₄ (by decide),
      load48_store_of_le hb₃ (by decide), load48_store48 hb₂]
  have hbound : 36 + 2 ≤ b₉.length := store_bound hb₉
  exact srSendPacket_of_shost (Nat.le_trans (by decide) hbound) hinter hshost

theorem replyToRequest_passes (hinter : srGetInterface sr interface = some inter)
    (h : replyToRequest frame inter interface = some call) : srSendPacket sr call = true := by
  simp only [replyToRequest, Option.bind_eq_bind, Option.bind_eq_some_iff, Option.pure_def,
    Option.some.injEq] at h
  obtain ⟨-, -, -, -, -, -, -, -, -, -, -, -, -, -, -, -, -, -, b, -, b', hb', buf, hbuf, rfl⟩ := h
  unfold load at hbuf
  split at hbuf
  · rename_i hlen
    obtain rfl := Option.some.inj hbuf
    have htake : (b'.drop 0).take 42 = b'.take 42 := rfl
    have hshost : load48 (b'.take 42) 6 = load48 b' 6 := by
      simp [load48]
    refine srSendPacket_of_shost ?_ hinter ?_
    · rw [htake, List.length_take]
      exact Nat.le_min.mpr ⟨by decide, Nat.le_trans (by decide) hlen⟩
    · rw [htake, hshost, load48_store48 hb']
  · cases hbuf

theorem handleArpreq_passes {id : Nat} {now : Int} (h : handleArpreq sr id now = some (t, calls)) :
    ∀ call ∈ calls, srSendPacket sr call = true := by
  obtain ⟨req, -, h⟩ := Option.bind_eq_some_iff.mp h
  split at h
  · split at h
    · cases h
      nofun
    · obtain ⟨pack, -, h⟩ := Option.bind_eq_some_iff.mp h
      obtain ⟨interf, hinterf, h⟩ := Option.bind_eq_some_iff.mp h
      cases h
      intro call hcall
      obtain rfl := List.mem_singleton.mp hcall
      simp only [arpRequestFrame, List.append_assoc]
      apply srSendPacket_addresses hinterf
      simp [le16]
  · cases h
    nofun

theorem forward_passes {now : Int} (hlen : etherLen ≤ frame.length)
    (h : forward sr frame r now = some (t, calls)) : ∀ call ∈ calls, srSendPacket sr call = true := by
  cases hlookup : srArpcacheLookup sr.cache r.dest with
  | some entry =>
      have hinter : ∃ inter, srGetInterface sr r.interface = some inter := by
        simp only [forward, hlookup] at h
        obtain ⟨inter, hinter, -⟩ := Option.bind_eq_some_iff.mp h
        exact ⟨inter, hinter⟩
      obtain ⟨inter, hinter⟩ := hinter
      rw [forward_hit now hlen hinter hlookup] at h
      obtain ⟨rfl, rfl⟩ := Prod.mk.inj (Option.some.inj h)
      intro call hcall
      obtain rfl := List.mem_singleton.mp hcall
      apply srSendPacket_addresses hinter
      rw [List.length_drop]
      unfold etherLen at hlen
      omega
  | none =>
      simp only [forward, hlookup] at h
      have hpass := handleArpreq_passes h
      exact hpass

theorem portUnreachable_passes {sendRouter : Bool} {unused : BitVec 32}
    (h : portUnreachable sr frame sendRouter interface unused = some calls) :
    ∀ call ∈ calls, srSendPacket sr call = true := by
  unfold portUnreachable at h
  split at h
  · obtain ⟨call, hcall, rfl⟩ := Option.map_eq_some_iff.mp h
    simpa using icmp_passes hcall
  · obtain rfl := Option.some.inj h
    nofun

theorem handleIp_passes (h : handleIp sr frame interface env = some (t, calls)) :
    ∀ call ∈ calls, srSendPacket sr call = true := by
  obtain ⟨ipDst, hdst, h⟩ := Option.bind_eq_some_iff.mp h
  obtain ⟨⟨sendRouter, longs⟩, -, h⟩ := Option.bind_eq_some_iff.mp h
  obtain ⟨proto, -, h⟩ := Option.bind_eq_some_iff.mp h
  split at h
  · obtain ⟨r, -, h⟩ := Option.bind_eq_some_iff.mp h
    obtain ⟨call, hecho, h⟩ := Option.bind_eq_some_iff.mp h
    obtain ⟨rfl, rfl⟩ := Prod.mk.inj (Option.some.inj h)
    simpa using echo_passes hecho
  · obtain ⟨answer, hanswer, h⟩ := Option.bind_eq_some_iff.mp h
    obtain ⟨ttl, -, h⟩ := Option.bind_eq_some_iff.mp h
    split at h
    · obtain ⟨call, hcall, h⟩ := Option.bind_eq_some_iff.mp h
      obtain ⟨rfl, rfl⟩ := Prod.mk.inj (Option.some.inj h)
      exact List.forall_mem_append.mpr
        ⟨portUnreachable_passes hanswer, by simpa using icmp_passes hcall⟩
    · obtain ⟨r, -, h⟩ := Option.bind_eq_some_iff.mp h
      obtain ⟨⟨t', calls'⟩, hforward, h⟩ := Option.bind_eq_some_iff.mp h
      obtain ⟨rfl, rfl⟩ := Prod.mk.inj (Option.some.inj h)
      have hlen : etherLen ≤ frame.length := Nat.le_trans (by decide) (load32_length hdst)
      exact List.forall_mem_append.mpr
        ⟨portUnreachable_passes hanswer, forward_passes hlen hforward⟩

theorem Queued.handleReply_passes {now : Int} (hq : Queued sr)
    (h : handleReply sr frame now = some (t, calls)) :
    ∀ call ∈ calls, srSendPacket sr call = true := by
  obtain ⟨sha, hsha, h'⟩ := Option.bind_eq_some_iff.mp h
  obtain ⟨sip, hsip, -⟩ := Option.bind_eq_some_iff.mp h'
  obtain ⟨calls', hall, heq⟩ := hq.handleReply_eq hsha hsip now
  obtain ⟨rfl, rfl⟩ := Prod.mk.inj (Option.some.inj (heq.symm.trans h))
  intro call hcall
  obtain ⟨p, -, hp⟩ := exists_flushed hall hcall
  exact hp.passes

theorem Queued.handleArp_passes {now : Int} (hq : Queued sr)
    (h : handleArp sr frame interface now = some (t, calls)) :
    ∀ call ∈ calls, srSendPacket sr call = true := by
  obtain ⟨op, -, h⟩ := Option.bind_eq_some_iff.mp h
  split at h
  · obtain ⟨inter, hinter, h⟩ := Option.bind_eq_some_iff.mp h
    obtain ⟨tip, -, h⟩ := Option.bind_eq_some_iff.mp h
    split at h
    · obtain ⟨call, hcall, h⟩ := Option.bind_eq_some_iff.mp h
      obtain ⟨rfl, rfl⟩ := Prod.mk.inj (Option.some.inj h)
      simpa using replyToRequest_passes hinter hcall
    · obtain ⟨rfl, rfl⟩ := Prod.mk.inj (Option.some.inj h)
      nofun
  · split at h
    · exact hq.handleReply_passes h
    · obtain ⟨rfl, rfl⟩ := Prod.mk.inj (Option.some.inj h)
      nofun

theorem Queued.srHandlepacket_passes (hq : Queued sr)
    (h : srHandlepacket sr frame interface env = some (t, calls)) :
    ∀ call ∈ calls, srSendPacket sr call = true := by
  obtain ⟨etherType, -, h⟩ := Option.bind_eq_some_iff.mp h
  split at h
  · exact handleIp_passes h
  · split at h
    · exact hq.handleArp_passes h
    · obtain ⟨rfl, rfl⟩ := Prod.mk.inj (Option.some.inj h)
      nofun

/-! ## Nothing is undefined -/

theorem interface_of_verified (h : srVerifyRoutingTable sr = 0) (hr : r ∈ sr.routingTable) :
    (srGetInterface sr r.interface).isSome := by
  unfold srVerifyRoutingTable at h
  split at h
  · cases h
  · have hfound := List.countP_eq_zero.mp h r hr
    apply srGetInterface_isSome.mpr
    simpa using hfound

/-- The loop over the routing table comes to its end, with a route if it found the router. -/
theorem exists_routeLoop (destIp : Addr) {table : List SrRt}
    (h : ∀ r ∈ table, (srGetInterface sr r.interface).isSome) (longest : Addr)
    (longs : Option SrRt) :
    (∃ r ∈ table, routeLoop sr destIp table longest longs = some (true, some r)) ∨
      ∃ longs', routeLoop sr destIp table longest longs = some (false, longs') := by
  induction table generalizing longest longs with
  | nil => exact .inr ⟨longs, rfl⟩
  | cons route rest ih =>
      obtain ⟨inter, hinter⟩ := Option.isSome_iff_exists.mp (h route List.mem_cons_self)
      have hrest : ∀ r ∈ rest, (srGetInterface sr r.interface).isSome :=
        fun r hr => h r (List.mem_cons_of_mem route hr)
      have hmore (longest : Addr) (longs : Option SrRt) :
          (∃ r ∈ route :: rest, routeLoop sr destIp rest longest longs = some (true, some r)) ∨
            ∃ longs', routeLoop sr destIp rest longest longs = some (false, longs') := by
        obtain ⟨r, hr, hloop⟩ | hloop := ih hrest longest longs
        · exact .inl ⟨r, List.mem_cons_of_mem route hr, hloop⟩
        · exact .inr hloop
      simp only [routeLoop, hinter, Option.bind_eq_bind, Option.bind_some]
      split
      · exact .inl ⟨route, List.mem_cons_self, rfl⟩
      · split
        · exact hmore _ _
        · exact hmore _ _

theorem icmpIpHeader_isSome {ip : List Byte} (h : ip.length = 20) (src dst : Addr) :
    (icmpIpHeader ip src dst).isSome := by
  obtain ⟨ip₁, h₁, l₁⟩ := exists_store16 (swap16 56) (show 2 + 2 ≤ ip.length by omega)
  obtain ⟨ip₂, h₂, l₂⟩ := exists_store8 ipProtocolIcmp (show 9 + 1 ≤ ip₁.length by omega)
  obtain ⟨ip₃, h₃, l₃⟩ := exists_store8 64 (show 8 + 1 ≤ ip₂.length by omega)
  obtain ⟨ip₄, h₄, l₄⟩ := exists_store32 src (show 12 + 4 ≤ ip₃.length by omega)
  obtain ⟨ip₅, h₅, l₅⟩ := exists_store32 dst (show 16 + 4 ≤ ip₄.length by omega)
  obtain ⟨ip₆, h₆, l₆⟩ := exists_store16 0 (show 10 + 2 ≤ ip₅.length by omega)
  obtain ⟨ip₇, h₇, -⟩ := exists_store16 (cksum ip₆) (show 10 + 2 ≤ ip₆.length by omega)
  simp only [icmpIpHeader, h₁, h₂, h₃, h₄, h₅, h₆, h₇, Option.bind_eq_bind, Option.bind_some,
    Option.isSome_some]

theorem icmp_isSome (hinter : (srGetInterface sr interface).isSome) (h : 42 ≤ frame.length)
    (type code : Byte) (unused : BitVec 32) :
    (icmp sr frame type code interface unused).isSome := by
  obtain ⟨inter, hinter⟩ := Option.isSome_iff_exists.mp hinter
  obtain ⟨shost, hshost⟩ := exists_load48 (show 6 + 6 ≤ frame.length by omega)
  obtain ⟨etherType, htype⟩ := exists_load16 (show 12 + 2 ≤ frame.length by omega)
  obtain ⟨origIp, horig, hlen⟩ := exists_load (show 14 + 20 ≤ frame.length by omega)
  obtain ⟨ipSrc, hsrc⟩ := exists_load32 (show 26 + 4 ≤ frame.length by omega)
  obtain ⟨ip, hip⟩ := Option.isSome_iff_exists.mp (icmpIpHeader_isSome hlen inter.ip ipSrc)
  obtain ⟨data, hdata, -⟩ := exists_load (show 14 + 28 ≤ frame.length by omega)
  obtain ⟨hdr, hhdr, -⟩ := exists_store16 (cksum ([type, code, 0, 0] ++ le32 unused ++ data))
    (show 2 + 2 ≤ ([type, code, 0, 0] ++ le32 unused ++ data).length by simp)
  simp only [icmp, hshost, htype, hinter, horig, hsrc, hip, hdata, hhdr, Option.bind_eq_bind,
    Option.bind_some, Option.pure_def, Option.isSome_some]

theorem echo_isSome (hinter : (srGetInterface sr interface).isSome)
    (hout : (srGetInterface sr r.interface).isSome) (h : 38 ≤ frame.length) :
    (echo sr frame r interface).isSome := by
  obtain ⟨inter, hinter⟩ := Option.isSome_iff_exists.mp hinter
  obtain ⟨out, hout⟩ := Option.isSome_iff_exists.mp hout
  obtain ⟨shost, hshost⟩ := exists_load48 (show 6 + 6 ≤ frame.length by omega)
  obtain ⟨b₁, h₁, l₁⟩ := exists_store48 shost (show 0 + 6 ≤ frame.length by omega)
  obtain ⟨b₂, h₂, l₂⟩ := exists_store48 inter.addr (show 6 + 6 ≤ b₁.length by omega)
  obtain ⟨ipSrc, hsrc⟩ := exists_load32 (show 26 + 4 ≤ b₂.length by omega)
  obtain ⟨b₃, h₃, l₃⟩ := exists_store32 ipSrc (show 30 + 4 ≤ b₂.length by omega)
  obtain ⟨b₄, h₄, l₄⟩ := exists_store32 out.ip (show 26 + 4 ≤ b₃.length by omega)
  obtain ⟨b₅, h₅, l₅⟩ := exists_store16 0 (show 24 + 2 ≤ b₄.length by omega)
  obtain ⟨ip, hip, -⟩ := exists_load (show 14 + 20 ≤ b₅.length by omega)
  obtain ⟨b₆, h₆, l₆⟩ := exists_store16 (cksum ip) (show 24 + 2 ≤ b₅.length by omega)
  obtain ⟨b₇, h₇, l₇⟩ := exists_store8 0 (show 34 + 1 ≤ b₆.length by omega)
  obtain ⟨b₈, h₈, l₈⟩ := exists_store16 0 (show 36 + 2 ≤ b₇.length by omega)
  obtain ⟨icmp, hicmp, -⟩ := exists_load (show 34 + 4 ≤ b₈.length by omega)
  obtain ⟨b₉, h₉, -⟩ := exists_store16 (cksum icmp) (show 36 + 2 ≤ b₈.length by omega)
  simp only [echo, hinter, hout, hshost, h₁, h₂, hsrc, h₃, h₄, h₅, hip, h₆, h₇, h₈, hicmp, h₉,
    Option.bind_eq_bind, Option.bind_some, Option.pure_def, Option.isSome_some]

theorem replyToRequest_isSome (h : 42 ≤ frame.length) (inter : SrIf) (interface : IfName) :
    (replyToRequest frame inter interface).isSome := by
  obtain ⟨tip, htip⟩ := exists_load32 (show 38 + 4 ≤ frame.length by omega)
  obtain ⟨b₁, h₁, l₁⟩ := exists_store16 (swap16 arpOpReply) (show 20 + 2 ≤ frame.length by omega)
  obtain ⟨sha, hsha⟩ := exists_load48 (show 22 + 6 ≤ b₁.length by omega)
  obtain ⟨b₂, h₂, l₂⟩ := exists_store48 sha (show 32 + 6 ≤ b₁.length by omega)
  obtain ⟨b₃, h₃, l₃⟩ := exists_store48 inter.addr (show 22 + 6 ≤ b₂.length by omega)
  obtain ⟨sip, hsip⟩ := exists_load32 (show 28 + 4 ≤ b₃.length by omega)
  obtain ⟨b₄, h₄, l₄⟩ := exists_store32 tip (show 28 + 4 ≤ b₃.length by omega)
  obtain ⟨b₅, h₅, l₅⟩ := exists_store32 sip (show 38 + 4 ≤ b₄.length by omega)
  obtain ⟨shost, hshost⟩ := exists_load48 (show 6 + 6 ≤ b₅.length by omega)
  obtain ⟨b₆, h₆, l₆⟩ := exists_store48 shost (show 0 + 6 ≤ b₅.length by omega)
  obtain ⟨b₇, h₇, l₇⟩ := exists_store48 inter.addr (show 6 + 6 ≤ b₆.length by omega)
  obtain ⟨buf, hbuf, -⟩ := exists_load (show 0 + 42 ≤ b₇.length by omega)
  simp only [replyToRequest, htip, h₁, hsha, h₂, h₃, hsip, h₄, h₅, hshost, h₆, h₇, hbuf,
    Option.bind_eq_bind, Option.bind_some, Option.pure_def, Option.isSome_some]

theorem Queued.handleArpreq_isSome {req : SrArpreq} (hq : Queued sr)
    (hreq : req ∈ sr.cache.requests) (now : Int) : (Router.handleArpreq sr req.id now).isSome :=
  Router.handleArpreq_isSome hq.wellFormed hreq (fun p hp => (hq.sendable req.ip p hp).2) now

theorem Queued.forward_isSome (hq : Queued sr) (hlen : etherLen ≤ frame.length)
    (hinter : (srGetInterface sr r.interface).isSome) (now : Int) :
    (forward sr frame r now).isSome := by
  cases hlookup : srArpcacheLookup sr.cache r.dest with
  | some entry =>
      obtain ⟨inter, hinter⟩ := Option.isSome_iff_exists.mp hinter
      rw [forward_hit now hlen hinter hlookup]
      rfl
  | none =>
      have hne : frame ≠ [] := by
        rintro rfl
        exact absurd hlen (by decide)
      have hqueued := hq.queuereq (swap32 r.dest) hlen hinter
      obtain ⟨req, hreq, hid⟩ :=
        exists_srArpcacheQueuereq hq.wellFormed hne (swap32 r.dest) r.interface
      simp only [forward, hlookup, ← hid]
      exact hqueued.handleArpreq_isSome hreq now

/-- Where the loop over the routing table has ended with a route that can be taken. -/
theorem Queued.handleIp_isSome (hq : Queued sr) (hv : srVerifyRoutingTable sr = 0)
    (h : Deliverable sr frame interface)
    (htype : load16 frame 12 = some (swap16 ethertypeIp)) :
    (handleIp sr frame interface env).isSome := by
  have hlen := h.ip htype
  obtain ⟨ipDst, hdst⟩ := exists_load32 (show 30 + 4 ≤ frame.length by omega)
  obtain ⟨proto, hproto⟩ : ∃ proto, load8 frame 23 = some proto := exists_getElem (by omega)
  obtain ⟨ttl, httl⟩ : ∃ ttl, load8 frame 22 = some ttl := exists_getElem (by omega)
  have hether : etherLen ≤ frame.length := h.ether
  have hknown : ∀ r ∈ sr.routingTable, (srGetInterface sr r.interface).isSome :=
    fun r hr => interface_of_verified hv hr
  obtain ⟨r, hr, hloop⟩ | ⟨longs, hloop⟩ := exists_routeLoop (swap32 ipDst) hknown 0 none
  · have hrouter : ForRouter sr frame := ⟨some r, by rw [routed, hdst, Option.bind_some, hloop]⟩
    obtain ⟨⟨t, calls⟩, hforward⟩ :=
      Option.isSome_iff_exists.mp (hq.forward_isSome hether (hknown r hr) env.now)
    by_cases hicmp : proto = ipProtocolIcmp
    · have hlen' := h.icmp htype hrouter (by rw [hproto, hicmp])
      obtain ⟨call, hecho⟩ :=
        Option.isSome_iff_exists.mp (echo_isSome h.interface (hknown r hr) hlen')
      simp only [handleIp, hdst, hloop, hproto, hicmp, hecho, Option.bind_eq_bind,
        Option.bind_some, Option.pure_def, and_self, if_true, Option.isSome_some]
    · have hlen' := h.error htype (.inl ⟨hrouter, by simpa [hproto] using hicmp⟩)
      obtain ⟨call, hcall⟩ :=
        Option.isSome_iff_exists.mp (icmp_isSome h.interface hlen' 3 3 env.unreachable)
      obtain ⟨call', hcall'⟩ :=
        Option.isSome_iff_exists.mp (icmp_isSome h.interface hlen' 11 0 env.timeExceeded)
      simp only [handleIp, hdst, hloop, hproto, hicmp, portUnreachable, hcall, httl, hcall',
        hforward, Option.bind_eq_bind, Option.bind_some, Option.pure_def, Option.map_some,
        and_false, if_false, if_true]
      split <;> rfl
  · have hrouter : ¬ForRouter sr frame := by
      rintro ⟨longs', hrouted⟩
      rw [routed, hdst, Option.bind_some, hloop] at hrouted
      cases hrouted
    by_cases hexpired : ttl = 1
    · have hlen' := h.error htype (.inr ⟨hrouter, by rw [httl, hexpired]⟩)
      obtain ⟨call, hcall⟩ :=
        Option.isSome_iff_exists.mp (icmp_isSome h.interface hlen' 11 0 env.timeExceeded)
      simp only [handleIp, hdst, hloop, hproto, httl, hexpired, portUnreachable, hcall,
        Option.bind_eq_bind, Option.bind_some, Option.pure_def, Bool.false_eq_true, false_and,
        if_false, if_true, Option.isSome_some]
    · have hroute := h.route htype hrouter (by simpa [httl] using hexpired)
      obtain ⟨r, hr⟩ := Option.isSome_iff_exists.mp hroute
      have hlongs : longs = some r := by
        simpa only [routeOf, hdst, hloop, Option.bind_eq_bind, Option.bind_some] using hr
      obtain ⟨⟨t, calls⟩, hforward⟩ :=
        Option.isSome_iff_exists.mp (hq.forward_isSome hether (routeOf_spec hr).2 env.now)
      simp only [handleIp, hdst, hloop, hproto, httl, hexpired, portUnreachable, hlongs, hforward,
        Option.bind_eq_bind, Option.bind_some, Option.pure_def, Bool.false_eq_true, false_and,
        if_false, Option.isSome_some]

theorem Queued.handleArp_isSome (hq : Queued sr) (h : 42 ≤ frame.length)
    (hinter : (srGetInterface sr interface).isSome) (now : Int) :
    (handleArp sr frame interface now).isSome := by
  obtain ⟨inter, hinter⟩ := Option.isSome_iff_exists.mp hinter
  obtain ⟨op, hop⟩ := exists_load16 (show 20 + 2 ≤ frame.length by omega)
  obtain ⟨tip, htip⟩ := exists_load32 (show 38 + 4 ≤ frame.length by omega)
  obtain ⟨sha, hsha⟩ := exists_load48 (show 22 + 6 ≤ frame.length by omega)
  obtain ⟨sip, hsip⟩ := exists_load32 (show 28 + 4 ≤ frame.length by omega)
  obtain ⟨call, hcall⟩ := Option.isSome_iff_exists.mp (replyToRequest_isSome h inter interface)
  obtain ⟨calls, -, hreply⟩ := hq.handleReply_eq hsha hsip now
  simp only [handleArp, hop, hinter, htip, hcall, hreply, Option.bind_eq_bind, Option.bind_some,
    Option.pure_def]
  split
  · split <;> rfl
  · split <;> rfl

theorem Queued.srHandlepacket_isSome (hq : Queued sr) (hv : srVerifyRoutingTable sr = 0)
    (h : Deliverable sr frame interface) (env : Env) :
    (srHandlepacket sr frame interface env).isSome := by
  obtain ⟨etherType, htype⟩ := exists_load16 (show 12 + 2 ≤ frame.length from h.ether)
  have hswap {x : BitVec 16} (hx : swap16 etherType = x) : load16 frame 12 = some (swap16 x) := by
    rw [htype, ← hx, swap16_swap16]
  simp only [srHandlepacket, htype, Option.bind_eq_bind, Option.bind_some]
  split
  · rename_i hip
    exact hq.handleIp_isSome hv h (hswap hip)
  · split
    · rename_i harp
      exact hq.handleArp_isSome (h.arp (hswap harp)) h.interface env.now
    · rfl

/-! ## Every run -/

/-- Every frame that a router sends passes the check: what it sends when it handles a frame,
the packets that waited included, and when it goes over the requests. -/
structure Passes (sr : SrInstance) : Prop where
  handles : ∀ frame interface env, Deliverable sr frame interface →
    (srHandlepacket sr frame interface env).isSome
  handlepacket : ∀ frame interface env t calls,
    srHandlepacket sr frame interface env = some (t, calls) →
    ∀ call ∈ calls, srSendPacket sr call = true
  resends : ∀ req ∈ sr.cache.requests, ∀ now, (handleArpreq sr req.id now).isSome
  arpreq : ∀ id now t calls, handleArpreq sr id now = some (t, calls) →
    ∀ call ∈ calls, srSendPacket sr call = true

theorem passes_exec {session : Session} {ifList : List SrIf} {routingTable : List SrRt}
    {acts : List MainAction} {sr : SrInstance}
    (h : exec (mainStep session) (srInit ifList routingTable) acts = some sr)
    (hv : srVerifyRoutingTable sr = 0) : Passes sr := by
  have hq : Queued sr := queued_exec h
  constructor
  · intro frame interface env hframe
    exact hq.srHandlepacket_isSome hv hframe env
  · intro frame interface env t calls hhandle
    exact hq.srHandlepacket_passes hhandle
  · intro req hreq now
    exact hq.handleArpreq_isSome hreq now
  · intro id now t calls hhandle
    exact handleArpreq_passes hhandle

theorem passes_hostWaits :
    ∃ sr, exec (mainStep ⟨[], fun _ => none, true⟩) (srInit [eth3] [hostRoute]) hostWaits = some sr ∧
      srVerifyRoutingTable sr = 0 ∧ Passes sr := by
  have hrun : ((exec (mainStep ⟨[], fun _ => none, true⟩) (srInit [eth3] [hostRoute])
      hostWaits).map srVerifyRoutingTable) = some 0 := by
    decide +kernel
  obtain ⟨sr, hsr, hv⟩ := Option.map_eq_some_iff.mp hrun
  exact ⟨sr, hsr, hv, passes_exec hsr hv⟩

end NetworkStack.Router
