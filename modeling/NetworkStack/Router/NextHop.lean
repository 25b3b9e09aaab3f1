import NetworkStack.Lib.Transition
import NetworkStack.Router.Entries
import NetworkStack.Router.Handling

/-!
# Packets on their way to a next hop

A run of the router handles frames, lets mappings expire and resends requests. Its record
has the mappings that ARP replies have announced and the frames that were sent.

An address is used in four places: mappings and requests are kept under the address in
host order, an ARP request has it in network order again, but the lookup of a packet's
next hop uses the address as the routing table has it. The key of the lookup is that of
the mapping only if the bytes of the address read the same in both directions.
-/

namespace NetworkStack.Router

open Bytes Buffer Transition SrArpcache

/-- The router and its record. -/
structure RouterRun where
  sr : SrInstance
  learned : List (Addr × Mac)
  sent : List SendCall

inductive RouterAction where
  | handlepacket (frame : List Byte) (interface : IfName) (env : Env)
  /-- The first loop of `sr_arpcache_timeout`. -/
  | expire (curtime : Int)
  /-- One round of `sr_arpcache_sweepreqs`. -/
  | handleArpreq (id : Nat) (now : Int)
  deriving DecidableEq, Repr

/-- The frame has an IP packet that is not for the router and takes this route. -/
structure InTransit (sr : SrInstance) (frame : List Byte) (r : SrRt) : Prop where
  type : load16 frame 12 = some (swap16 ethertypeIp)
  route : (load32 frame 30).bind (fun ipDst => routeLoop sr (swap32 ipDst) sr.routingTable 0 none) =
    some (false, some r)
  ttl : load8 frame 22 ≠ some 1

section InTransit

variable {sr : SrInstance} {frame : List Byte} {r : SrRt}

theorem inTransit_cache {c : SrArpcache} :
    InTransit { sr with cache := c } frame r ↔ InTransit sr frame r := by
  constructor
  · intro h
    refine ⟨h.type, ?_, h.ttl⟩
    have hroute := h.route
    simp only [routeLoop_cache] at hroute
    exact hroute
  · intro h
    refine ⟨h.type, ?_, h.ttl⟩
    simp only [routeLoop_cache]
    exact h.route

theorem InTransit.routeOf (h : InTransit sr frame r) : routeOf sr frame = some r := by
  obtain ⟨ipDst, hdst, hloop⟩ := Option.bind_eq_some_iff.mp h.route
  simp only [Router.routeOf, hdst, hloop, Option.bind_eq_bind, Option.bind_some]

theorem InTransit.length (h : InTransit sr frame r) : 34 ≤ frame.length := by
  obtain ⟨ipDst, hdst, -⟩ := Option.bind_eq_some_iff.mp h.route
  exact load32_length hdst

/-- A packet in transit goes to the forwarding code and nothing else happens to it. -/
theorem InTransit.srHandlepacket (h : InTransit sr frame r) (interface : IfName) (env : Env) :
    srHandlepacket sr frame interface env = forward sr frame r env.now := by
  obtain ⟨ipDst, hdst, hloop⟩ := Option.bind_eq_some_iff.mp h.route
  have hlen := h.length
  obtain ⟨proto, hproto⟩ : ∃ proto, load8 frame 23 = some proto :=
    ⟨_, List.getElem?_eq_getElem (by omega)⟩
  obtain ⟨ttl, httl⟩ : ∃ ttl, load8 frame 22 = some ttl :=
    ⟨_, List.getElem?_eq_getElem (by omega)⟩
  have hne : ttl ≠ 1 := by
    rintro rfl
    exact h.ttl httl
  rw [Router.srHandlepacket, h.type, Option.bind_eq_bind, Option.bind_some, if_pos (by decide)]
  simp only [handleIp, hdst, hloop, hproto, httl, hne, portUnreachable, Option.bind_eq_bind,
    Option.bind_some, Option.pure_def, Bool.false_eq_true, false_and, if_false, List.nil_append]
  cases forward sr frame r env.now <;> rfl

theorem InTransit.announced (h : InTransit sr frame r) : announced frame = none := by
  apply if_neg
  rintro ⟨harp, -⟩
  exact absurd (Option.some.inj (h.type.symm.trans harp)) (by decide)

/-- A packet that waited is in transit as it was. -/
theorem InTransit.flushed {p : SrPacket} {mac : Mac} {call : SendCall} (h : InTransit sr p.buf r)
    (hflushed : Flushed sr mac call p) : InTransit sr call.buf r where
  type := hflushed.type
  route := by
    rw [load32_of_drop_eq hflushed.payload (show etherLen ≤ 30 by decide)]
    exact h.route
  ttl := by
    rw [load8, getElem?_of_drop_eq hflushed.payload (show etherLen ≤ 22 by decide)]
    exact h.ttl

end InTransit

namespace RouterRun

def step (s : RouterRun) : RouterAction → Option RouterRun
  | .handlepacket frame interface env =>
      (srHandlepacket s.sr frame interface env).map fun r =>
        { sr := r.1
          learned := (announced frame).toList ++ s.learned
          sent := s.sent ++ r.2.filter (srSendPacket s.sr) }
  | .expire curtime =>
      some { s with sr := { s.sr with cache := { s.sr.cache with
        entries := expireEntries s.sr.cache.entries curtime } } }
  | .handleArpreq id now =>
      (Router.handleArpreq s.sr id now).map fun r =>
        { s with sr := r.1, sent := s.sent ++ r.2.filter (srSendPacket s.sr) }

/-- A router with nothing learned or queued. -/
def start (ifList : List SrIf) (routingTable : List SrRt) : RouterRun where
  sr := { ifList := ifList, routingTable := routingTable, cache := srArpcacheInit }
  learned := []
  sent := []

/-- Packets to the next hop `x` are sent at once while a mapping of `x` is valid, to the
Ethernet address that it has, and never to one that was not announced for `x`. -/
structure Direct (nextHop : SrRt → Addr) (x : Addr) (s : RouterRun) : Prop where
  atOnce : ∀ m frame interface env r, (x, m) ∈ s.learned →
    (∃ e ∈ s.sr.cache.entries, e.Maps (swap32 x) ∧ e.mac = m) →
    InTransit s.sr frame r → nextHop r = x →
    ∃ buf, srHandlepacket s.sr frame interface env =
        some (s.sr, [⟨.forward, buf, r.interface⟩]) ∧
      srSendPacket s.sr ⟨.forward, buf, r.interface⟩ = true ∧
      load48 buf 0 = some m ∧ buf.drop etherLen = frame.drop etherLen
  announced : ∀ call ∈ s.sent, call.origin = .forward ∨ call.origin = .flush →
    ∀ r, InTransit s.sr call.buf r → nextHop r = x →
    ∃ m, load48 call.buf 0 = some m ∧ (x, m) ∈ s.learned

/-- No reply announces another Ethernet address for `x` while a mapping of `x` is valid. -/
def Consistent (x : Addr) (s : RouterRun) : RouterAction → Prop
  | .handlepacket frame _ _ => ∀ a ∈ announced frame, a.1 = x →
      ∀ e ∈ s.sr.cache.entries, e.Maps (swap32 x) → e.mac = a.2
  | _ => True

/-! ## The invariant -/

/-- The packet waits for the address of its route. -/
structure Waits (sr : SrInstance) (ip : Addr) (p : SrPacket) : Prop where
  length : etherLen ≤ p.buf.length
  iface : (srGetInterface sr p.iface).isSome
  route : ∃ r, routeOf sr p.buf = some r ∧ swap32 r.dest = ip

/-- The Ethernet address of the frame was announced for the destination of its route, as
long as the lookup of that is the right one. -/
def Addressed (x : Addr) (sr : SrInstance) (learned : List (Addr × Mac)) (call : SendCall) : Prop :=
  call.origin = .forward ∨ call.origin = .flush →
    ∀ r, routeOf sr call.buf = some r → r.dest = x → swap32 x = x →
      ∃ m, load48 call.buf 0 = some m ∧ (x, m) ∈ learned

structure Inv (x : Addr) (s : RouterRun) : Prop where
  wellFormed : s.sr.cache.WellFormed
  agree : ∀ e ∈ s.sr.cache.entries, ∀ e' ∈ s.sr.cache.entries,
    e.Maps (swap32 x) → e'.Maps (swap32 x) → e.mac = e'.mac
  learned : ∀ e ∈ s.sr.cache.entries, e.valid = true → (swap32 e.ip, e.mac) ∈ s.learned
  waits : ∀ ip, ∀ p ∈ s.sr.cache.packetsFor ip, Waits s.sr ip p
  sent : ∀ call ∈ s.sent, Addressed x s.sr s.learned call

variable {x : Addr} {s t : RouterRun} {a : RouterAction}

theorem Addressed.mono {sr : SrInstance} {learned learned' : List (Addr × Mac)} {call : SendCall}
    (h : Addressed x sr learned call) (hsub : learned ⊆ learned') :
    Addressed x sr learned' call := by
  intro horigin r hr hdest hswap
  obtain ⟨m, hm, hmem⟩ := h horigin r hr hdest hswap
  exact ⟨m, hm, hsub hmem⟩

/-- Routing looks at nothing that changes. -/
theorem addressed_cache {sr : SrInstance} {c : SrArpcache} {learned : List (Addr × Mac)}
    {call : SendCall} :
    Addressed x { sr with cache := c } learned call ↔ Addressed x sr learned call := by
  unfold Addressed
  simp only [routeOf_cache]

theorem Waits.cache {sr : SrInstance} {ip : Addr} {p : SrPacket} (h : Waits sr ip p)
    (c : SrArpcache) : Waits { sr with cache := c } ip p where
  length := h.length
  iface := h.iface
  route := by
    simp only [routeOf_cache]
    exact h.route

theorem inv_start (ifList : List SrIf) (routingTable : List SrRt) :
    Inv x (start ifList routingTable) where
  wellFormed := ⟨List.nodup_nil, nofun, List.nodup_nil, nofun⟩
  agree := by
    intro e he _ _ hmaps
    rw [List.eq_of_mem_replicate he] at hmaps
    cases hmaps.1
  learned := by
    intro e he hvalid
    rw [List.eq_of_mem_replicate he] at hvalid
    cases hvalid
  waits := nofun
  sent := nofun

theorem Inv.expire (h : Inv x s) (curtime : Int) :
    Inv x { s with sr := { s.sr with cache := { s.sr.cache with
      entries := expireEntries s.sr.cache.entries curtime } } } where
  wellFormed :=
    ⟨h.wellFormed.ids, h.wellFormed.created, h.wellFormed.ips, h.wellFormed.packets⟩
  agree := by
    intro e he e' he' hmaps hmaps'
    exact h.agree e (mem_expireEntries he hmaps.1).1 e' (mem_expireEntries he' hmaps'.1).1
      hmaps hmaps'
  learned := by
    intro e he hvalid
    exact h.learned e (mem_expireEntries he hvalid).1 hvalid
  waits ip p hp := (h.waits ip p hp).cache _
  sent call hcall := addressed_cache.mpr (h.sent call hcall)

/-- The requests change but not whom they have, and what is sent is addressed right. -/
theorem Inv.update {id : Nat} {f : SrArpreq → SrArpreq} {calls : List SendCall} (h : Inv x s)
    (hf : Keeps f) (hp : ∀ req, (f req).packets = req.packets)
    (hcalls : ∀ call ∈ calls, Addressed x s.sr s.learned call) :
    Inv x { s with
      sr := { s.sr with cache := s.sr.cache.update id f }
      sent := s.sent ++ calls } where
  wellFormed := h.wellFormed.update hf
  agree := h.agree
  learned := h.learned
  waits := by
    intro ip p hmem
    rw [packetsFor_update hf hp] at hmem
    exact (h.waits ip p hmem).cache _
  sent := by
    intro call hcall
    apply addressed_cache.mpr
    obtain hcall | hcall := List.mem_append.mp hcall
    · exact h.sent call hcall
    · exact hcalls call hcall

theorem Inv.queuereq {frame : List Byte} {r : SrRt} (h : Inv x s)
    (hroute : routeOf s.sr frame = some r) (hinter : (srGetInterface s.sr r.interface).isSome)
    (hlen : etherLen ≤ frame.length) :
    Inv x { s with sr := { s.sr with cache :=
      (srArpcacheQueuereq s.sr.cache (swap32 r.dest) frame r.interface).1 } } := by
  have hne : frame ≠ [] := by
    rintro rfl
    exact absurd hlen (by decide)
  have hentries := entries_srArpcacheQueuereq s.sr.cache (swap32 r.dest) frame r.interface
  constructor
  · exact h.wellFormed.queuereq hne
  · simp only [hentries]
    exact h.agree
  · simp only [hentries]
    exact h.learned
  · intro ip p hp
    apply Waits.cache
    apply forall_packetsFor_queuereq h.wellFormed hne h.waits _ ip p hp
    refine ⟨hlen, ?_, r, hroute, rfl⟩
    change (srGetInterface s.sr (r.interface.take srIfaceNamelen)).isSome
    rw [srGetInterface_take]
    exact hinter
  · exact fun call hcall => addressed_cache.mpr (h.sent call hcall)

/-- Answers and ARP requests are not addressed by the cache. -/
theorem addressed_of_origin {call : SendCall} {sr : SrInstance} {learned : List (Addr × Mac)}
    (h : call.origin ≠ .forward ∧ call.origin ≠ .flush) : Addressed x sr learned call :=
  fun horigin => absurd horigin (by simp [h.1, h.2])

theorem Inv.sendMore {calls : List SendCall} (h : Inv x s)
    (hcalls : ∀ call ∈ calls, Addressed x s.sr s.learned call) :
    Inv x { s with sent := s.sent ++ calls } where
  wellFormed := h.wellFormed
  agree := h.agree
  learned := h.learned
  waits := h.waits
  sent := by
    intro call hcall
    obtain hcall | hcall := List.mem_append.mp hcall
    · exact h.sent call hcall
    · exact hcalls call hcall

/-- A mapping that is found was announced for the address it is found under, if the two
orders of its bytes are the same. -/
theorem Inv.addressed_hit {frame : List Byte} {r : SrRt} {entry : SrArpentry} {addr : Mac}
    (h : Inv x s) (hroute : routeOf s.sr frame = some r)
    (hlookup : srArpcacheLookup s.sr.cache r.dest = some entry) :
    Addressed x s.sr s.learned
      ⟨.forward, le48 entry.mac ++ (le48 addr ++ frame.drop 12), r.interface⟩ := by
  intro _ r' hr' hdest hswap
  have hsame : routeOf s.sr (le48 entry.mac ++ (le48 addr ++ frame.drop 12)) = routeOf s.sr frame := by
    exact routeOf_of_drop_eq drop_addresses
  obtain rfl : r = r' := Option.some.inj (hroute.symm.trans (hsame.symm.trans hr'))
  obtain hnone | ⟨hmem, hvalid, hip⟩ := lookupLoop_mem hlookup
  · cases hnone
  · refine ⟨entry.mac, load48_dhost, ?_⟩
    have hlearned := h.learned entry hmem hvalid
    rw [hip, hdest, hswap] at hlearned
    exact hlearned

/-- A packet that waited is sent to the Ethernet address of the reply for its address. -/
theorem Inv.addressed_flush {sip : Addr} {sha : Mac} {call : SendCall} {p : SrPacket} (h : Inv x s)
    (hp : p ∈ s.sr.cache.packetsFor (swap32 sip)) (hflushed : Flushed s.sr sha call p) :
    Addressed x s.sr ((sip, sha) :: s.learned) call := by
  intro _ r hr hdest _
  obtain ⟨r', hroute, hip⟩ := (h.waits _ p hp).route
  rw [routeOf_of_drop_eq hflushed.payload, hroute] at hr
  obtain rfl := Option.some.inj hr
  have hsip : sip = x := by
    rw [← hdest, ← swap32_swap32 sip, ← hip, swap32_swap32]
  exact ⟨sha, hflushed.dhost, by simp [hsip]⟩

theorem Inv.reply {sip : Addr} {sha : Mac} {calls : List SendCall} (now : Int) (h : Inv x s)
    (hg : sip = x → ∀ e ∈ s.sr.cache.entries, e.Maps (swap32 x) → e.mac = sha)
    (hall : List.Forall₂ (Flushed s.sr sha) calls (s.sr.cache.packetsFor (swap32 sip))) :
    Inv x
      { sr := { s.sr with cache := { s.sr.cache with
          entries := insertEntry s.sr.cache.entries sha (swap32 sip) now
          requests := s.sr.cache.requests.filter (·.ip ≠ swap32 sip) } }
        learned := (sip, sha) :: s.learned
        sent := s.sent ++ calls } where
  wellFormed := h.wellFormed.filter _ _
  agree := by
    have hnew {e : SrArpentry} (he : e ∈ s.sr.cache.entries) (hmaps : e.Maps (swap32 x))
        (hsip : (newEntry sha (swap32 sip) now).Maps (swap32 x)) : e.mac = sha := by
      refine hg ?_ e he hmaps
      rw [← swap32_swap32 sip, ← swap32_swap32 x]
      exact congrArg swap32 hsip.2
    intro e he e' he' hmaps hmaps'
    obtain rfl | he := mem_insertEntry he
    · obtain rfl | he' := mem_insertEntry he'
      · rfl
      · exact (hnew he' hmaps' hmaps).symm
    · obtain rfl | he' := mem_insertEntry he'
      · exact hnew he hmaps hmaps'
      · exact h.agree e he e' he' hmaps hmaps'
  learned := by
    intro e he hvalid
    obtain rfl | he := mem_insertEntry he
    · simp [newEntry]
    · exact List.mem_cons_of_mem _ (h.learned e he hvalid)
  waits := by
    intro ip p hp
    exact (forall_packetsFor_filter h.waits _ ip p hp).cache _
  sent := by
    intro call hcall
    apply addressed_cache.mpr
    obtain hcall | hcall := List.mem_append.mp hcall
    · exact (h.sent call hcall).mono (List.subset_cons_self _ _)
    · obtain ⟨p, hp, hflushed⟩ := exists_flushed hall hcall
      exact h.addressed_flush hp hflushed

/-- What handling a frame adds to the record keeps the invariant. -/
theorem Inv.handled {frame : List Byte} {sr : SrInstance} {calls : List SendCall} {now : Int}
    (h : Inv x s)
    (hg : ∀ a ∈ Router.announced frame, a.1 = x →
      ∀ e ∈ s.sr.cache.entries, e.Maps (swap32 x) → e.mac = a.2)
    (hhandled : Handled s.sr frame now sr calls) :
    Inv x
      { sr := sr
        learned := (Router.announced frame).toList ++ s.learned
        sent := s.sent ++ calls.filter (srSendPacket s.sr) } := by
  have hicmp {answer : List SendCall} (hanswer : ∀ call ∈ answer, call.origin = .icmp) :
      ∀ call ∈ answer, Addressed x s.sr s.learned call := by
    intro call hcall
    apply addressed_of_origin
    simp [hanswer call hcall]
  cases hhandled with
  | other hframe hcalls =>
      rw [hframe]
      apply h.sendMore
      intro call hcall
      exact addressed_of_origin (hcalls call (List.mem_of_mem_filter hcall))
  | hit hframe hanswer hroute hlookup =>
      rw [hframe]
      apply h.sendMore
      intro call hcall
      obtain hcall | hcall := List.mem_append.mp (List.mem_of_mem_filter hcall)
      · exact hicmp hanswer call hcall
      · rw [List.mem_singleton.mp hcall]
        exact h.addressed_hit hroute hlookup
  | miss hframe hanswer hroute hinter hlen hcalls =>
      rw [hframe]
      obtain ⟨f, hf, hp, rfl, horigin⟩ := handleArpreq_cases hcalls
      apply (h.queuereq hroute hinter hlen).update hf hp
      intro call hcall
      apply addressed_cache.mpr
      obtain hcall | hcall := List.mem_append.mp (List.mem_of_mem_filter hcall)
      · exact hicmp hanswer call hcall
      · apply addressed_of_origin
        simp [horigin call hcall]
  | @reply sip sha _ _ hframe hsip hsha hreply =>
      obtain ⟨calls', hcalls, hall⟩ := flushLoop_spec sha fun p hp =>
        ⟨(h.waits (swap32 sip) p hp).length, (h.waits (swap32 sip) p hp).iface⟩
      rw [handleReply_eq h.wellFormed hsha hsip, hcalls, Option.map_some] at hreply
      obtain ⟨rfl, rfl⟩ := Prod.mk.inj (Option.some.inj hreply)
      have hpass : calls'.filter (srSendPacket s.sr) = calls' := by
        rw [List.filter_eq_self]
        intro call hcall
        obtain ⟨p, -, hp⟩ := exists_flushed hall hcall
        exact hp.passes
      rw [hframe, hpass]
      exact h.reply now (hg _ hframe) hall

theorem Inv.step (h : Inv x s) (hg : Consistent x s a) (hstep : s.step a = some t) : Inv x t := by
  cases a with
  | handlepacket frame interface env =>
      obtain ⟨⟨sr, calls⟩, hr, rfl⟩ := Option.map_eq_some_iff.mp hstep
      exact h.handled hg (srHandlepacket_handled hr)
  | expire curtime =>
      obtain rfl := Option.some.inj hstep
      exact h.expire curtime
  | handleArpreq id now =>
      obtain ⟨⟨sr, calls⟩, hr, rfl⟩ := Option.map_eq_some_iff.mp hstep
      obtain ⟨f, hf, hp, rfl, horigin⟩ := handleArpreq_cases hr
      apply h.update hf hp
      intro call hcall
      apply addressed_of_origin
      simp [horigin call (List.mem_of_mem_filter hcall)]

/-- The interfaces and the routes stay as they are. -/
theorem step_config (hstep : s.step a = some t) : ∃ c, t.sr = { s.sr with cache := c } := by
  cases a with
  | handlepacket frame interface env =>
      obtain ⟨⟨sr, calls⟩, hr, rfl⟩ := Option.map_eq_some_iff.mp hstep
      exact (srHandlepacket_handled hr).config
  | expire curtime =>
      obtain rfl := Option.some.inj hstep
      exact ⟨_, rfl⟩
  | handleArpreq id now =>
      obtain ⟨⟨sr, calls⟩, hr, rfl⟩ := Option.map_eq_some_iff.mp hstep
      obtain ⟨f, -, -, rfl, -⟩ := handleArpreq_cases hr
      exact ⟨_, rfl⟩

theorem Inv.direct {nextHop : SrRt → Addr} (h : Inv x s)
    (hroutes : ∀ frame r, InTransit s.sr frame r → nextHop r = x → r.dest = x ∧ swap32 x = x) :
    Direct nextHop x s where
  atOnce := by
    rintro m frame interface env r - ⟨e, he, hmaps, rfl⟩ htransit hhop
    obtain ⟨hdest, hswap⟩ := hroutes frame r htransit hhop
    have hip : e.ip = r.dest := by
      rw [hmaps.2, hswap, hdest]
    have hholds : Holds e s.sr.cache.entries := by
      apply holds_of_mem he
      intro e' he' hmaps'
      apply h.agree e' he' e he _ hmaps
      rw [hmaps.2] at hmaps'
      exact hmaps'
    have hfound := hholds.lookup hmaps.1 none
    rw [hip] at hfound
    obtain ⟨entry, hlookup, hmac⟩ := Option.map_eq_some_iff.mp hfound
    obtain ⟨inter, hinter⟩ :=
      Option.isSome_iff_exists.mp (routeOf_spec htransit.routeOf).2
    have hlen := htransit.length
    have hether : etherLen ≤ frame.length := le_trans (by decide) hlen
    have hforward := forward_hit env.now hether hinter hlookup
    refine ⟨_, (htransit.srHandlepacket interface env).trans hforward, ?_, ?_, ?_⟩
    · apply srSendPacket_addresses hinter
      rw [List.length_drop]
      omega
    · rw [load48_dhost, hmac]
    · exact drop_addresses
  announced := by
    intro call hcall horigin r htransit hhop
    obtain ⟨hdest, hswap⟩ := hroutes call.buf r htransit hhop
    exact h.sent call hcall horigin r htransit.routeOf hdest hswap

end RouterRun

end NetworkStack.Router
