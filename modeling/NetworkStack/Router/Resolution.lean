import NetworkStack.Lib.Deferred
import NetworkStack.Lib.Transition
import NetworkStack.Router.Handling

/-!
# Address resolution

A run queues packets for resolution, lets `handle_arpreq` go over requests, and handles
ARP replies, in any order. The packets of the requests are what waits in the history of
the run, so each packet is sent once, when the first later reply for its address comes.

A packet that is queued has an Ethernet header and an interface of the router: the only
caller of `sr_arpcache_queuereq` has read the one and looked up the other.
-/

namespace NetworkStack.Router

open Bytes Buffer Deferred Transition SrArpcache

/-- The router, what it has put on the wire, and what has happened. -/
structure Resolver where
  sr : SrInstance
  sent : List SendCall
  /-- The most recent event first. -/
  history : List (Event Addr SrPacket Mac)

inductive ResolverAction where
  | queuereq (ip : Addr) (packet : List Byte) (iface : IfName)
  | handleArpreq (id : Nat) (now : Int)
  | reply (frame : List Byte) (interface : IfName) (env : Env)
  deriving DecidableEq, Repr

/-- The address that an ARP reply is for, as requests have it, and its sender's Ethernet
address. -/
def arpReply (frame : List Byte) : Option (Addr × Mac) :=
  (announced frame).map fun r => (swap32 r.1, r.2)

namespace Resolver

variable {s t : Resolver} {a : ResolverAction}

/-- The frames of these calls that `sr_send_packet` puts on the wire. -/
def transmit (s : Resolver) (r : SrInstance × List SendCall) : Resolver :=
  { s with sr := r.1, sent := s.sent ++ r.2.filter (srSendPacket s.sr) }

def step (s : Resolver) : ResolverAction → Option Resolver
  | .queuereq ip packet iface =>
      if etherLen ≤ packet.length ∧ (srGetInterface s.sr iface).isSome then
        some { s with
          sr := { s.sr with cache := (srArpcacheQueuereq s.sr.cache ip packet iface).1 }
          history := .queued ip ⟨packet, iface⟩ :: s.history }
      else none
  | .handleArpreq id now => (Router.handleArpreq s.sr id now).map s.transmit
  | .reply frame interface env => do
      let (ip, mac) ← arpReply frame
      let r ← srHandlepacket s.sr frame interface env
      return { s.transmit r with history := .answered ip mac :: s.history }

/-- A router with nothing learned or queued. -/
def start (ifList : List SrIf) (routingTable : List SrRt) : Resolver where
  sr := { ifList := ifList, routingTable := routingTable, cache := srArpcacheInit }
  sent := []
  history := []

/-- The frame carries this packet, to the Ethernet address of the reply. -/
structure Carries (call : SendCall) (d : Delivery SrPacket Mac) : Prop where
  iface : call.iface = d.item.iface.take srIfaceNamelen
  dhost : load48 call.buf 0 = some d.answer
  payload : call.buf.drop etherLen = d.item.buf.drop etherLen
  length : call.buf.length = d.item.buf.length

/-- The deliveries are those of the packets queued in the history: each of them once, by
the first reply after it was queued, and none before. -/
structure Exact (log : List (Delivery SrPacket Mac)) (h : List (Event Addr SrPacket Mac)) :
    Prop where
  once : ∀ newer ip packet older, h = newer ++ .queued ip packet :: older →
    log.filter (·.serial = older.length) =
      ((firstAnswer ip newer).map fun mac => ⟨older.length, packet, mac⟩).toList
  only : ∀ d ∈ log, ∃ newer ip older,
    h = newer ++ .queued ip d.item :: older ∧ d.serial = older.length

/-- What holds of a router that resolves addresses. -/
structure Resolves (s : Resolver) : Prop where
  distinct : (s.sr.cache.requests.map SrArpreq.ip).Nodup
  nonempty : ∀ req ∈ s.sr.cache.requests, req.packets ≠ []
  /-- Apart from ARP requests, the queued packets are all that is sent. -/
  sent : ∀ call ∈ s.sent, call.origin = .flush ∨ call.origin = .arpRequest
  delivered : ∃ log, List.Forall₂ Carries (s.sent.filter (·.origin = .flush)) log ∧
    Exact log s.history
  /-- A reply is handled, and other requests stay as they are. -/
  reply : ∀ frame interface env ip mac, arpReply frame = some (ip, mac) →
    ∃ t, s.step (.reply frame interface env) = some t ∧
      t.sr.cache.requests = s.sr.cache.requests.filter (·.ip ≠ ip)
  resend : ∀ req ∈ s.sr.cache.requests, ∀ now, (s.step (.handleArpreq req.id now)).isSome

/-! ## The invariant -/

/-- The requests hold what waits in the history. -/
structure Simulates (s : Resolver) : Prop where
  wellFormed : s.sr.cache.WellFormed
  sendable : ∀ ip, ∀ p ∈ s.sr.cache.packetsFor ip,
    etherLen ≤ p.buf.length ∧ (srGetInterface s.sr p.iface).isSome
  waiting : ∀ ip, s.sr.cache.packetsFor ip =
    (waiting ip s.history).map fun w => queuedPacket w.2.buf w.2.iface
  sent : ∀ call ∈ s.sent, call.origin = .flush ∨ call.origin = .arpRequest
  delivered : List.Forall₂ Carries (s.sent.filter (·.origin = .flush)) (delivered s.history)

theorem exact_delivered (h : List (Event Addr SrPacket Mac)) : Exact (delivered h) h where
  once := by
    rintro newer ip packet older rfl
    exact filter_delivered ip packet newer older
  only _ hd := exists_of_delivered hd

theorem simulates_start (ifList : List SrIf) (routingTable : List SrRt) :
    (start ifList routingTable).Simulates where
  wellFormed := ⟨List.nodup_nil, nofun, List.nodup_nil, nofun⟩
  sendable := nofun
  waiting _ := rfl
  sent := nofun
  delivered := .nil

theorem Simulates.queuereq {ip : Addr} {packet : List Byte} {iface : IfName} (h : s.Simulates)
    (hlen : etherLen ≤ packet.length) (hinter : (srGetInterface s.sr iface).isSome) :
    Simulates { s with
      sr := { s.sr with cache := (srArpcacheQueuereq s.sr.cache ip packet iface).1 }
      history := .queued ip ⟨packet, iface⟩ :: s.history } := by
  have hne : packet ≠ [] := by
    rintro rfl
    exact absurd hlen (by decide)
  have hpackets := packetsFor_srArpcacheQueuereq h.wellFormed hne iface ip
  constructor
  · exact h.wellFormed.queuereq hne
  · apply forall_packetsFor_queuereq h.wellFormed hne h.sendable
    refine ⟨hlen, ?_⟩
    change (srGetInterface s.sr (iface.take srIfaceNamelen)).isSome
    rw [srGetInterface_take]
    exact hinter
  · intro ip'
    simp only [hpackets, Deferred.waiting]
    split
    · rw [List.map_cons, h.waiting ip']
    · exact h.waiting ip'
  · exact h.sent
  · exact h.delivered

theorem Simulates.handleArpreq {id : Nat} {now : Int} {r : SrInstance × List SendCall}
    (h : s.Simulates) (hr : Router.handleArpreq s.sr id now = some r) :
    (s.transmit r).Simulates := by
  obtain ⟨sr, calls⟩ := r
  obtain ⟨f, hf, hp, rfl, hcalls⟩ := handleArpreq_cases hr
  have hpackets (ip : Addr) : (s.sr.cache.update id f).packetsFor ip = s.sr.cache.packetsFor ip :=
    packetsFor_update hf hp
  constructor
  · exact h.wellFormed.update hf
  · intro ip p hmem
    exact h.sendable ip p (hpackets ip ▸ hmem)
  · intro ip
    exact (hpackets ip).trans (h.waiting ip)
  · intro call hcall
    obtain hcall | hcall := List.mem_append.mp hcall
    · exact h.sent call hcall
    · exact .inr (hcalls call (List.mem_of_mem_filter hcall))
  · have hnone : (calls.filter (srSendPacket s.sr)).filter (·.origin = .flush) = [] := by
      rw [List.filter_eq_nil_iff]
      intro call hcall
      simp [hcalls call (List.mem_of_mem_filter hcall)]
    change List.Forall₂ Carries ((s.sent ++ _).filter _) _
    rw [List.filter_append, hnone, List.append_nil]
    exact h.delivered

theorem Simulates.reply {frame : List Byte} {ip : Addr} {mac : Mac} (h : s.Simulates)
    (hreply : arpReply frame = some (ip, mac)) (interface : IfName) (env : Env) :
    ∃ t, s.step (.reply frame interface env) = some t ∧ t.Simulates ∧
      t.sr.cache.requests = s.sr.cache.requests.filter (·.ip ≠ ip) := by
  obtain ⟨⟨sip, sha⟩, hframe, heq⟩ := Option.map_eq_some_iff.mp hreply
  obtain ⟨rfl, rfl⟩ := Prod.mk.inj heq
  obtain ⟨hsip, hsha, hhandle⟩ := srHandlepacket_announced s.sr interface env hframe
  obtain ⟨calls, hcalls, hall⟩ := flushLoop_spec sha (h.sendable (swap32 sip))
  rw [handleReply_eq h.wellFormed hsha hsip, hcalls, Option.map_some] at hhandle
  have hpass : calls.filter (srSendPacket s.sr) = calls := by
    rw [List.filter_eq_self]
    intro call hcall
    obtain ⟨p, -, hp⟩ := exists_flushed hall hcall
    exact hp.passes
  have horigin : ∀ call ∈ calls, call.origin = .flush := by
    intro call hcall
    obtain ⟨p, -, hp⟩ := exists_flushed hall hcall
    exact hp.origin
  have hstep : s.step (.reply frame interface env) =
      (srHandlepacket s.sr frame interface env).map fun r =>
        { s.transmit r with history := .answered (swap32 sip) sha :: s.history } := by
    rw [step, hreply]
    cases srHandlepacket s.sr frame interface env <;> rfl
  rw [hhandle, Option.map_some] at hstep
  refine ⟨_, hstep, ?_, rfl⟩
  constructor
  · exact h.wellFormed.filter _ _
  · exact forall_packetsFor_filter h.sendable _
  · intro ip'
    simp only [transmit, packetsFor_filter, Deferred.waiting]
    split
    · rfl
    · exact h.waiting ip'
  · intro call hcall
    simp only [transmit, hpass] at hcall
    obtain hcall | hcall := List.mem_append.mp hcall
    · exact h.sent call hcall
    · exact .inl (horigin call hcall)
  · have hflush : calls.filter (·.origin = .flush) = calls := by
      rw [List.filter_eq_self]
      intro call hcall
      simpa using horigin call hcall
    have hlog : List.Forall₂ Carries calls
        ((Deferred.waiting (swap32 sip) s.history).map fun w => ⟨w.1, w.2, sha⟩) := by
      rw [h.waiting, List.forall₂_map_right_iff] at hall
      rw [List.forall₂_map_right_iff]
      exact hall.imp fun call w hw => ⟨hw.iface, hw.dhost, hw.payload, hw.length⟩
    simp only [transmit, hpass, List.filter_append, hflush, Deferred.delivered]
    exact List.rel_append h.delivered hlog

theorem Simulates.step (h : s.Simulates) (hstep : s.step a = some t) : t.Simulates := by
  cases a with
  | queuereq ip packet iface =>
      simp only [Resolver.step] at hstep
      split at hstep
      · rename_i hok
        obtain rfl := Option.some.inj hstep
        exact h.queuereq hok.1 hok.2
      · cases hstep
  | handleArpreq id now =>
      obtain ⟨r, hr, rfl⟩ := Option.map_eq_some_iff.mp hstep
      exact h.handleArpreq hr
  | reply frame interface env =>
      obtain ⟨⟨ip, mac⟩, hreply, -⟩ := Option.bind_eq_some_iff.mp hstep
      obtain ⟨u, hu, hsim, -⟩ := h.reply hreply interface env
      obtain rfl := Option.some.inj (hu.symm.trans hstep)
      exact hsim

theorem Simulates.resolves (h : s.Simulates) : s.Resolves where
  distinct := h.wellFormed.ips
  nonempty := h.wellFormed.packets
  sent := h.sent
  delivered := ⟨_, h.delivered, exact_delivered s.history⟩
  reply := by
    intro frame interface env ip mac hreply
    obtain ⟨t, ht, -, hrequests⟩ := h.reply hreply interface env
    exact ⟨t, ht, hrequests⟩
  resend := by
    intro req hreq now
    rw [Resolver.step, Option.isSome_map]
    exact handleArpreq_isSome h.wellFormed hreq (fun p hp => (h.sendable req.ip p hp).2) now

/-- In every run each queued packet is sent once, when the first later reply for its
address is handled, and requests of different addresses do not interfere. -/
theorem resolves_exec {ifList : List SrIf} {routingTable : List SrRt} {acts : List ResolverAction}
    {t : Resolver} (h : exec step (start ifList routingTable) acts = some t) : t.Resolves := by
  have hsim : t.Simulates :=
    exec_keeps (P := Simulates) (fun _ _ _ hs hstep => hs.step hstep)
      (simulates_start ifList routingTable) h
  exact hsim.resolves

/-- Three packets for two addresses; the address of two of them is answered. -/
def twoAddresses : List ResolverAction :=
  [.queuereq 0x0a000164 (List.replicate 34 1) eth3.name,
    .handleArpreq 0 10,
    .queuereq 0x0a000165 (List.replicate 40 2) eth3.name,
    .queuereq 0x0a000164 (List.replicate 20 3) eth3.name,
    .reply (arpReplyFrame 7 (swap32 0x0a000164) eth3.addr eth3.ip) eth3.name ⟨11, 0, 0⟩,
    .handleArpreq 1 12]

theorem resolves_twoAddresses :
    ∃ t, exec step (start [eth3] []) twoAddresses = some t ∧ t.Resolves := by
  have hsome : (exec step (start [eth3] []) twoAddresses).isSome = true := by decide +kernel
  obtain ⟨t, ht⟩ := Option.isSome_iff_exists.mp hsome
  exact ⟨t, ht, resolves_exec ht⟩

end Resolver

end NetworkStack.Router
