import NetworkStack.Lib.Transition
import NetworkStack.Router.Handling
import NetworkStack.Router.VnsComm

/-!
# The router at work

Once it is connected, the router handles one command of the server after the other, and the
thread of the ARP cache lets mappings expire and goes over the requests. In every state
that is reached this way, a packet that waits can be sent on: it has an Ethernet header
and its interface exists.
-/

namespace NetworkStack.Router

open Bytes Buffer Transition SrArpcache

inductive MainAction where
  | command (command : BitVec 32) (buf : List Byte) (env : Env) (uninit : Mac × Addr)
  /-- The first loop of `sr_arpcache_timeout`. -/
  | expire (curtime : Int)
  /-- One round of `sr_arpcache_sweepreqs`. -/
  | handleArpreq (id : Nat) (now : Int)
  deriving DecidableEq, Repr

/-- A step of the router; the loop of `main` goes on after a command that returns 1. -/
def mainStep (session : Session) (sr : SrInstance) : MainAction → Option SrInstance
  | .command command buf env uninit => do
      let outcome ← dispatch sr session command buf env uninit
      if outcome.ret = 1 then return outcome.sr else none
  | .expire curtime =>
      some { sr with cache := { sr.cache with entries := expireEntries sr.cache.entries curtime } }
  | .handleArpreq id now => (handleArpreq sr id now).map Prod.fst

/-- The router after `sr_init`. -/
def srInit (ifList : List SrIf) (routingTable : List SrRt) : SrInstance where
  ifList := ifList
  routingTable := routingTable
  cache := srArpcacheInit

/-- The packets that wait can be sent on. -/
structure Queued (sr : SrInstance) : Prop where
  wellFormed : sr.cache.WellFormed
  sendable : ∀ ip, ∀ p ∈ sr.cache.packetsFor ip,
    etherLen ≤ p.buf.length ∧ (srGetInterface sr p.iface).isSome

/-- What one router knows the other knows, and its requests are the same. -/
structure Grows (sr t : SrInstance) : Prop where
  cache : t.cache = sr.cache
  interfaces : ∀ name, (srGetInterface sr name).isSome → (srGetInterface t name).isSome

variable {sr t : SrInstance} {frame : List Byte} {calls : List SendCall} {session : Session}

/-! ## Interfaces -/

theorem srGetInterface_isSome {name : IfName} :
    (srGetInterface sr name).isSome ↔
      ∃ n ∈ sr.ifList.map SrIf.name, n.take srIfaceNamelen = name.take srIfaceNamelen := by
  simp [srGetInterface, List.find?_isSome]

theorem Grows.refl (sr : SrInstance) : Grows sr sr := ⟨rfl, fun _ h => h⟩

theorem Grows.trans {u : SrInstance} (h : Grows sr t) (h' : Grows t u) : Grows sr u where
  cache := h'.cache.trans h.cache
  interfaces name hname := h'.interfaces name (h.interfaces name hname)

theorem grows_of_prefix (hcache : t.cache = sr.cache)
    (h : sr.ifList.map SrIf.name <+: t.ifList.map SrIf.name) : Grows sr t where
  cache := hcache
  interfaces name hname := by
    obtain ⟨n, hmem, hn⟩ := srGetInterface_isSome.mp hname
    exact srGetInterface_isSome.mpr ⟨n, h.subset hmem, hn⟩

/-- The last interface is changed but keeps its name. -/
theorem setLast_grows {f : SrIf → SrIf} (h : setLast sr f = some t)
    (hf : ∀ i, (f i).name = i.name) : Grows sr t := by
  unfold setLast at h
  cases hlast : sr.ifList.getLast? with
  | none =>
      rw [hlast] at h
      cases h
  | some last =>
      rw [hlast] at h
      obtain rfl := Option.some.inj h
      have hsplit : sr.ifList = sr.ifList.dropLast ++ [last] := by
        rw [List.dropLast_append_getLast? last hlast]
      refine grows_of_prefix (by rfl) ?_
      conv_lhs => rw [hsplit]
      simp [hf]

theorem hwEntry_grows {buf : List Byte} {start : Nat} {uninit : Mac × Addr}
    (h : hwEntry buf start uninit sr = some t) : Grows sr t := by
  obtain ⟨key, -, h⟩ := Option.bind_eq_some_iff.mp h
  simp only at h
  split at h
  · obtain ⟨name, -, h⟩ := Option.bind_eq_some_iff.mp h
    obtain rfl := Option.some.inj h
    refine grows_of_prefix (by rfl) ?_
    simp [srAddInterface]
  · split at h
    · obtain ⟨ip, -, h⟩ := Option.bind_eq_some_iff.mp h
      exact setLast_grows h fun _ => rfl
    · split at h
      · obtain ⟨addr, -, h⟩ := Option.bind_eq_some_iff.mp h
        exact setLast_grows h fun _ => rfl
      · obtain rfl := Option.some.inj h
        exact .refl sr

theorem hwinfoLoop_grows {buf : List Byte} {uninit : Mac × Addr} {entries i : Nat}
    (h : hwinfoLoop buf uninit entries i sr = some t) : Grows sr t := by
  induction entries generalizing i sr with
  | zero =>
      obtain rfl := Option.some.inj h
      exact .refl sr
  | succ entries ih =>
      obtain ⟨u, hu, h⟩ := Option.bind_eq_some_iff.mp h
      exact (hwEntry_grows hu).trans (ih h)

/-! ## The invariant -/

theorem queued_srInit (ifList : List SrIf) (routingTable : List SrRt) :
    Queued (srInit ifList routingTable) where
  wellFormed := ⟨List.nodup_nil, nofun, List.nodup_nil, nofun⟩
  sendable := nofun

theorem Queued.grows (h : Queued sr) (hgrows : Grows sr t) : Queued t where
  wellFormed := by
    rw [hgrows.cache]
    exact h.wellFormed
  sendable := by
    intro ip p hp
    rw [hgrows.cache] at hp
    obtain ⟨hlen, hiface⟩ := h.sendable ip p hp
    exact ⟨hlen, hgrows.interfaces p.iface hiface⟩

theorem Queued.expire (h : Queued sr) (entries : List SrArpentry) :
    Queued { sr with cache := { sr.cache with entries := entries } } where
  wellFormed :=
    ⟨h.wellFormed.ids, h.wellFormed.created, h.wellFormed.ips, h.wellFormed.packets⟩
  sendable := h.sendable

theorem Queued.handleArpreq {id : Nat} {now : Int} (h : Queued sr)
    (hr : Router.handleArpreq sr id now = some (t, calls)) : Queued t := by
  obtain ⟨f, hf, hp, rfl, -⟩ := handleArpreq_cases hr
  constructor
  · exact h.wellFormed.update hf
  · intro ip p hmem
    rw [packetsFor_update hf hp] at hmem
    exact h.sendable ip p hmem

theorem Queued.queuereq {iface : IfName} (h : Queued sr) (ip : Addr)
    (hlen : etherLen ≤ frame.length) (hinter : (srGetInterface sr iface).isSome) :
    Queued { sr with cache := (srArpcacheQueuereq sr.cache ip frame iface).1 } := by
  have hne : frame ≠ [] := by
    rintro rfl
    exact absurd hlen (by decide)
  constructor
  · exact h.wellFormed.queuereq hne
  · apply forall_packetsFor_queuereq h.wellFormed hne h.sendable
    refine ⟨hlen, ?_⟩
    change (srGetInterface sr (iface.take srIfaceNamelen)).isSome
    rw [srGetInterface_take]
    exact hinter

/-- The request of an address is gone after the reply to it. -/
theorem Queued.reply (h : Queued sr) (ip : Addr) (entries : List SrArpentry) :
    Queued { sr with cache := { sr.cache with
      entries := entries, requests := sr.cache.requests.filter (·.ip ≠ ip) } } where
  wellFormed := h.wellFormed.filter _ _
  sendable := forall_packetsFor_filter h.sendable _

/-- An ARP reply is handled, and the packets that waited for it are sent. -/
theorem Queued.handleReply_eq {sha : Mac} {sip : Addr} (h : Queued sr)
    (hsha : load48 frame 22 = some sha) (hsip : load32 frame 28 = some sip) (now : Int) :
    ∃ calls, List.Forall₂ (Flushed sr sha) calls (sr.cache.packetsFor (swap32 sip)) ∧
      handleReply sr frame now = some ({ sr with cache := { sr.cache with
        entries := insertEntry sr.cache.entries sha (swap32 sip) now
        requests := sr.cache.requests.filter (·.ip ≠ swap32 sip) } }, calls) := by
  obtain ⟨calls, hcalls, hall⟩ := flushLoop_spec sha (h.sendable (swap32 sip))
  refine ⟨calls, hall, ?_⟩
  rw [Router.handleReply_eq h.wellFormed hsha hsip, hcalls, Option.map_some]

theorem Queued.handled {now : Int} (h : Queued sr) (hhandled : Handled sr frame now t calls) :
    Queued t := by
  cases hhandled with
  | other => exact h
  | hit => exact h
  | miss _ _ _ hinter hlen hcalls => exact (h.queuereq _ hlen hinter).handleArpreq hcalls
  | reply _ hsip hsha hreply =>
      obtain ⟨calls', -, heq⟩ := h.handleReply_eq hsha hsip now
      obtain ⟨rfl, rfl⟩ := Prod.mk.inj (Option.some.inj (heq.symm.trans hreply))
      exact h.reply _ _

/-! ## Commands -/

/-- What a command can do to the router. -/
theorem dispatch_cases {command : BitVec 32} {buf : List Byte} {env : Env} {uninit : Mac × Addr}
    {outcome : Outcome} (h : dispatch sr session command buf env uninit = some outcome) :
    Grows sr outcome.sr ∨ ∃ frame now calls, Handled sr frame now outcome.sr calls := by
  have hquiet (ret : Int) (hret : Outcome.quiet sr ret = outcome) : Grows sr outcome.sr := by
    subst hret
    exact .refl sr
  unfold dispatch at h
  split at h
  · split at h
    · cases h
    · obtain ⟨name, -, h⟩ := Option.bind_eq_some_iff.mp h
      obtain ⟨drop, -, h⟩ := Option.bind_eq_some_iff.mp h
      split at h
      · exact .inl (hquiet _ (Option.some.inj h))
      · obtain ⟨⟨t, calls⟩, ht, h⟩ := Option.bind_eq_some_iff.mp h
        obtain rfl := Option.some.inj h
        exact .inr ⟨_, _, _, srHandlepacket_handled ht⟩
  · left
    split at h
    · exact hquiet _ (Option.some.inj h)
    · split at h
      · obtain ⟨t, ht, h⟩ := Option.bind_eq_some_iff.mp h
        obtain rfl := Option.some.inj h
        exact hwinfoLoop_grows ht
      · split at h
        · obtain ⟨ok, -, h⟩ := Option.bind_eq_some_iff.mp h
          exact hquiet _ (Option.some.inj h)
        · split at h
          · split at h
            · obtain rfl := Option.some.inj h
              exact .refl sr
            · exact hquiet _ (Option.some.inj h)
          · split at h
            · obtain ⟨b, -, h⟩ := Option.bind_eq_some_iff.mp h
              exact hquiet _ (Option.some.inj h)
            · exact hquiet _ (Option.some.inj h)

theorem Queued.step {a : MainAction} (h : Queued sr) (hstep : mainStep session sr a = some t) :
    Queued t := by
  cases a with
  | command command buf env uninit =>
      obtain ⟨outcome, houtcome, hstep⟩ := Option.bind_eq_some_iff.mp hstep
      split at hstep
      · obtain rfl := Option.some.inj hstep
        obtain hgrows | ⟨frame, now, calls, hhandled⟩ := dispatch_cases houtcome
        · exact h.grows hgrows
        · exact h.handled hhandled
      · cases hstep
  | expire curtime =>
      obtain rfl := Option.some.inj hstep
      exact h.expire _
  | handleArpreq id now =>
      obtain ⟨⟨u, calls⟩, hu, rfl⟩ := Option.map_eq_some_iff.mp hstep
      exact h.handleArpreq hu

theorem queued_exec {ifList : List SrIf} {routingTable : List SrRt} {acts : List MainAction}
    (h : exec (mainStep session) (srInit ifList routingTable) acts = some sr) : Queued sr :=
  exec_keeps (P := Queued) (fun _ _ _ hs hstep => hs.step hstep)
    (queued_srInit ifList routingTable) h

/-- The route to a host, 10.0.1.100. -/
def hostRoute : SrRt where
  dest := 0x6401000a
  gw := 0x6401000a
  mask := 0xffffffff
  interface := eth3.name

/-- A UDP packet to that host. -/
def hostFrame : List Byte :=
  le48 eth3.addr ++ le48 9 ++ le16 (swap16 ethertypeIp) ++
    [0x45, 0, 0, 28, 0, 0, 0, 0, 64, 17, 0, 0] ++ le32 0x0202a8c0 ++ le32 hostRoute.dest ++
    [0, 53, 0, 53, 0, 8, 0, 0]

/-- The packet comes in and waits, and its address is asked for twice. -/
def hostWaits : List MainAction :=
  [.command vnsPacket (packetMessage ⟨.forward, hostFrame, eth3.name⟩) ⟨10, 0, 0⟩ (0, 0),
    .handleArpreq 0 12]

end NetworkStack.Router
