import NetworkStack.Router.Frames
import NetworkStack.Router.Requests

/-!
# What handling a frame can do

`Handled` lists the cases of `sr_handlepacket` as far as routing and the ARP cache are
concerned: something else, a packet sent on at once, a packet that has to wait, and an ARP
reply.
-/

namespace NetworkStack.Router

open Bytes Buffer

/-- The mapping that an ARP reply announces, as the host loads its fields. -/
def announced (frame : List Byte) : Option (Addr × Mac) :=
  if load16 frame 12 = some (swap16 ethertypeArp) ∧
      load16 frame 20 = some (swap16 arpOpReply) then do
    return (← load32 frame 28, ← load48 frame 22)
  else none

/-- An ARP reply. -/
def arpReplyFrame (sha : Mac) (sip : Addr) (tha : Mac) (tip : Addr) : List Byte :=
  le48 tha ++ le48 sha ++ le16 (swap16 ethertypeArp) ++
    le16 (swap16 1) ++ le16 (swap16 2048) ++ [6, 4] ++ le16 (swap16 arpOpReply) ++
    le48 sha ++ le32 sip ++ le48 tha ++ le32 tip

theorem announced_arpReplyFrame (sha : Mac) (sip : Addr) (tha : Mac) (tip : Addr) :
    announced (arpReplyFrame sha sip tha tip) = some (sip, sha) := by
  have hsip := ofLe32_extract sip
  have hsha := ofLe48_extract sha
  simp only [announced, load16, load32, load48, arpReplyFrame, le48, le16, le32, List.cons_append,
    List.nil_append, List.getElem?_cons_succ, List.getElem?_cons_zero, Option.bind_eq_bind,
    Option.bind_some, Option.pure_def, hsip, hsha]
  rw [if_pos (by decide)]

/-- The route that the loop of `sr_handlepacket` ends with for the packet in a frame. -/
def routeOf (sr : SrInstance) (frame : List Byte) : Option SrRt := do
  let ipDst ← load32 frame 30
  let (_, longs) ← routeLoop sr (swap32 ipDst) sr.routingTable 0 none
  longs

/-- What handling a frame can do. -/
inductive Handled (sr : SrInstance) (frame : List Byte) (now : Int) :
    SrInstance → List SendCall → Prop
  | other {calls : List SendCall} (hframe : announced frame = none)
      (hcalls : ∀ call ∈ calls, call.origin ≠ .forward ∧ call.origin ≠ .flush) :
      Handled sr frame now sr calls
  | hit {r : SrRt} {entry : SrArpentry} {inter : SrIf} {answer : List SendCall}
      (hframe : announced frame = none)
      (hanswer : ∀ call ∈ answer, call.origin = .icmp)
      (hroute : routeOf sr frame = some r)
      (hlookup : srArpcacheLookup sr.cache r.dest = some entry) :
      Handled sr frame now sr (answer ++
        [⟨.forward, le48 entry.mac ++ (le48 inter.addr ++ frame.drop 12), r.interface⟩])
  | miss {r : SrRt} {t : SrInstance} {answer calls : List SendCall}
      (hframe : announced frame = none)
      (hanswer : ∀ call ∈ answer, call.origin = .icmp)
      (hroute : routeOf sr frame = some r)
      (hinter : (srGetInterface sr r.interface).isSome)
      (hlen : etherLen ≤ frame.length)
      (hcalls : handleArpreq
        { sr with cache :=
          (srArpcacheQueuereq sr.cache (swap32 r.dest) frame r.interface).1 }
        (srArpcacheQueuereq sr.cache (swap32 r.dest) frame r.interface).2 now =
          some (t, calls)) :
      Handled sr frame now t (answer ++ calls)
  | reply {sip : Addr} {sha : Mac} {t : SrInstance} {calls : List SendCall}
      (hframe : announced frame = some (sip, sha))
      (hsip : load32 frame 28 = some sip) (hsha : load48 frame 22 = some sha)
      (hreply : handleReply sr frame now = some (t, calls)) :
      Handled sr frame now t calls

variable {sr t : SrInstance} {frame : List Byte} {interface : IfName} {env : Env}
  {calls : List SendCall} {r : SrRt}

/-! ## Routes -/

/-- A route that the loop finds is in the table, and its interface is known. -/
theorem routeLoop_mem {destIp longest : Addr} {longs : Option SrRt} {table : List SrRt} {b : Bool}
    (h : routeLoop sr destIp table longest longs = some (b, some r)) :
    longs = some r ∨ (r ∈ table ∧ (srGetInterface sr r.interface).isSome) := by
  induction table generalizing longest longs with
  | nil =>
      obtain ⟨-, hlongs⟩ := Prod.mk.inj (Option.some.inj h)
      exact .inl hlongs
  | cons route rest ih =>
      obtain ⟨inter, hinter, h⟩ := Option.bind_eq_some_iff.mp h
      have hhead : route ∈ route :: rest ∧ (srGetInterface sr route.interface).isSome :=
        ⟨List.mem_cons_self, by rw [hinter]; rfl⟩
      have htail (hrest : r ∈ rest ∧ (srGetInterface sr r.interface).isSome) :
          r ∈ route :: rest ∧ (srGetInterface sr r.interface).isSome :=
        ⟨List.mem_cons_of_mem route hrest.1, hrest.2⟩
      split at h
      · obtain ⟨-, hr⟩ := Prod.mk.inj (Option.some.inj h)
        obtain rfl := Option.some.inj hr
        exact .inr hhead
      · simp only at h
        split at h
        · obtain hr | hrest := ih h
          · obtain rfl := Option.some.inj hr
            exact .inr hhead
          · exact .inr (htail hrest)
        · exact (ih h).imp_right htail

/-- Routing does not depend on the cache. -/
theorem routeLoop_cache (sr : SrInstance) (c : SrArpcache) (destIp longest : Addr)
    (longs : Option SrRt) (table : List SrRt) :
    routeLoop { sr with cache := c } destIp table longest longs =
      routeLoop sr destIp table longest longs := by
  induction table generalizing longest longs with
  | nil => rfl
  | cons route rest ih =>
      rw [routeLoop, routeLoop]
      simp only [ih]
      rfl

theorem routeOf_cache (sr : SrInstance) (c : SrArpcache) (frame : List Byte) :
    routeOf { sr with cache := c } frame = routeOf sr frame := by
  unfold routeOf
  simp only [routeLoop_cache]

theorem routeOf_of_drop_eq {a b : List Byte} (h : a.drop etherLen = b.drop etherLen) :
    routeOf sr a = routeOf sr b := by
  unfold routeOf
  rw [load32_of_drop_eq h (show etherLen ≤ 30 by decide)]

theorem routeOf_spec (h : routeOf sr frame = some r) :
    r ∈ sr.routingTable ∧ (srGetInterface sr r.interface).isSome := by
  obtain ⟨ipDst, -, h⟩ := Option.bind_eq_some_iff.mp h
  obtain ⟨⟨b, longs⟩, hloop, h⟩ := Option.bind_eq_some_iff.mp h
  obtain rfl : longs = some r := h
  obtain hnone | hmem := routeLoop_mem hloop
  · cases hnone
  · exact hmem

/-! ## The cases -/

theorem load32_length {buf : List Byte} {i : Nat} {x : BitVec 32} (h : load32 buf i = some x) :
    i + 4 ≤ buf.length := by
  obtain ⟨_, -, h⟩ := Option.bind_eq_some_iff.mp h
  obtain ⟨_, -, h⟩ := Option.bind_eq_some_iff.mp h
  obtain ⟨_, -, h⟩ := Option.bind_eq_some_iff.mp h
  obtain ⟨_, hlast, -⟩ := Option.bind_eq_some_iff.mp h
  have hlt := (List.getElem?_eq_some_iff.mp hlast).1
  omega

/-- The frame of a packet that is sent on at once. -/
theorem forward_hit {entry : SrArpentry} {inter : SrIf} (now : Int)
    (hlen : etherLen ≤ frame.length) (hinter : srGetInterface sr r.interface = some inter)
    (hlookup : srArpcacheLookup sr.cache r.dest = some entry) :
    forward sr frame r now = some (sr,
      [⟨.forward, le48 entry.mac ++ (le48 inter.addr ++ frame.drop 12), r.interface⟩]) := by
  obtain ⟨buf, hdhost, hshost⟩ :=
    Option.bind_eq_some_iff.mp (store_addresses entry.mac inter.addr hlen).2
  simp only [forward, hlookup, hinter, hdhost, hshost, Option.bind_eq_bind, Option.bind_some,
    Option.pure_def]

/-- A packet that is not sent at once causes nothing but an ARP request. -/
theorem forward_miss {now : Int} (hlookup : srArpcacheLookup sr.cache r.dest = none)
    (h : forward sr frame r now = some (t, calls)) : ∀ call ∈ calls, call.origin = .arpRequest := by
  simp only [forward, hlookup] at h
  obtain ⟨_, -, -, -, horigin⟩ := handleArpreq_cases h
  exact horigin

theorem icmp_origin {type code : Byte} {unused : BitVec 32} {call : SendCall}
    (h : icmp sr frame type code interface unused = some call) : call.origin = .icmp := by
  simp only [icmp, Option.bind_eq_bind, Option.bind_eq_some_iff, Option.pure_def,
    Option.some.injEq] at h
  obtain ⟨_, -, _, -, _, -, _, -, _, -, _, -, _, -, _, -, rfl⟩ := h
  rfl

theorem echo_origin {call : SendCall} (h : echo sr frame r interface = some call) :
    call.origin = .echoReply := by
  simp only [echo, Option.bind_eq_bind, Option.bind_eq_some_iff, Option.pure_def,
    Option.some.injEq] at h
  obtain ⟨_, -, _, -, _, -, _, -, _, -, _, -, _, -, _, -, _, -, _, -, _, -, _, -, _, -, _, -, _, -,
    rfl⟩ := h
  rfl

theorem replyToRequest_origin {inter : SrIf} {call : SendCall}
    (h : replyToRequest frame inter interface = some call) : call.origin = .arpReply := by
  simp only [replyToRequest, Option.bind_eq_bind, Option.bind_eq_some_iff, Option.pure_def,
    Option.some.injEq] at h
  obtain ⟨_, -, _, -, _, -, _, -, _, -, _, -, _, -, _, -, _, -, _, -, _, -, _, -, rfl⟩ := h
  rfl

/-- The packet goes to the forwarding code after the answers that it may get. -/
theorem forward_handled {answer : List SendCall} (hframe : announced frame = none)
    (hanswer : ∀ call ∈ answer, call.origin = .icmp) (hroute : routeOf sr frame = some r)
    (hlen : etherLen ≤ frame.length) (h : forward sr frame r env.now = some (t, calls)) :
    Handled sr frame env.now t (answer ++ calls) := by
  obtain ⟨-, hinter⟩ := routeOf_spec hroute
  cases hlookup : srArpcacheLookup sr.cache r.dest with
  | some entry =>
      obtain ⟨inter, hinter⟩ := Option.isSome_iff_exists.mp hinter
      rw [forward_hit env.now hlen hinter hlookup] at h
      obtain ⟨rfl, rfl⟩ := Prod.mk.inj (Option.some.inj h)
      exact .hit hframe hanswer hroute hlookup
  | none =>
      simp only [forward, hlookup] at h
      exact .miss hframe hanswer hroute hinter hlen h

theorem handleIp_handled (hframe : announced frame = none)
    (h : handleIp sr frame interface env = some (t, calls)) : Handled sr frame env.now t calls := by
  obtain ⟨ipDst, hdst, h⟩ := Option.bind_eq_some_iff.mp h
  obtain ⟨⟨sendRouter, longs⟩, hloop, h⟩ := Option.bind_eq_some_iff.mp h
  obtain ⟨proto, -, h⟩ := Option.bind_eq_some_iff.mp h
  have hlen : etherLen ≤ frame.length := by
    have hdst := load32_length hdst
    unfold etherLen
    omega
  have hroute {r : SrRt} (hr : longs = some r) : routeOf sr frame = some r := by
    simp only [routeOf, hdst, hloop, hr, Option.bind_eq_bind, Option.bind_some]
  split at h
  · obtain ⟨r, -, h⟩ := Option.bind_eq_some_iff.mp h
    obtain ⟨call, hecho, h⟩ := Option.bind_eq_some_iff.mp h
    obtain ⟨rfl, rfl⟩ := Prod.mk.inj (Option.some.inj h)
    apply Handled.other hframe
    simp [echo_origin hecho]
  · obtain ⟨answer, hanswer, h⟩ := Option.bind_eq_some_iff.mp h
    have hicmp : ∀ call ∈ answer, call.origin = .icmp := by
      unfold portUnreachable at hanswer
      split at hanswer
      · obtain ⟨call, hcall, rfl⟩ := Option.map_eq_some_iff.mp hanswer
        simpa using icmp_origin hcall
      · obtain rfl := Option.some.inj hanswer
        nofun
    obtain ⟨ttl, -, h⟩ := Option.bind_eq_some_iff.mp h
    split at h
    · obtain ⟨call, hcall, h⟩ := Option.bind_eq_some_iff.mp h
      obtain ⟨rfl, rfl⟩ := Prod.mk.inj (Option.some.inj h)
      apply Handled.other hframe
      intro call' hmem
      have horigin : call'.origin = .icmp := by
        obtain hmem | hmem := List.mem_append.mp hmem
        · exact hicmp call' hmem
        · rw [List.mem_singleton.mp hmem]
          exact icmp_origin hcall
      simp [horigin]
    · obtain ⟨r, hr, h⟩ := Option.bind_eq_some_iff.mp h
      obtain ⟨⟨t', calls'⟩, hforward, h⟩ := Option.bind_eq_some_iff.mp h
      obtain ⟨rfl, rfl⟩ := Prod.mk.inj (Option.some.inj h)
      exact forward_handled hframe hicmp (hroute hr) hlen hforward

theorem handleArp_handled (htype : load16 frame 12 = some (swap16 ethertypeArp))
    (h : handleArp sr frame interface env.now = some (t, calls)) :
    Handled sr frame env.now t calls := by
  obtain ⟨op, hop, h⟩ := Option.bind_eq_some_iff.mp h
  have hnone (hne : swap16 op ≠ arpOpReply) : announced frame = none := by
    apply if_neg
    rintro ⟨-, hreply⟩
    obtain rfl := Option.some.inj (hop.symm.trans hreply)
    exact hne (by decide)
  split at h
  · rename_i hrequest
    have hframe := hnone (by rw [hrequest]; decide)
    obtain ⟨inter, -, h⟩ := Option.bind_eq_some_iff.mp h
    obtain ⟨tip, -, h⟩ := Option.bind_eq_some_iff.mp h
    split at h
    · obtain ⟨call, hcall, h⟩ := Option.bind_eq_some_iff.mp h
      obtain ⟨rfl, rfl⟩ := Prod.mk.inj (Option.some.inj h)
      apply Handled.other hframe
      simp [replyToRequest_origin hcall]
    · obtain ⟨rfl, rfl⟩ := Prod.mk.inj (Option.some.inj h)
      exact .other hframe nofun
  · split at h
    · rename_i hreply
      have hop' : load16 frame 20 = some (swap16 arpOpReply) := by
        rw [hop, ← hreply, swap16_swap16]
      obtain ⟨sha, hsha, h'⟩ := Option.bind_eq_some_iff.mp h
      obtain ⟨sip, hsip, -⟩ := Option.bind_eq_some_iff.mp h'
      apply Handled.reply _ hsip hsha h
      rw [announced, if_pos ⟨htype, hop'⟩, hsip, hsha]
      rfl
    · rename_i hne
      obtain ⟨rfl, rfl⟩ := Prod.mk.inj (Option.some.inj h)
      exact .other (hnone hne) nofun

/-- Where `sr_handlepacket` takes an ARP reply. -/
theorem srHandlepacket_announced {sip : Addr} {sha : Mac} (sr : SrInstance) (interface : IfName)
    (env : Env) (h : announced frame = some (sip, sha)) :
    load32 frame 28 = some sip ∧ load48 frame 22 = some sha ∧
      srHandlepacket sr frame interface env = handleReply sr frame env.now := by
  unfold announced at h
  split at h
  · rename_i hreply
    obtain ⟨htype, hop⟩ := hreply
    obtain ⟨sip', hsip, h⟩ := Option.bind_eq_some_iff.mp h
    obtain ⟨sha', hsha, h⟩ := Option.bind_eq_some_iff.mp h
    obtain ⟨rfl, rfl⟩ := Prod.mk.inj (Option.some.inj h)
    refine ⟨hsip, hsha, ?_⟩
    rw [srHandlepacket, htype, Option.bind_eq_bind, Option.bind_some, if_neg (by decide),
      if_pos (by decide), handleArp, hop, Option.bind_eq_bind, Option.bind_some,
      if_neg (by decide), if_pos (by decide)]
  · cases h

theorem srHandlepacket_handled (h : srHandlepacket sr frame interface env = some (t, calls)) :
    Handled sr frame env.now t calls := by
  obtain ⟨etherType, htype, h⟩ := Option.bind_eq_some_iff.mp h
  have hnone (hne : swap16 etherType ≠ ethertypeArp) : announced frame = none := by
    apply if_neg
    rintro ⟨harp, -⟩
    obtain rfl := Option.some.inj (htype.symm.trans harp)
    exact hne (by decide)
  split at h
  · rename_i hip
    exact handleIp_handled (hnone (by rw [hip]; decide)) h
  · split at h
    · rename_i harp
      apply handleArp_handled _ h
      rw [htype, ← harp, swap16_swap16]
    · rename_i hne
      obtain ⟨rfl, rfl⟩ := Prod.mk.inj (Option.some.inj h)
      exact .other (hnone hne) nofun

/-- Only the cache changes. -/
theorem Handled.config {now : Int} (h : Handled sr frame now t calls) :
    ∃ c, t = { sr with cache := c } := by
  cases h with
  | other => exact ⟨sr.cache, rfl⟩
  | hit => exact ⟨sr.cache, rfl⟩
  | miss _ _ _ _ _ hcalls =>
      obtain ⟨f, -, -, rfl, -⟩ := handleArpreq_cases hcalls
      exact ⟨_, rfl⟩
  | reply _ hsip hsha hreply =>
      simp only [handleReply, hsip, hsha, Option.bind_eq_bind, Option.bind_some,
        Option.bind_eq_some_iff, Option.pure_def, Option.some.injEq, Prod.mk.injEq] at hreply
      obtain ⟨calls', -, rfl, rfl⟩ := hreply
      exact ⟨_, rfl⟩

/-- The router's interface to the client, 10.0.1.1. -/
def eth3 : SrIf where
  name := [0x65, 0x74, 0x68, 0x33]
  addr := 0x030000000002
  ip := 0x0101000a

end NetworkStack.Router
