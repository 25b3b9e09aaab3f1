import NetworkStack.Router.IpFrames
import NetworkStack.Router.RouteSelection

/-!
# The branch of `sr_handlepacket` for IP packets

What the router does with an IP packet once the loop over the routing table has ended, and
what its answers are.
-/

namespace NetworkStack.Router

open Bytes Buffer

variable {sr : SrInstance} {dhost shost : Mac} {ip : SrIpHdr} {payload : List Byte}
  {interface : IfName} {env : Env} {inter out : SrIf} {r : SrRt}

/-! ## Packets in transit and packets for the router -/

theorem srHandlepacket_ipFrame :
    srHandlepacket sr (ipFrame dhost shost ip payload) interface env =
      handleIp sr (ipFrame dhost shost ip payload) interface env := by
  rw [srHandlepacket, load_ipFrame_type, Option.bind_eq_bind, Option.bind_some, if_pos (by decide)]

/-- The loop did not find the router. -/
theorem srHandlepacket_transit {longs : Option SrRt}
    (hloop : routeLoop sr (swap32 ip.ipDst) sr.routingTable 0 none = some (false, longs)) :
    srHandlepacket sr (ipFrame dhost shost ip payload) interface env =
      if ip.ipTtl = 1 then
        (icmp sr (ipFrame dhost shost ip payload) 11 0 interface env.timeExceeded).map
          fun call => (sr, [call])
      else longs.bind fun r => forward sr (ipFrame dhost shost ip payload) r env.now := by
  rw [srHandlepacket_ipFrame]
  simp only [handleIp, load_ipFrame_dst, hloop, load_ipFrame_p, load_ipFrame_ttl, portUnreachable,
    Option.bind_eq_bind, Option.bind_some, Option.pure_def, Bool.false_eq_true, false_and, if_false,
    List.nil_append]
  split
  · cases icmp sr (ipFrame dhost shost ip payload) 11 0 interface env.timeExceeded <;> rfl
  · cases longs with
    | none => rfl
    | some r =>
        rw [Option.bind_some, Option.bind_some]
        cases forward sr (ipFrame dhost shost ip payload) r env.now <;> rfl

/-- The loop stopped at a route to the interface with the address. A packet of another protocol
than ICMP is answered and then handled as if it were in transit. -/
theorem srHandlepacket_local
    (hloop : routeLoop sr (swap32 ip.ipDst) sr.routingTable 0 none = some (true, some r)) :
    srHandlepacket sr (ipFrame dhost shost ip payload) interface env =
      if ip.ipP = ipProtocolIcmp then
        (echo sr (ipFrame dhost shost ip payload) r interface).map fun call => (sr, [call])
      else
        (icmp sr (ipFrame dhost shost ip payload) 3 3 interface env.unreachable).bind fun answer =>
          if ip.ipTtl = 1 then
            (icmp sr (ipFrame dhost shost ip payload) 11 0 interface env.timeExceeded).map
              fun call => (sr, [answer, call])
          else
            (forward sr (ipFrame dhost shost ip payload) r env.now).map
              fun res => (res.1, answer :: res.2) := by
  rw [srHandlepacket_ipFrame]
  simp only [handleIp, load_ipFrame_dst, hloop, load_ipFrame_p, load_ipFrame_ttl, portUnreachable,
    Option.bind_eq_bind, Option.bind_some, Option.pure_def, true_and, if_true]
  split
  · cases echo sr (ipFrame dhost shost ip payload) r interface <;> rfl
  · cases icmp sr (ipFrame dhost shost ip payload) 3 3 interface env.unreachable with
    | none => rfl
    | some answer =>
        rw [Option.map_some, Option.bind_some, Option.bind_some]
        split
        · cases icmp sr (ipFrame dhost shost ip payload) 11 0 interface env.timeExceeded <;> rfl
        · cases forward sr (ipFrame dhost shost ip payload) r env.now <;> rfl

/-! ## ICMP errors -/

/-- The IP header of an ICMP error that is sent from `src`. -/
def SrIpHdr.error (ip : SrIpHdr) (src : Addr) : SrIpHdr :=
  let hdr := { ip with
    ipLen := swap16 56
    ipP := ipProtocolIcmp
    ipTtl := 64
    ipSrc := src
    ipDst := ip.ipSrc
    ipSum := 0 }
  { hdr with ipSum := cksum hdr.toBytes }

/-- The ICMP message that quotes a packet. -/
def errorMessage (type code : Byte) (unused : BitVec 32) (quoted : List Byte) : List Byte :=
  [type, code] ++ le16 (cksum ([type, code, 0, 0] ++ le32 unused ++ quoted)) ++
    (le32 unused ++ quoted)

theorem icmpIpHeader_toBytes (ip : SrIpHdr) (src : Addr) :
    icmpIpHeader ip.toBytes src ip.ipSrc = some (ip.error src).toBytes := by
  have hlen (x : BitVec 16) : store16 ip.toBytes 2 x = some { ip with ipLen := x }.toBytes := rfl
  have hp (ip : SrIpHdr) (x : Byte) : store8 ip.toBytes 9 x = some { ip with ipP := x }.toBytes := rfl
  have httl (ip : SrIpHdr) (x : Byte) :
      store8 ip.toBytes 8 x = some { ip with ipTtl := x }.toBytes := rfl
  have hsrc (ip : SrIpHdr) (x : Addr) :
      store32 ip.toBytes 12 x = some { ip with ipSrc := x }.toBytes := rfl
  have hdst (ip : SrIpHdr) (x : Addr) :
      store32 ip.toBytes 16 x = some { ip with ipDst := x }.toBytes := rfl
  have hsum (ip : SrIpHdr) (x : BitVec 16) :
      store16 ip.toBytes 10 x = some { ip with ipSum := x }.toBytes := rfl
  simp only [icmpIpHeader, hlen, hp, httl, hsrc, hdst, hsum, Option.bind_eq_bind, Option.bind_some]
  rfl

/-- An ICMP error quotes the IP header and eight bytes of the payload, and goes back where the
packet came from. -/
theorem icmp_ipFrame (hinter : srGetInterface sr interface = some inter) (type code : Byte)
    (unused : BitVec 32) :
    icmp sr (ipFrame dhost shost ip payload) type code interface unused =
      if 8 ≤ payload.length then
        some ⟨.icmp, ipFrame shost inter.addr (ip.error inter.ip)
          (errorMessage type code unused (ip.toBytes ++ payload.take 8)), interface⟩
      else none := by
  have hload : load (ipFrame dhost shost ip payload) 14 28 =
      if 8 ≤ payload.length then some (ip.toBytes ++ payload.take 8) else none := by
    have hquoted : ((ipFrame dhost shost ip payload).drop etherLen).take 28 =
        ip.toBytes ++ payload.take 8 := by
      rw [ipFrame_drop dhost shost ip payload, List.take_append, SrIpHdr.toBytes_length,
        List.take_of_length_le (by rw [SrIpHdr.toBytes_length]; omega)]
    unfold load
    rw [ipFrame_length]
    split
    · rw [if_pos (by omega)]
      exact congrArg some hquoted
    · rw [if_neg (by omega)]
  simp only [icmp, load_ipFrame_shost, load_ipFrame_type, hinter, load_ipFrame_header,
    load_ipFrame_src, icmpIpHeader_toBytes, hload, Option.bind_eq_bind, Option.bind_some,
    Option.pure_def]
  split
  · have hstore (x : BitVec 16) (rest : List Byte) :
        store16 ([type, code, 0, 0] ++ rest) 2 x = some ([type, code] ++ le16 x ++ rest) :=
      store_append [type, code] rfl rfl
    rw [Option.bind_some, List.append_assoc, hstore, Option.bind_some]
    simp only [errorMessage, ipFrame, List.append_assoc]
  · rfl

/-! ## Echo replies -/

/-- The IP header of the answer to an ICMP packet. -/
def SrIpHdr.answer (ip : SrIpHdr) (src : Addr) : SrIpHdr :=
  let hdr := { ip with
    ipSrc := src
    ipDst := ip.ipSrc
    ipSum := 0 }
  { hdr with ipSum := cksum hdr.toBytes }

/-- The message of the answer; its checksum covers the first four bytes. -/
def echoMessage (code : Byte) (body : List Byte) : List Byte :=
  [0, code] ++ le16 (cksum [0, code, 0, 0]) ++ body

/-- The ICMP header of a message and what is behind it. -/
theorem exists_icmpHdr (h : 4 ≤ payload.length) :
    ∃ type code c₀ c₁ body, payload = type :: code :: c₀ :: c₁ :: body := by
  match payload, h with
  | type :: code :: c₀ :: c₁ :: body, _ => exact ⟨type, code, c₀, c₁, body, rfl⟩

/-- An ICMP packet of any type is sent back with its type set to zero. -/
theorem echo_ipFrame (hinter : srGetInterface sr interface = some inter)
    (hout : srGetInterface sr r.interface = some out) (type code c₀ c₁ : Byte) (body : List Byte) :
    echo sr (ipFrame dhost shost ip (type :: code :: c₀ :: c₁ :: body)) r interface =
      some ⟨.echoReply, ipFrame shost inter.addr (ip.answer out.ip) (echoMessage code body),
        interface⟩ := by
  have htype (dhost shost : Mac) (ip : SrIpHdr) :
      store8 (ipFrame dhost shost ip (type :: code :: c₀ :: c₁ :: body)) 34 0 =
        some (ipFrame dhost shost ip (0 :: code :: c₀ :: c₁ :: body)) := by
    have hpayload : store (type :: code :: c₀ :: c₁ :: body) 0 [0] =
        some (0 :: code :: c₀ :: c₁ :: body) := store_append [] rfl rfl
    exact store_ipFrame_payload dhost shost ip _ hpayload
  have hsum (dhost shost : Mac) (ip : SrIpHdr) (c₀ c₁ : Byte) (x : BitVec 16) :
      store16 (ipFrame dhost shost ip (0 :: code :: c₀ :: c₁ :: body)) 36 x =
        some (ipFrame dhost shost ip ([0, code] ++ le16 x ++ body)) := by
    have hpayload : store (0 :: code :: c₀ :: c₁ :: body) 2 (le16 x) =
        some ([0, code] ++ le16 x ++ body) := @store_append Byte [0, code] [c₀, c₁] _ body 2 rfl rfl
    exact store_ipFrame_payload dhost shost ip _ hpayload
  have hload (dhost shost : Mac) (ip : SrIpHdr) (x : BitVec 16) :
      load (ipFrame dhost shost ip ([0, code] ++ le16 x ++ body)) 34 4 =
        some ([0, code] ++ le16 x) := by
    rw [load_ipFrame_payload dhost shost ip _ (by simp [le16])]
    rfl
  simp only [echo, load_ipFrame_shost, store_ipFrame_dhost, hinter, store_ipFrame_shost,
    load_ipFrame_src, store_ipFrame_dst, hout, store_ipFrame_src, store_ipFrame_sum,
    load_ipFrame_header, htype, hsum, hload, Option.bind_eq_bind, Option.bind_some, Option.pure_def]
  have hagain (dhost shost : Mac) (ip : SrIpHdr) (y : BitVec 16) :
      store16 (ipFrame dhost shost ip ([0, code] ++ le16 0 ++ body)) 36 y =
        some (ipFrame dhost shost ip ([0, code] ++ le16 y ++ body)) :=
    hsum dhost shost ip _ _ y
  rw [hagain]
  rfl

/-- A packet without an ICMP header is not answered. -/
theorem echo_short (h : payload.length < 4) :
    echo sr (ipFrame dhost shost ip payload) r interface = none := by
  cases hecho : echo sr (ipFrame dhost shost ip payload) r interface with
  | none => rfl
  | some call =>
      simp only [echo, Option.bind_eq_bind, Option.bind_eq_some_iff] at hecho
      obtain ⟨_, -, b₁, h₁, _, -, b₂, h₂, _, -, b₃, h₃, _, -, b₄, h₄, b₅, h₅, _, -, b₆, h₆, b₇, h₇,
        b₈, h₈, -⟩ := hecho
      have hbound : 36 + 2 ≤ b₈.length := store_bound h₈
      rw [store_length h₈, store_length h₇, store_length h₆, store_length h₅, store_length h₄,
        store_length h₃, store_length h₂, store_length h₁, ipFrame_length] at hbound
      omega

/-! ## Packets and any content of the cache -/

/-- The ICMP error for a packet whose time to live is over. -/
def timeExceededCall (shost : Mac) (ip : SrIpHdr) (payload : List Byte) (interface : IfName)
    (inter : SrIf) (env : Env) : SendCall where
  origin := .icmp
  buf := ipFrame shost inter.addr (ip.error inter.ip)
    (errorMessage 11 0 env.timeExceeded (ip.toBytes ++ payload.take 8))
  iface := interface

/-- A packet that no route leads to the router with is sent on along its route. -/
theorem exists_transit (hknown : ∀ r ∈ sr.routingTable, (srGetInterface sr r.interface).isSome)
    (hnot : ∀ r ∈ sr.routingTable, ¬Named sr (swap32 ip.ipDst) r)
    (hinter : srGetInterface sr interface = some inter) (dhost shost : Mac) (payload : List Byte)
    (env : Env) :
    ∃ longs, (∀ r, longs = some r ↔ BestRoute sr.routingTable (swap32 ip.ipDst) r) ∧
      ∀ cache, srHandlepacket { sr with cache := cache } (ipFrame dhost shost ip payload) interface
          env =
        if ip.ipTtl = 1 then
          if 8 ≤ payload.length then
            some ({ sr with cache := cache },
              [timeExceededCall shost ip payload interface inter env])
          else none
        else longs.bind fun r =>
          forward { sr with cache := cache } (ipFrame dhost shost ip payload) r env.now := by
  obtain ⟨longs, hloop, hbest, -⟩ := routeLoop_best hknown hnot
  refine ⟨longs, hbest, fun cache => ?_⟩
  have hicmp := @icmp_ipFrame { sr with cache := cache } dhost shost ip payload interface inter
    hinter 11 0 env.timeExceeded
  rw [srHandlepacket_transit (by rw [routeLoop_cache]; exact hloop), hicmp]
  split
  · split <;> rfl
  · rfl

/-- An ICMP packet that a route leads to the router with is sent back. -/
theorem exists_echoed (hknown : ∀ r ∈ sr.routingTable, (srGetInterface sr r.interface).isSome)
    (hnamed : ∃ r ∈ sr.routingTable, Named sr (swap32 ip.ipDst) r)
    (hinter : srGetInterface sr interface = some inter) (hp : ip.ipP = ipProtocolIcmp)
    (dhost shost : Mac) (env : Env) :
    ∃ out : SrIf, out.ip = ip.ipDst ∧ ∀ cache type code c₀ c₁ body,
      srHandlepacket { sr with cache := cache }
          (ipFrame dhost shost ip (type :: code :: c₀ :: c₁ :: body)) interface env =
        some ({ sr with cache := cache }, [⟨.echoReply,
          ipFrame shost inter.addr (ip.answer out.ip) (echoMessage code body), interface⟩]) := by
  obtain ⟨r, -, ⟨out, hout, hip⟩, hloop⟩ := routeLoop_named hknown hnamed 0 none
  refine ⟨out, ?_, fun cache type code c₀ c₁ body => ?_⟩
  · rw [← swap32_swap32 out.ip, ← hip, swap32_swap32]
  · have hecho := @echo_ipFrame { sr with cache := cache } dhost shost ip interface inter out r
      hinter hout type code c₀ c₁ body
    rw [srHandlepacket_local (by rw [routeLoop_cache]; exact hloop), if_pos hp, hecho,
      Option.map_some]

end NetworkStack.Router
