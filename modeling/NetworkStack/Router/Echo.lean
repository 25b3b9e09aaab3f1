import NetworkStack.Router.Checksum
import NetworkStack.Router.IpBranch

/-!
# Echo requests

An ICMP packet for the router is turned into an echo reply in place. Two checksums are
computed: that of the IP header over the whole header, that of the ICMP message over its first
four bytes only. The type of the packet is not looked at.
-/

namespace NetworkStack.Router

open Bytes Buffer Checksum

variable {sr : SrInstance} {dhost shost : Mac} {ip : SrIpHdr} {payload : List Byte}
  {interface : IfName} {env : Env}

/-- `icmp_type` of an echo request. -/
def icmpEchoRequest : Byte := 8

/-- `icmp_type` of an echo reply. -/
def icmpEchoReply : Byte := 0

/-- The frame has an echo reply. -/
def IsEchoReply (frame : List Byte) : Prop :=
  load16 frame 12 = some (swap16 ethertypeIp) ∧ load8 frame 23 = some ipProtocolIcmp ∧
    load8 frame 34 = some icmpEchoReply

/-- The frame has the echo reply to an ICMP message of `n` bytes. -/
structure Echoes (request reply : List Byte) (n : Nat) : Prop where
  isEchoReply : IsEchoReply reply
  src : load32 reply 26 = load32 request 30
  dst : load32 reply 30 = load32 request 26
  len : load16 reply 16 = load16 request 16
  /-- The identifier, the sequence number and the payload. -/
  rest : load reply 38 (n - 4) = load request 38 (n - 4)
  ipSum : (load reply 14 20).map cksum = some 0
  icmpSum : (load reply 34 n).map cksum = some 0

/-- The length of the ICMP message behind an IP header without options. -/
def SrIpHdr.icmpLen (ip : SrIpHdr) : Nat := (swap16 ip.ipLen).toNat - 20

/-- The IP header has no options, and the frame has at least an ICMP header with an identifier
and a sequence number. -/
structure HasIcmp (ip : SrIpHdr) (payload : List Byte) : Prop where
  proto : ip.ipP = ipProtocolIcmp
  options : ip.ipVhl = 0x45
  least : 28 ≤ (swap16 ip.ipLen).toNat
  fits : (swap16 ip.ipLen).toNat ≤ 20 + payload.length

/-- An echo request gets its reply, and an ICMP packet of another type gets none. -/
def AnswersEcho (sr : SrInstance) (frame : List Byte) (interface : IfName) (n : Nat) (env : Env) :
    Prop :=
  if load8 frame 34 = some icmpEchoRequest then
    ∃ call, srHandlepacket sr frame interface env = some (sr, [call]) ∧ call.iface = interface ∧
      Echoes frame call.buf n
  else ∃ t calls, srHandlepacket sr frame interface env = some (t, calls) ∧
    ∀ call ∈ calls, ¬IsEchoReply call.buf

theorem verifies_answer (ip : SrIpHdr) (src : Addr) : cksum (ip.answer src).toBytes = 0 := by
  rw [cksum_eq_zero_iff (by rw [SrIpHdr.toBytes_length]; decide)]
  exact verifies_header { ip with ipSrc := src, ipDst := ip.ipSrc, ipSum := 0 }

/-- The checksum over the first four bytes is that of the whole message if the rest adds up
to nothing. -/
theorem cksum_echoMessage (code : Byte) {body : List Byte} (h : body.length ≤ 65536) :
    cksum (echoMessage code body) = 0 ↔ wordSum body % 65535 = 0 := by
  have hfour : Verifies ([0, code] ++ le16 (cksum [0, code, 0, 0])) := by
    have hsum := @verifies_cksum [0, code] [] (by simp) (by simp [le16])
    rw [List.append_nil, List.append_nil] at hsum
    exact hsum
  have hlen : (echoMessage code body).length ≤ 131072 := by
    simp only [echoMessage, le16, List.length_append, List.length_cons, List.length_nil]
    omega
  rw [cksum_eq_zero_iff hlen]
  exact verifies_append hfour (by simp [le16]; decide)

section Request

variable {type code c₀ c₁ : Byte} {body : List Byte} {inter out : SrIf}

/-- The frame that goes out has an echo reply, whatever came in. -/
theorem isEchoReply_answer (hp : ip.ipP = ipProtocolIcmp) :
    IsEchoReply (ipFrame shost inter.addr (ip.answer out.ip) (echoMessage code body)) := by
  refine ⟨load_ipFrame_type _ _ _ _, ?_, rfl⟩
  rw [load_ipFrame_p]
  exact congrArg some hp

/-- All but the checksum of the ICMP message is as it should be. -/
theorem echoes_answer (hp : ip.ipP = ipProtocolIcmp) (hout : out.ip = ip.ipDst) {n : Nat}
    (hn : 4 ≤ n) (hbody : n ≤ 4 + body.length) (hmax : n ≤ 65535) :
    Echoes (ipFrame dhost shost ip (type :: code :: c₀ :: c₁ :: body))
        (ipFrame shost inter.addr (ip.answer out.ip) (echoMessage code body)) n ↔
      wordSum (body.take (n - 4)) % 65535 = 0 := by
  have hlen : (echoMessage code body).length = 4 + body.length := by
    simp only [echoMessage, le16, List.length_append, List.length_cons, List.length_nil]
  have hmessage : (echoMessage code body).take n = echoMessage code (body.take (n - 4)) := by
    obtain ⟨k, rfl⟩ := Nat.exists_eq_add_of_le hn
    rw [Nat.add_sub_cancel_left, Nat.add_comm]
    rfl
  have hsum : (load (ipFrame shost inter.addr (ip.answer out.ip) (echoMessage code body)) 34 n).map
      cksum = some 0 ↔ wordSum (body.take (n - 4)) % 65535 = 0 := by
    have hshort : (body.take (n - 4)).length ≤ 65536 := by
      rw [List.length_take]
      omega
    rw [load_ipFrame_payload _ _ _ _ (by omega), Option.map_some, hmessage, Option.some.injEq,
      cksum_echoMessage code hshort]
  have hrest (dhost shost : Mac) (ip : SrIpHdr) (a b c d : Byte) :
      load (ipFrame dhost shost ip (a :: b :: c :: d :: body)) 38 (n - 4) =
        some (body.take (n - 4)) := by
    unfold load
    rw [if_pos (by rw [ipFrame_length]; simp only [List.length_cons]; omega)]
    rfl
  constructor
  · intro h
    exact hsum.mp h.icmpSum
  · intro h
    refine ⟨isEchoReply_answer hp, ?_, ?_, ?_, ?_, ?_, hsum.mpr h⟩
    · rw [load_ipFrame_src, load_ipFrame_dst]
      exact congrArg some hout
    · rw [load_ipFrame_src, load_ipFrame_dst]
      rfl
    · rw [load_ipFrame_len, load_ipFrame_len]
      rfl
    · rw [hrest]
      exact hrest shost inter.addr (ip.answer out.ip) 0 code _ _
    · rw [load_ipFrame_header, Option.map_some, verifies_answer]

end Request

/-- An ICMP packet for an interface that a route names is answered as it should be exactly if
it is an echo request and its identifier, sequence number and payload add up to nothing. -/
theorem answersEcho_iff (hv : srVerifyRoutingTable sr = 0)
    (hin : (srGetInterface sr interface).isSome)
    (hdst : ∃ r ∈ sr.routingTable, Named sr (swap32 ip.ipDst) r) (hicmp : HasIcmp ip payload)
    (dhost shost : Mac) (env : Env) :
    AnswersEcho sr (ipFrame dhost shost ip payload) interface ip.icmpLen env ↔
      payload.head? = some icmpEchoRequest ∧
        wordSum ((payload.take ip.icmpLen).drop 4) % 65535 = 0 := by
  obtain ⟨inter, hinter⟩ := Option.isSome_iff_exists.mp hin
  obtain ⟨out, hsrc, hecho⟩ := exists_echoed (fun r hr => interface_of_verified hv hr) hdst hinter
    hicmp.proto dhost shost env
  have hlen : 4 ≤ payload.length := by
    have hleast := hicmp.least
    have hfits := hicmp.fits
    omega
  obtain ⟨type, code, c₀, c₁, body, rfl⟩ := exists_icmpHdr hlen
  have hhandle : srHandlepacket sr (ipFrame dhost shost ip (type :: code :: c₀ :: c₁ :: body))
      interface env = _ := hecho sr.cache type code c₀ c₁ body
  have hmax := (swap16 ip.ipLen).isLt
  have hleast := hicmp.least
  have hfits := hicmp.fits
  simp only [List.length_cons] at hfits
  have hdrop : ((type :: code :: c₀ :: c₁ :: body).take ip.icmpLen).drop 4 =
      body.take (ip.icmpLen - 4) := by
    rw [List.drop_take]
    rfl
  have hreply : Echoes (ipFrame dhost shost ip (type :: code :: c₀ :: c₁ :: body))
      (ipFrame shost inter.addr (ip.answer out.ip) (echoMessage code body)) ip.icmpLen ↔
        wordSum (body.take (ip.icmpLen - 4)) % 65535 = 0 := by
    have hn : 4 ≤ ip.icmpLen ∧ ip.icmpLen ≤ 4 + body.length ∧ ip.icmpLen ≤ 65535 := by
      unfold SrIpHdr.icmpLen
      omega
    exact echoes_answer hicmp.proto hsrc hn.1 hn.2.1 hn.2.2
  have htype : load8 (ipFrame dhost shost ip (type :: code :: c₀ :: c₁ :: body)) 34 = some type := rfl
  have hhead : (type :: code :: c₀ :: c₁ :: body).head? = some type := rfl
  rw [AnswersEcho, htype, hhandle, hdrop, hhead]
  by_cases hrequest : some type = some icmpEchoRequest
  · rw [if_pos hrequest, ← hreply]
    constructor
    · rintro ⟨call, hcall, -, hechoes⟩
      obtain ⟨-, hcalls⟩ := Prod.mk.inj (Option.some.inj hcall)
      obtain rfl := (List.cons.inj hcalls).1
      exact ⟨hrequest, hechoes⟩
    · rintro ⟨-, hechoes⟩
      exact ⟨_, rfl, rfl, hechoes⟩
  · rw [if_neg hrequest]
    constructor
    · rintro ⟨t, calls, hcall, hnone⟩
      obtain ⟨-, rfl⟩ := Prod.mk.inj (Option.some.inj hcall)
      exact absurd (isEchoReply_answer hicmp.proto) (hnone _ List.mem_cons_self)
    · rintro ⟨hyes, -⟩
      exact absurd hyes hrequest

/-- The IP header of an echo request from 10.0.1.100 to the router. -/
def pingHdr : SrIpHdr where
  ipVhl := 0x45
  ipTos := 0
  ipLen := swap16 28
  ipId := 0
  ipOff := 0
  ipTtl := 64
  ipP := ipProtocolIcmp
  ipSum := 0x7d64
  ipSrc := hostRoute.dest
  ipDst := eth3.ip

/-- An echo request with this identifier and sequence number. -/
def pingFrame (id seq : BitVec 16) : List Byte :=
  ipFrame eth3.addr 9 pingHdr
    ([icmpEchoRequest, 0] ++ le16 (cksum ([icmpEchoRequest, 0, 0, 0] ++ be16 id ++ be16 seq)) ++
      (be16 id ++ be16 seq))

def payloadPingHdr : SrIpHdr := { pingHdr with ipLen := swap16 32, ipSum := 0x7964 }

/-- Identifier 1, sequence number 2 and four bytes, which add up to 65535. -/
def payloadPing : List Byte :=
  [icmpEchoRequest, 0, 0xf7, 0xff] ++ (be16 1 ++ be16 2 ++ be16 0x1000 ++ be16 0xeffc)

theorem answersEcho_payloadPing :
    AnswersEcho twoRoutes (ipFrame eth3.addr 9 payloadPingHdr payloadPing) eth3.name
      payloadPingHdr.icmpLen ⟨0, 0, 0⟩ := by
  apply (answersEcho_iff _ _ _ _ eth3.addr 9 ⟨0, 0, 0⟩).mpr
  · exact ⟨rfl, by decide⟩
  · decide
  · decide
  · exact ⟨hostRoute, List.mem_cons_self, by decide⟩
  · exact ⟨rfl, rfl, by decide, by decide⟩

/-- The reply to an echo request with identifier 1 and sequence number 1 does not verify. -/
theorem not_answersEcho_ping :
    ¬AnswersEcho twoRoutes (pingFrame 1 1) eth3.name pingHdr.icmpLen ⟨0, 0, 0⟩ := by
  have hsum : ((srHandlepacket twoRoutes (pingFrame 1 1) eth3.name ⟨0, 0, 0⟩).map fun r =>
      r.2.map fun call => (load call.buf 34 pingHdr.icmpLen).map cksum) = some [some 0xfdff] := by
    decide +kernel
  unfold AnswersEcho
  rw [if_pos (by decide)]
  rintro ⟨call, hcall, -, hechoes⟩
  rw [hcall] at hsum
  have hbad : (load call.buf 34 pingHdr.icmpLen).map cksum = some 0xfdff :=
    (List.cons.inj (Option.some.inj hsum)).1
  exact absurd (hechoes.icmpSum.symm.trans hbad) (by decide)

end NetworkStack.Router
