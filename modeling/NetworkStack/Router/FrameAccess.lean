import NetworkStack.Lib.Access
import NetworkStack.Lib.Bounded
import NetworkStack.Router.HandlePacket

/-!
# The bytes of a frame that are touched

`sr_handlepacket` and `ICMP` never compare the length of a frame with what they read of it.
Here every access to the frame is watched, in the order of the source, so that one beyond the
end can be told from a null pointer. Apart from that the functions are those of `HandlePacket`.

## Implementation notes

The name of the interface lies in the same buffer as the frame and may run into it, so
`sr_get_interface(sr, interface)` is an argument that can look at the frame. Fields that are
read twice without a write in between are read once. `sr_send_packet` and `print_hdrs` read no
more than the length they are given.
-/

namespace NetworkStack.Router

open Bytes Buffer Access Bounded NetworkStack.Computation

namespace Checked

variable (sr : SrInstance) (lookup : List Byte → Except Fault SrIf)

/-- `ICMP`. -/
def icmp (packet : List Byte) (type code : Byte) (interface : IfName) (unused : BitVec 32) :
    Except Fault SendCall := do
  let shost ← access 6 6 (load48 packet 6)
  let inter ← lookup packet
  let etherType ← access 12 2 (load16 packet 12)
  let origIp ← access 14 20 (load packet 14 20)
  let ipSrc ← access 26 4 (load32 packet 26)
  let ip ← defined (icmpIpHeader origIp inter.ip ipSrc)
  let data ← access 14 28 (load packet 14 28)
  let hdr := [type, code, 0, 0] ++ le32 unused ++ data
  let hdr ← defined (store16 hdr 2 (cksum hdr))
  return {
    origin := .icmp
    buf := le48 shost ++ le48 inter.addr ++ le16 etherType ++ ip ++ hdr
    iface := interface }

/-- The answer to an ICMP packet for the router. -/
def echo (packet : List Byte) (longs : SrRt) (interface : IfName) : Except Fault SendCall := do
  let _temp ← access 0 6 (load48 packet 0)
  let shost ← access 6 6 (load48 packet 6)
  let packet ← access 0 6 (store48 packet 0 shost)
  let inter ← lookup packet
  let packet ← access 6 6 (store48 packet 6 inter.addr)
  let ipSrc ← access 26 4 (load32 packet 26)
  let packet ← access 30 4 (store32 packet 30 ipSrc)
  let out ← defined (srGetInterface sr longs.interface)
  let packet ← access 26 4 (store32 packet 26 out.ip)
  let packet ← access 24 2 (store16 packet 24 0)
  let header ← access 14 20 (load packet 14 20)
  let packet ← access 24 2 (store16 packet 24 (cksum header))
  let packet ← access 34 1 (store8 packet 34 0)
  let packet ← access 36 2 (store16 packet 36 0)
  let icmpHeader ← access 34 4 (load packet 34 4)
  let packet ← access 36 2 (store16 packet 36 (cksum icmpHeader))
  return { origin := .echoReply, buf := packet, iface := interface }

/-- A packet that has its next hop. Its Ethernet header is copied, changed and copied back. -/
def forward (packet : List Byte) (longs : SrRt) (now : Int) :
    Except Fault (SrInstance × List SendCall) :=
  match srArpcacheLookup sr.cache longs.dest with
  | some entry => do
      let _eth ← access 0 14 (load packet 0 14)
      let inter ← defined (srGetInterface sr longs.interface)
      let packet ← access 0 6 (store48 packet 0 entry.mac)
      let packet ← access 6 6 (store48 packet 6 inter.addr)
      return (sr, [{ origin := .forward, buf := packet, iface := longs.interface }])
  | none =>
      let (cache, id) := srArpcacheQueuereq sr.cache (swap32 longs.dest) packet longs.interface
      defined (handleArpreq { sr with cache := cache } id now)

/-- The answer to a packet for the router that is not ICMP. -/
def portUnreachable (packet : List Byte) (sendRouter : Bool) (interface : IfName)
    (unused : BitVec 32) : Except Fault (List SendCall) := do
  if sendRouter then return [← icmp lookup packet 3 3 interface unused] else return []

/-- A packet that goes on, behind the answer to it if there was one. -/
def transit (packet : List Byte) (longs : Option SrRt) (answer : List SendCall)
    (interface : IfName) (env : Env) : Except Fault (SrInstance × List SendCall) := do
  let ttl ← access 22 1 (load8 packet 22)
  if ttl = 1 then
    return (sr, answer ++ [← icmp lookup packet 11 0 interface env.timeExceeded])
  else
    let (sr, calls) ← forward sr packet (← defined longs) env.now
    return (sr, answer ++ calls)

/-- The branch of `sr_handlepacket` for IP packets, behind its loop. -/
def handleRouted (packet : List Byte) (route : Bool × Option SrRt) (interface : IfName)
    (env : Env) : Except Fault (SrInstance × List SendCall) := do
  let proto ← access 23 1 (load8 packet 23)
  if route.1 ∧ proto = ipProtocolIcmp then
    return (sr, [← echo sr lookup packet (← defined route.2) interface])
  else
    let answer ← portUnreachable lookup packet route.1 interface env.unreachable
    transit sr lookup packet route.2 answer interface env

/-- The branch of `sr_handlepacket` for IP packets. -/
def handleIp (packet : List Byte) (interface : IfName) (env : Env) :
    Except Fault (SrInstance × List SendCall) := do
  let ipDst ← access 30 4 (load32 packet 30)
  let route ← defined (routeLoop sr (swap32 ipDst) sr.routingTable 0 none)
  handleRouted sr lookup packet route interface env

/-- The reply to a request for the address of the interface. -/
def replyToRequest (packet : List Byte) (inter : SrIf) (interface : IfName) :
    Except Fault SendCall := do
  let tip ← access 38 4 (load32 packet 38)
  let packet ← access 20 2 (store16 packet 20 (swap16 arpOpReply))
  let sha ← access 22 6 (load48 packet 22)
  let packet ← access 32 6 (store48 packet 32 sha)
  let packet ← access 22 6 (store48 packet 22 inter.addr)
  let sip ← access 28 4 (load32 packet 28)
  let packet ← access 28 4 (store32 packet 28 tip)
  let packet ← access 38 4 (store32 packet 38 sip)
  let shost ← access 6 6 (load48 packet 6)
  let packet ← access 0 6 (store48 packet 0 shost)
  let packet ← access 6 6 (store48 packet 6 inter.addr)
  let buf ← access 0 42 (load packet 0 42)
  return { origin := .arpReply, buf := buf, iface := interface }

/-- An ARP reply. -/
def handleReply (packet : List Byte) (now : Int) : Except Fault (SrInstance × List SendCall) := do
  let sha ← access 22 6 (load48 packet 22)
  let sip ← access 28 4 (load32 packet 28)
  let (cache, reply) := srArpcacheInsert sr.cache sha (swap32 sip) now
  let calls ← defined (flushLoop { sr with cache := cache } sha (reply.elim [] SrArpreq.packets))
  return ({ sr with cache := srArpreqDestroy cache reply }, calls)

/-- The branch of `sr_handlepacket` for ARP packets. -/
def handleArp (packet : List Byte) (interface : IfName) (now : Int) :
    Except Fault (SrInstance × List SendCall) := do
  let op ← access 20 2 (load16 packet 20)
  if swap16 op = arpOpRequest then
    let inter ← lookup packet
    let tip ← access 38 4 (load32 packet 38)
    if swap32 inter.ip = swap32 tip then
      return (sr, [← replyToRequest packet inter interface])
    else return (sr, [])
  else if swap16 op = arpOpReply then handleReply sr packet now
  else return (sr, [])

/-- `sr_handlepacket`. -/
def srHandlepacket (packet : List Byte) (interface : IfName) (env : Env) :
    Except Fault (SrInstance × List SendCall) := do
  let etherType ← access 12 2 (load16 packet 12)
  if swap16 etherType = ethertypeIp then handleIp sr lookup packet interface env
  else if swap16 etherType = ethertypeArp then handleArp sr lookup packet interface env.now
  else return (sr, [])

end Checked

variable {sr : SrInstance} {packet : List Byte} {interface : IfName}

/-! ## The functions without watching -/

theorem toOption_icmp (type code : Byte) (unused : BitVec 32) :
    (Checked.icmp (fun _ => defined (srGetInterface sr interface)) packet type code interface
      unused).toOption = icmp sr packet type code interface unused := by
  simp only [Checked.icmp, icmp, toOption_bind, toOption_access, toOption_defined,
    Option.bind_eq_bind]
  refine Option.bind_congr fun shost _ => ?_
  rw [Option.bind_comm]
  rfl

theorem toOption_echo (longs : SrRt) :
    (Checked.echo sr (fun _ => defined (srGetInterface sr interface)) packet longs
      interface).toOption = echo sr packet longs interface := by
  simp only [Checked.echo, echo, toOption_bind, toOption_access, toOption_defined,
    Option.bind_eq_bind]
  cases hshost : load48 packet 6 with
  | none => cases load48 packet 0 <;> rfl
  | some shost =>
      have hlen := isSome_load48.mp (Option.isSome_of_eq_some hshost)
      obtain ⟨dhost, hdhost⟩ := exists_load48 (show 0 + 6 ≤ packet.length by omega)
      rw [hdhost]
      rfl

theorem toOption_forward (h : 34 ≤ packet.length) (longs : SrRt) (now : Int) :
    (Checked.forward sr packet longs now).toOption = forward sr packet longs now := by
  unfold Checked.forward forward
  cases srArpcacheLookup sr.cache longs.dest with
  | none => exact toOption_defined _
  | some entry =>
      obtain ⟨eth, heth, -⟩ := exists_load (show 0 + 14 ≤ packet.length by omega)
      simp only [toOption_bind, toOption_access, toOption_defined, heth, Option.bind_some,
        Option.bind_eq_bind]
      rfl

theorem toOption_handleIp (env : Env) :
    (Checked.handleIp sr (fun _ => defined (srGetInterface sr interface)) packet interface
      env).toOption = handleIp sr packet interface env := by
  simp only [Checked.handleIp, handleIp, toOption_bind, toOption_access, toOption_defined,
    Option.bind_eq_bind]
  refine Option.bind_congr fun ipDst hdst => Option.bind_congr fun route _ => ?_
  have hlen := isSome_load32.mp (Option.isSome_of_eq_some hdst)
  simp only [Checked.handleRouted, toOption_bind, toOption_access]
  refine Option.bind_congr fun proto _ => ?_
  split
  · simp only [toOption_bind, toOption_defined, toOption_echo]
    rfl
  · simp only [Checked.transit, toOption_bind, toOption_access]
    have hanswer : (Checked.portUnreachable (fun _ => defined (srGetInterface sr interface)) packet
        route.1 interface env.unreachable).toOption =
          portUnreachable sr packet route.1 interface env.unreachable := by
      unfold Checked.portUnreachable portUnreachable
      split
      · rw [toOption_bind, toOption_icmp]
        cases icmp sr packet 3 3 interface env.unreachable <;> rfl
      · rfl
    rw [hanswer]
    refine Option.bind_congr fun answer _ => Option.bind_congr fun ttl _ => ?_
    split
    · rw [toOption_bind, toOption_icmp]
      rfl
    · simp only [toOption_bind, toOption_defined, toOption_forward (show 34 ≤ packet.length from hlen)]
      rfl

theorem toOption_replyToRequest (inter : SrIf) :
    (Checked.replyToRequest packet inter interface).toOption =
      replyToRequest packet inter interface := by
  simp only [Checked.replyToRequest, replyToRequest, toOption_bind, toOption_access,
    Option.bind_eq_bind]
  rfl

theorem toOption_handleArp (now : Int) :
    (Checked.handleArp sr (fun _ => defined (srGetInterface sr interface)) packet interface
      now).toOption = handleArp sr packet interface now := by
  simp only [Checked.handleArp, handleArp, toOption_bind, toOption_access, Option.bind_eq_bind]
  refine Option.bind_congr fun op _ => ?_
  split
  · simp only [toOption_bind, toOption_access, toOption_defined]
    refine Option.bind_congr fun inter _ => Option.bind_congr fun tip htip => ?_
    split
    · rw [toOption_bind, toOption_replyToRequest]
      rfl
    · rfl
  · split
    · simp only [Checked.handleReply, handleReply, toOption_bind, toOption_access, toOption_defined,
        Option.bind_eq_bind]
      rfl
    · rfl

/-- Watching the accesses changes nothing else. -/
theorem toOption_srHandlepacket (env : Env) :
    (Checked.srHandlepacket sr (fun _ => defined (srGetInterface sr interface)) packet interface
      env).toOption = srHandlepacket sr packet interface env := by
  simp only [Checked.srHandlepacket, srHandlepacket, toOption_bind, toOption_access,
    Option.bind_eq_bind]
  refine Option.bind_congr fun etherType _ => ?_
  split
  · exact toOption_handleIp env
  · split
    · exact toOption_handleArp env.now
    · rfl

end NetworkStack.Router
