import NetworkStack.Lib.Buffer
import NetworkStack.Router.Arpcache

/-!
# The router

A frame is its bytes. `none` is undefined behaviour: an access outside a buffer, a null
pointer, or a variable that was never set. What a function sends is the list of its calls
of `sr_send_packet`, and `srSendPacket` says which of them put a frame on the wire.
Printing and logging are left out.
-/

namespace NetworkStack.Router

open Bytes Buffer

/-- `struct sr_if`. -/
structure SrIf where
  name : IfName
  addr : Mac
  ip : Addr
  deriving DecidableEq, Repr

/-- `struct sr_rt`. -/
structure SrRt where
  dest : Addr
  gw : Addr
  mask : Addr
  interface : IfName
  deriving DecidableEq, Repr

/-- The part of `struct sr_instance` that the router works on. -/
structure SrInstance where
  ifList : List SrIf
  routingTable : List SrRt
  cache : SrArpcache
  deriving DecidableEq, Repr

/-- The place in the source that sends a frame. -/
inductive Origin where
  | icmp
  | echoReply
  | forward
  | flush
  | arpRequest
  | arpReply
  deriving DecidableEq, Repr

/-- The arguments of a call of `sr_send_packet`. -/
structure SendCall where
  origin : Origin
  buf : List Byte
  iface : IfName
  deriving DecidableEq, Repr

/-- What a function finds when it is called: the time, and what `malloc` leaves in the
two fields of an ICMP header that are never set. -/
structure Env where
  now : Int
  unreachable : BitVec 32
  timeExceeded : BitVec 32
  deriving DecidableEq, Repr

def ethertypeIp : BitVec 16 := 0x0800

def ethertypeArp : BitVec 16 := 0x0806

def arpOpRequest : BitVec 16 := 1

def arpOpReply : BitVec 16 := 2

def ipProtocolIcmp : Byte := 1

/-- `sizeof(sr_ethernet_hdr_t)`. -/
def etherLen : Nat := 14

/-- `sr_get_interface`. -/
def srGetInterface (sr : SrInstance) (name : IfName) : Option SrIf :=
  sr.ifList.find? fun i => i.name.take srIfaceNamelen = name.take srIfaceNamelen

/-- `sr_send_packet`, with `sr_ether_addrs_match_interface`: whether the frame is sent. -/
def srSendPacket (sr : SrInstance) (call : SendCall) : Bool :=
  etherLen ≤ call.buf.length &&
    match srGetInterface sr call.iface with
    | some iface => load48 call.buf 6 == some iface.addr
    | none => false

/-! ## Checksums -/

/-- The first loop of `cksum`, and the odd byte. -/
def cksumLoop (sum : BitVec 32) : List Byte → BitVec 32
  | b₀ :: b₁ :: rest => cksumLoop (sum + ((b₀.zeroExtend 32 <<< 8) ||| b₁.zeroExtend 32)) rest
  | [b₀] => sum + (b₀.zeroExtend 32 <<< 8)
  | [] => sum

/-- The second loop of `cksum`. -/
def cksumFold : Nat → BitVec 32 → BitVec 32
  | 0, sum => sum
  | rounds + 1, sum =>
      if sum > 0xffff then cksumFold rounds ((sum >>> 16) + (sum &&& 0xffff)) else sum

/-- `cksum`. Each round of the second loop makes the sum smaller, so the sum itself is
enough fuel. -/
def cksum (data : List Byte) : BitVec 16 :=
  let sum := cksumLoop 0 data
  swap16 ((~~~ cksumFold sum.toNat sum).truncate 16)

/-! ## ICMP errors -/

/-- The IP header of an ICMP error, made from that of the packet. -/
def icmpIpHeader (ip : List Byte) (src dst : Addr) : Option (List Byte) := do
  let ip ← store16 ip 2 (swap16 56)
  let ip ← store8 ip 9 ipProtocolIcmp
  let ip ← store8 ip 8 64
  let ip ← store32 ip 12 src
  let ip ← store32 ip 16 dst
  let ip ← store16 ip 10 0
  store16 ip 10 (cksum ip)

/-- `ICMP`. -/
def icmp (sr : SrInstance) (packet : List Byte) (type code : Byte) (interface : IfName)
    (unused : BitVec 32) : Option SendCall := do
  let shost ← load48 packet 6
  let etherType ← load16 packet 12
  let inter ← srGetInterface sr interface
  let origIp ← load packet 14 20
  let ipSrc ← load32 packet 26
  let ip ← icmpIpHeader origIp inter.ip ipSrc
  let data ← load packet 14 28
  let hdr := [type, code, 0, 0] ++ le32 unused ++ data
  let hdr ← store16 hdr 2 (cksum hdr)
  return {
    origin := .icmp
    buf := le48 shost ++ le48 inter.addr ++ le16 etherType ++ ip ++ hdr
    iface := interface }

/-! ## ARP requests -/

/-- The frame that asks for the Ethernet address of `tip`. -/
def arpRequestFrame (interf : SrIf) (tip : Addr) : List Byte :=
  let broadcast : Mac := BitVec.allOnes 48
  le48 broadcast ++ le48 interf.addr ++ le16 (swap16 ethertypeArp) ++
    le16 (swap16 1) ++ le16 (swap16 2048) ++ [6, 4] ++ le16 (swap16 arpOpRequest) ++
    le48 interf.addr ++ le32 interf.ip ++ le48 broadcast ++ le32 tip

/-- `handle_arpreq` on the request that `id` points to. -/
def handleArpreq (sr : SrInstance) (id : Nat) (now : Int) :
    Option (SrInstance × List SendCall) := do
  let req ← sr.cache.requests.find? (·.id = id)
  if now - req.sent > 1 then
    if req.timesSent ≥ 5 then
      return (sr, [])
    else
      let pack ← req.packets.head?
      let interf ← srGetInterface sr pack.iface
      let call : SendCall :=
        { origin := .arpRequest
          buf := arpRequestFrame interf (swap32 req.ip)
          iface := pack.iface }
      let cache := sr.cache.update id fun req =>
        { req with sent := now, timesSent := req.timesSent + 1 }
      return ({ sr with cache := cache }, [call])
  else return (sr, [])

/-! ## IP packets -/

/-- The loop over the routing table: whether the packet is for the router, and `longs`. -/
def routeLoop (sr : SrInstance) (destIp : Addr) :
    List SrRt → Addr → Option SrRt → Option (Bool × Option SrRt)
  | [], _, longs => some (false, longs)
  | route :: rest, longestMatch, longs => do
      let inter ← srGetInterface sr route.interface
      if destIp = swap32 inter.ip then return (true, some route)
      else
        let comp1 := swap32 route.dest &&& swap32 route.mask
        let comp2 := swap32 route.mask &&& destIp
        if comp1 = comp2 ∧ longestMatch ≤ swap32 route.mask then
          routeLoop sr destIp rest (swap32 route.mask) (some route)
        else routeLoop sr destIp rest longestMatch longs

/-- The answer to an ICMP packet for the router. -/
def echo (sr : SrInstance) (packet : List Byte) (longs : SrRt) (interface : IfName) :
    Option SendCall := do
  let shost ← load48 packet 6
  let packet ← store48 packet 0 shost
  let inter ← srGetInterface sr interface
  let packet ← store48 packet 6 inter.addr
  let ipSrc ← load32 packet 26
  let packet ← store32 packet 30 ipSrc
  let out ← srGetInterface sr longs.interface
  let packet ← store32 packet 26 out.ip
  let packet ← store16 packet 24 0
  let packet ← store16 packet 24 (cksum (← load packet 14 20))
  let packet ← store8 packet 34 0
  let packet ← store16 packet 36 0
  let packet ← store16 packet 36 (cksum (← load packet 34 4))
  return { origin := .echoReply, buf := packet, iface := interface }

/-- A packet that has its next hop: sent if the cache knows the address, queued if not. -/
def forward (sr : SrInstance) (packet : List Byte) (longs : SrRt) (now : Int) :
    Option (SrInstance × List SendCall) := do
  match srArpcacheLookup sr.cache longs.dest with
  | some entry =>
      let inter ← srGetInterface sr longs.interface
      let packet ← store48 packet 0 entry.mac
      let packet ← store48 packet 6 inter.addr
      return (sr, [{ origin := .forward, buf := packet, iface := longs.interface }])
  | none =>
      let (cache, id) := srArpcacheQueuereq sr.cache (swap32 longs.dest) packet longs.interface
      handleArpreq { sr with cache := cache } id now

/-- The answer to a packet for the router that is not ICMP. -/
def portUnreachable (sr : SrInstance) (packet : List Byte) (sendRouter : Bool) (interface : IfName)
    (unused : BitVec 32) : Option (List SendCall) :=
  if sendRouter then (icmp sr packet 3 3 interface unused).map ([·]) else some []

/-- The branch of `sr_handlepacket` for IP packets. -/
def handleIp (sr : SrInstance) (packet : List Byte) (interface : IfName) (env : Env) :
    Option (SrInstance × List SendCall) := do
  let ipDst ← load32 packet 30
  let (sendRouter, longs) ← routeLoop sr (swap32 ipDst) sr.routingTable 0 none
  let proto ← load8 packet 23
  if sendRouter ∧ proto = ipProtocolIcmp then
    return (sr, [← echo sr packet (← longs) interface])
  else
    -- A packet of another protocol is answered, and then handled as if it were in transit.
    let answer ← portUnreachable sr packet sendRouter interface env.unreachable
    let ttl ← load8 packet 22
    if ttl = 1 then
      return (sr, answer ++ [← icmp sr packet 11 0 interface env.timeExceeded])
    else
      let (sr, calls) ← forward sr packet (← longs) env.now
      return (sr, answer ++ calls)

/-! ## ARP packets -/

/-- The reply to a request for the address of the interface. -/
def replyToRequest (packet : List Byte) (inter : SrIf) (interface : IfName) : Option SendCall := do
  let tip ← load32 packet 38
  let packet ← store16 packet 20 (swap16 arpOpReply)
  let packet ← store48 packet 32 (← load48 packet 22)
  let packet ← store48 packet 22 inter.addr
  let sip ← load32 packet 28
  let packet ← store32 packet 28 tip
  let packet ← store32 packet 38 sip
  let packet ← store48 packet 0 (← load48 packet 6)
  let packet ← store48 packet 6 inter.addr
  return { origin := .arpReply, buf := ← load packet 0 42, iface := interface }

/-- A packet that waited for the Ethernet address of its next hop. -/
def flushPacket (sr : SrInstance) (mac : Mac) (packet : SrPacket) : Option SendCall := do
  let inter ← srGetInterface sr packet.iface
  let buf ← store16 packet.buf 12 (swap16 ethertypeIp)
  let buf ← store48 buf 6 inter.addr
  let buf ← store48 buf 0 mac
  return { origin := .flush, buf := buf, iface := packet.iface }

def flushLoop (sr : SrInstance) (mac : Mac) : List SrPacket → Option (List SendCall)
  | [] => some []
  | packet :: rest => do
      let call ← flushPacket sr mac packet
      return call :: (← flushLoop sr mac rest)

/-- An ARP reply. -/
def handleReply (sr : SrInstance) (packet : List Byte) (now : Int) :
    Option (SrInstance × List SendCall) := do
  let sha ← load48 packet 22
  let sip ← load32 packet 28
  let (cache, reply) := srArpcacheInsert sr.cache sha (swap32 sip) now
  let sr := { sr with cache := cache }
  let calls ← flushLoop sr sha (reply.elim [] SrArpreq.packets)
  return ({ sr with cache := srArpreqDestroy sr.cache reply }, calls)

/-- The branch of `sr_handlepacket` for ARP packets. -/
def handleArp (sr : SrInstance) (packet : List Byte) (interface : IfName) (now : Int) :
    Option (SrInstance × List SendCall) := do
  let op ← load16 packet 20
  if swap16 op = arpOpRequest then
    let inter ← srGetInterface sr interface
    if swap32 inter.ip = swap32 (← load32 packet 38) then
      return (sr, [← replyToRequest packet inter interface])
    else return (sr, [])
  else if swap16 op = arpOpReply then handleReply sr packet now
  else return (sr, [])

/-- `sr_handlepacket`. -/
def srHandlepacket (sr : SrInstance) (packet : List Byte) (interface : IfName) (env : Env) :
    Option (SrInstance × List SendCall) := do
  let etherType ← load16 packet 12
  if swap16 etherType = ethertypeIp then handleIp sr packet interface env
  else if swap16 etherType = ethertypeArp then handleArp sr packet interface env.now
  else return (sr, [])

end NetworkStack.Router
