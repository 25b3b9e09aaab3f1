import NetworkStack.Lib.Chunks
import NetworkStack.Router.HandlePacket

/-!
# The session with the VNS server

The router reads commands from the server and sends its own messages. A command is its
bytes, the length field included; `none` is undefined behaviour, a failed assertion, or a
read that never returns because the stream has ended. Memory is taken to be available.

## Implementation notes

`sr_read_from_server_expect` overwrites the type field of the command in place. No handler
reads that field again, so the bytes are left as they arrived. What a new `struct sr_if`
holds before it is set is the argument `uninit`.
-/

namespace NetworkStack.Router

open Bytes Buffer Chunks

def vnsOpen : BitVec 32 := 1

def vnsClose : BitVec 32 := 2

def vnsPacket : BitVec 32 := 4

def vnsHwinfo : BitVec 32 := 16

def vnsRtable : BitVec 32 := 32

def vnsOpenTemplate : BitVec 32 := 64

def vnsAuthRequest : BitVec 32 := 128

def vnsAuthReply : BitVec 32 := 256

def vnsAuthStatus : BitVec 32 := 512

def hwInterface : BitVec 32 := 1

def hwEther : BitVec 32 := 32

def hwEthip : BitVec 32 := 64

/-- `IDSIZE`. -/
def idSize : Nat := 32

/-- `sizeof(c_base)`. -/
def baseLen : Nat := 8

/-- `sizeof(c_packet_header)`. -/
def packetHeaderLen : Nat := 24

/-- `sizeof(c_hw_entry)`. -/
def hwEntryLen : Nat := 36

/-- The string at the start of some memory. -/
def cString (mem : List Byte) : List Byte := mem.takeWhile (· ≠ 0)

/-- `strncpy` into an array of `n` bytes. -/
def strncpy (src : List Byte) (n : Nat) : List Byte :=
  src.take n ++ List.replicate (n - src.length) 0

/-! ## Messages to the server -/

/-- The `c_open` of `sr_connect_to_server`. -/
def openMessage (topoId : BitVec 16) (host user : List Byte) : List Byte :=
  le32 (swap32 108) ++ le32 (swap32 vnsOpen) ++ le16 (swap16 topoId) ++ le16 0 ++
    strncpy host idSize ++ strncpy user idSize ++ List.replicate idSize 0

/-- The `c_open_template` of `sr_connect_to_server`. -/
def openTemplateMessage (template host : List Byte) : List Byte :=
  le32 (swap32 70) ++ le32 (swap32 vnsOpenTemplate) ++ strncpy template 30 ++ strncpy host idSize

/-- What `sr_connect_to_server` sends once it is authenticated. -/
def connectMessage (topoId : BitVec 16) (template host user : List Byte) : List Byte :=
  if 0 < template.length then openTemplateMessage template host else openMessage topoId host user

/-- The `c_auth_reply` of `sr_handle_auth_request`. -/
def authReplyMessage (user digest : List Byte) : List Byte :=
  let len := 12 + user.length + 20
  le32 (swap32 (BitVec.ofNat 32 len)) ++ le32 (swap32 vnsAuthReply) ++
    le32 (swap32 (BitVec.ofNat 32 user.length)) ++ user ++ digest

/-- The message that `sr_send_packet` writes. -/
def packetMessage (call : SendCall) : List Byte :=
  let totalLen := call.buf.length + packetHeaderLen
  le32 (swap32 (BitVec.ofNat 32 totalLen)) ++ le32 (swap32 vnsPacket) ++
    strncpy call.iface 16 ++ call.buf

/-- What a call of `sr_send_packet` puts on the wire. -/
def sendPacketBytes (sr : SrInstance) (call : SendCall) : List Byte :=
  if srSendPacket sr call then packetMessage call else []

/-! ## The interfaces -/

/-- `sr_add_interface`. -/
def srAddInterface (sr : SrInstance) (name : List Byte) (uninit : Mac × Addr) : SrInstance :=
  { sr with ifList := sr.ifList ++
      [{ name := name.take srIfaceNamelen, addr := uninit.1, ip := uninit.2 }] }

/-- Write through the pointer to the last interface; there has to be one. -/
def setLast (sr : SrInstance) (f : SrIf → SrIf) : Option SrInstance :=
  match sr.ifList.getLast? with
  | none => none
  | some last => some { sr with ifList := sr.ifList.dropLast ++ [f last] }

/-- `sr_set_ether_addr`. -/
def srSetEtherAddr (sr : SrInstance) (addr : Mac) : Option SrInstance :=
  setLast sr fun last => { last with addr := addr }

/-- `sr_set_ether_ip`. -/
def srSetEtherIp (sr : SrInstance) (ipNbo : Addr) : Option SrInstance :=
  setLast sr fun last => { last with ip := ipNbo }

/-- An entry of a `c_hwinfo`, which starts at this place. -/
def hwEntry (buf : List Byte) (start : Nat) (uninit : Mac × Addr) (sr : SrInstance) :
    Option SrInstance := do
  let key := swap32 (← load32 buf start)
  if key = hwInterface then return srAddInterface sr (cString (← load buf (start + 4) 32)) uninit
  else if key = hwEthip then srSetEtherIp sr (← load32 buf (start + 4))
  else if key = hwEther then srSetEtherAddr sr (← load48 buf (start + 4))
  else return sr

/-- The loop of `sr_handle_hwinfo`. -/
def hwinfoLoop (buf : List Byte) (uninit : Mac × Addr) : Nat → Nat → SrInstance → Option SrInstance
  | 0, _, sr => some sr
  | entries + 1, i, sr => do
      let sr ← hwEntry buf (baseLen + i * hwEntryLen) uninit sr
      hwinfoLoop buf uninit entries (i + 1) sr

/-- `sr_handle_hwinfo`. -/
def srHandleHwinfo (sr : SrInstance) (buf : List Byte) (uninit : Mac × Addr) : Option SrInstance :=
  hwinfoLoop buf uninit ((buf.length - baseLen) / hwEntryLen) 0 sr

/-- `sr_verify_routing_table`. -/
def srVerifyRoutingTable (sr : SrInstance) : Nat :=
  if sr.ifList = [] ∨ sr.routingTable = [] then 999
  else sr.routingTable.countP fun rt => ¬sr.ifList.any fun i =>
    i.name.take srIfaceNamelen = rt.interface.take srIfaceNamelen

/-! ## Packets -/

/-- `sr_arp_req_not_for_us`. -/
def srArpReqNotForUs (sr : SrInstance) (packet : List Byte) (interface : IfName) : Option Bool :=
  if packet.length < 42 then some false
  else do
    let iface ← srGetInterface sr interface
    let etherType ← load16 packet 12
    let op ← load16 packet 20
    let tip ← load32 packet 38
    return etherType = swap16 ethertypeArp ∧ op = swap16 arpOpRequest ∧ tip ≠ iface.ip

/-- What handling a command did. -/
structure Outcome where
  /-- What `sr_read_from_server_expect` returns. -/
  ret : Int
  sr : SrInstance
  /-- The frame and the interface that `sr_handlepacket` was called with. -/
  handled : Option (List Byte × IfName)
  /-- The calls of `sr_send_packet`. -/
  calls : List SendCall
  /-- What else was sent to the server. -/
  sent : List Byte

/-- A command that only its return value remembers. -/
def Outcome.quiet (sr : SrInstance) (ret : Int) : Outcome where
  ret := ret
  sr := sr
  handled := none
  calls := []
  sent := []

/-- The case `VNSPACKET`. -/
def handleVnsPacket (sr : SrInstance) (packet : List Byte) (interface : IfName) (env : Env) :
    Option Outcome := do
  if ← srArpReqNotForUs sr packet interface then return .quiet sr 1
  else
    let (sr, calls) ← srHandlepacket sr packet interface env
    return { ret := 1, sr := sr, handled := some (packet, interface), calls := calls, sent := [] }

/-- What the handlers of commands depend on: the user's name, the digest that the SHA-1 code
computes from a salt and the key file, if there is one, and whether the file for the routing
table can be written. -/
structure Session where
  user : List Byte
  digest : List Byte → Option (List Byte)
  rtableWritable : Bool

/-- The name of the interface in front of a frame. `strncmp` looks at no more than
`sr_IFACE_NAMELEN` bytes of it. -/
def vnsInterface (buf : List Byte) : Option IfName :=
  let name := cString (buf.drop baseLen)
  if name.length < (buf.drop baseLen).length ∨ srIfaceNamelen ≤ name.length then some name else none

/-- `sr_handle_rtable` up to its result: the name of the file has room for `IDSIZE` characters. -/
def srHandleRtable (session : Session) (buf : List Byte) : Option Bool :=
  if buf.length < baseLen + idSize ∨ idSize < (cString (buf.drop baseLen)).length then none
  else some session.rtableWritable

/-- The switch of `sr_read_from_server_expect`. -/
def dispatch (sr : SrInstance) (session : Session) (command : BitVec 32) (buf : List Byte)
    (env : Env) (uninit : Mac × Addr) : Option Outcome := do
  if command = vnsPacket then
    if buf.length < packetHeaderLen then none
    else handleVnsPacket sr (buf.drop packetHeaderLen) (← vnsInterface buf) env
  else if command = vnsClose then return .quiet sr 0
  else if command = vnsHwinfo then
    let sr ← srHandleHwinfo sr buf uninit
    return .quiet sr (if srVerifyRoutingTable sr ≠ 0 then -1 else 1)
  else if command = vnsRtable then
    return .quiet sr (if ← srHandleRtable session buf then 1 else -1)
  else if command = vnsAuthRequest then
    match session.digest (buf.drop baseLen) with
    | some digest => return { Outcome.quiet sr 1 with sent := authReplyMessage session.user digest }
    | none => return .quiet sr (-1)
  else if command = vnsAuthStatus then
    return .quiet sr (if (← buf[baseLen]?) = 0 then -1 else 1)
  else
    -- A banner is printed, and so is a command that is not known.
    return .quiet sr 1

/-- `sr_read_from_server_expect` on the pieces in which the stream can be read; zero expects
any command. -/
def srReadFromServerExpect (sr : SrInstance) (session : Session) (expectedCmd : BitVec 32)
    (chunks : List (List Byte)) (env : Env) (uninit : Mac × Addr) :
    Option (Outcome × List (List Byte)) := do
  let (lenBytes, rest) ← readAll chunks 4
  let len := swap32 (← load32 lenBytes 0)
  if len.toInt > 10000 ∨ len.toInt < 0 then return (.quiet sr (-1), rest)
  else if len.toNat < baseLen then none
  else
    let (body, rest) ← readAll rest (len.toNat - 4)
    let buf := lenBytes ++ body
    let command := swap32 (← load32 buf 4)
    if expectedCmd ≠ 0 ∧ command ≠ expectedCmd ∧ command ≠ vnsClose then
      return (.quiet sr (-1), rest)
    else
      let outcome ← dispatch sr session command buf env uninit
      return (outcome, rest)

end NetworkStack.Router
