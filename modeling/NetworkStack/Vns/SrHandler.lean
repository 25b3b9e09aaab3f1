import NetworkStack.Lib.PartialMap
import NetworkStack.Lib.Transition
import NetworkStack.Vns.Length

/-!
# The controller's interfaces and ports

`SRServerListener` learns from each `RouterInfo` event which OpenFlow port an interface
has, and keeps that in two dictionaries, one for the frames that a router sends and one
for the frames that come in on a port. Nothing is ever taken out of them, so they stay inverse to
each other only as long as every port an interface gives up goes to another one.

A dictionary is a partial function. An event whose addresses cannot be packed raises
in the middle of the loop, and the interfaces before it are learnt all the same.

## Implementation notes

A frame is printed before it is relayed. The text of a frame is the work of POX's packet library,
with a class for each protocol in the frame, and is a parameter: it may be an exception, as
it is for every DHCP message.
-/

namespace NetworkStack.Vns

open Decimal PartialMap Transition

/-- `strip`. -/
def strip (s : List Byte) : List Byte := ((s.dropWhile isSpace).reverse.dropWhile isSpace).reverse

/-- `int(s, base)`, for the bases that occur. -/
def pyInt (base : Nat) (s : List Byte) : Option Int :=
  let s := strip s
  let negative := s.head? = some (ascii '-')
  let s := if negative ∨ s.head? = some (ascii '+') then s.tail else s
  let s := if base = 16 ∧ (s.take 2 = text "0x" ∨ s.take 2 = text "0X") then s.drop 2 else s
  if s ≠ [] ∧ s.all (isDigitOf base) then
    let n : Int := (numberOf base s).1
    some (if negative then -n else n)
  else none

/-- `chr`. -/
def chr (n : Int) : Option Byte := if 0 ≤ n ∧ n < 256 then some (BitVec.ofInt 8 n) else none

/-- `pack_mac`. -/
def packMac (macaddr : List Byte) : Option (List Byte) :=
  (macaddr.splitOn (ascii ':')).mapM fun byte => (pyInt 16 byte).bind chr

/-- `pack_ip`. -/
def packIp (ipaddr : List Byte) : Option (List Byte) :=
  (ipaddr.splitOn (ascii '.')).mapM fun byte => (pyInt 10 byte).bind chr

/-- The constructor of `VNSInterface`. -/
def VnsInterface.init (name mac ip mask : List Byte) : Option VnsInterface :=
  if h : mac.length = 6 ∧ ip.length = 4 ∧ mask.length = 4 then
    some ⟨name, mac, ip, mask, h.1, h.2.1, h.2.2⟩
  else none

/-- What an event says about one interface. -/
structure IntfInfo where
  ip : List Byte
  mac : List Byte
  rate : List Byte
  port : Nat
  deriving DecidableEq, Repr

/-- The dictionary of a `RouterInfo` event, in the order of its `keys()`. No two interfaces of
a switch are the same port. -/
structure RouterInfo where
  info : List (List Byte × IntfInfo)
  keys : (info.map Prod.fst).Nodup
  ports : (info.map fun x => x.2.port).Nodup

/-- `SRServerListener`; a client is the number of its connection. -/
structure SrServerListener where
  srclients : List Nat
  intfnameToPort : List Byte → Option Nat
  portToIntfname : Nat → Option (List Byte)
  interfaces : Option (List VnsInterface)

/-- An exception that a handler raises. -/
inductive PyError where
  | attributeError
  | unboundLocalError
  /-- A message that cannot be packed. -/
  | packing
  /-- A frame without a text. -/
  | printing
  deriving DecidableEq, Repr

/-- A frame that a switch hands over: the length of the message around it has 16 bits. -/
abbrev SwitchFrame := { pkt : List Byte // pkt.length < 2 ^ 16 }

/-- `str(ethernet(pkt))`. -/
abbrev EthernetStr := List Byte → Except PyError (List Byte)

structure SrPacketOut where
  pkt : List Byte
  port : Nat
  deriving DecidableEq, Repr

namespace SrServerListener

/-- `__init__`. -/
def init : SrServerListener where
  srclients := []
  intfnameToPort := fun _ => none
  portToIntfname := fun _ => none
  interfaces := none

/-- The loop of `broadcast`: what is sent until a `send` raises, and how the loop ends. -/
def sendEach (message : VnsMessage) : List Nat → List (Nat × VnsMessage) × Except PyError Unit
  | [] => ([], .ok ())
  | client :: rest =>
      match packWithHeader message with
      | none => ([], .error .packing)
      | some _ => ((client, message) :: (sendEach message rest).1, (sendEach message rest).2)

/-- `broadcast`. -/
def broadcast (self : SrServerListener) (message : VnsMessage) :
    List (Nat × VnsMessage) × Except PyError Unit :=
  sendEach message self.srclients

/-- `_handle_SRPacketIn`. -/
def handleSrPacketIn (ethernetStr : EthernetStr) (self : SrServerListener) (port : Nat)
    (pkt : List Byte) : List (Nat × VnsMessage) × Except PyError Unit :=
  match self.portToIntfname port with
  | none => ([], .ok ())
  | some intfname =>
      match ethernetStr pkt with
      | .error e => ([], .error e)
      | .ok _ => self.broadcast (.vnsPacket intfname pkt)

/-- `_handle_packet_msg`: the event that it raises. The text it would log for an unknown
interface names a variable that is not set. -/
def handlePacketMsg (self : SrServerListener) (intfName ethernetFrame : List Byte) :
    Except PyError SrPacketOut :=
  match self.intfnameToPort intfName with
  | none => .error .unboundLocalError
  | some outPort => .ok { pkt := ethernetFrame, port := outPort }

/-- The interface of one entry of an event, unless building it raises. -/
def newInterface (intf : List Byte) (i : IntfInfo) : Option VnsInterface := do
  let ip ← packIp i.ip
  let mac ← packMac i.mac
  let mask ← packIp (text "255.255.255.255")
  VnsInterface.init intf mac ip mask

/-- The loop of `_handle_RouterInfo`; the interfaces are `none` if it raises. -/
def routerInfoLoop : SrServerListener → List VnsInterface → List (List Byte × IntfInfo) →
    Option (List VnsInterface) × SrServerListener
  | self, interfaces, [] => (some interfaces, self)
  | self, interfaces, (intf, i) :: rest =>
      match newInterface intf i with
      | none => (none, self)
      | some interface =>
          routerInfoLoop { self with
            intfnameToPort := Function.update self.intfnameToPort intf (some i.port)
            portToIntfname := Function.update self.portToIntfname i.port (some intf) }
            (interfaces ++ [interface]) rest

/-- `_handle_RouterInfo`. -/
def handleRouterInfo (self : SrServerListener) (event : RouterInfo) : SrServerListener :=
  match routerInfoLoop self [] event.info with
  | (none, self) => self
  | (some interfaces, self) => { self with interfaces := some interfaces }

/-- What reaches the listener. -/
inductive Input where
  | newClient (conn : Nat)
  | routerInfo (event : RouterInfo)

def step (self : SrServerListener) : Input → Option SrServerListener
  | .newClient conn => some { self with srclients := self.srclients ++ [conn] }
  | .routerInfo event => some (self.handleRouterInfo event)

/-! ## Frames come back where they went -/

/-- The dictionaries are inverse to each other, so that a frame from the port to which the frames
for an interface go is relayed to every client as arriving on it, and one from another port not at
all. -/
structure Relays (ethernetStr : EthernetStr) (pkt : SwitchFrame) (s : SrServerListener) :
    Prop where
  inverse : Inverse s.intfnameToPort s.portToIntfname
  used : ∀ intfName frame out, s.handlePacketMsg intfName frame = .ok out →
    s.handleSrPacketIn ethernetStr out.port pkt.1 =
      (s.srclients.map fun client => (client, .vnsPacket intfName pkt.1), .ok ())
  unused : ∀ port, (∀ intfName, s.intfnameToPort intfName ≠ some port) →
    s.handleSrPacketIn ethernetStr port pkt.1 = ([], .ok ())

end SrServerListener

/-- The interfaces that an event sets, with their ports: those before one that cannot be built. -/
def RouterInfo.assigned (event : RouterInfo) : List (List Byte × Nat) :=
  (event.info.takeWhile fun x => (SrServerListener.newInterface x.1 x.2).isSome).map fun x =>
    (x.1, x.2.port)

/-- Every old port of an interface of the event is in the event again, and so is every
old interface of a port of the event. -/
def Renumbers (self : SrServerListener) (event : RouterInfo) : Prop :=
  Covers self.intfnameToPort event.assigned ∧
    Covers self.portToIntfname (event.assigned.map Prod.swap)

/-- An event replaces completely what it changes, and a frame from an interface can be printed. -/
def Undisturbed (ethernetStr : EthernetStr) (pkt : SwitchFrame) (self : SrServerListener) :
    SrServerListener.Input → Prop
  | .newClient _ => True
  | .routerInfo event =>
      Renumbers self event ∧ ((∃ s, ethernetStr pkt.1 = .ok s) ∨ event.assigned = [])

namespace SrServerListener

variable {self : SrServerListener} {event : RouterInfo} {ethernetStr : EthernetStr}
  {pkt : SwitchFrame}

/-- The ends of the pairs that an event sets. -/
theorem nodup_assigned (event : RouterInfo) :
    (event.assigned.map Prod.fst).Nodup ∧ (event.assigned.map Prod.snd).Nodup := by
  have hsub := List.takeWhile_sublist (fun x : List Byte × IntfInfo => (newInterface x.1 x.2).isSome)
    (l := event.info)
  constructor
  · rw [RouterInfo.assigned, List.map_map]
    exact event.keys.sublist (hsub.map Prod.fst)
  · rw [RouterInfo.assigned, List.map_map]
    exact event.ports.sublist (hsub.map fun x => x.2.port)

/-- The loop assigns the pairs to the one dictionary and, swapped, to the other. -/
theorem routerInfoLoop_maps (self : SrServerListener) (interfaces : List VnsInterface)
    (info : List (List Byte × IntfInfo)) :
    let pairs := (info.takeWhile fun x => (newInterface x.1 x.2).isSome).map fun x => (x.1, x.2.port)
    (routerInfoLoop self interfaces info).2 = { self with
      intfnameToPort := assign self.intfnameToPort pairs
      portToIntfname := assign self.portToIntfname (pairs.map Prod.swap) } := by
  induction info generalizing self interfaces with
  | nil => rfl
  | cons x rest ih =>
      obtain ⟨intf, i⟩ := x
      rw [routerInfoLoop]
      cases hnew : newInterface intf i with
      | none => simp [hnew, assign]
      | some interface =>
          simp only [ih, List.takeWhile_cons, hnew, Option.isSome_some, if_true]
          rfl

theorem handleRouterInfo_maps (self : SrServerListener) (event : RouterInfo) :
    (self.handleRouterInfo event).intfnameToPort = assign self.intfnameToPort event.assigned ∧
      (self.handleRouterInfo event).portToIntfname =
        assign self.portToIntfname (event.assigned.map Prod.swap) := by
  have hmaps := routerInfoLoop_maps self [] event.info
  rw [handleRouterInfo]
  cases hloop : routerInfoLoop self [] event.info with
  | mk interfaces self' =>
      rw [hloop] at hmaps
      simp only at hmaps
      cases interfaces <;> simp [hmaps, RouterInfo.assigned]

/-- A message that can be packed is sent to every client. -/
theorem broadcast_of_packed {message : VnsMessage} (h : (packWithHeader message).isSome) :
    self.broadcast message = (self.srclients.map fun client => (client, message), .ok ()) := by
  obtain ⟨buf, hbuf⟩ := Option.isSome_iff_exists.mp h
  rw [broadcast]
  induction self.srclients with
  | nil => rfl
  | cons client rest ih => rw [sendEach, hbuf, ih, List.map_cons]

theorem packWithHeader_frame (intfName : List Byte) (pkt : SwitchFrame) :
    (packWithHeader (.vnsPacket intfName pkt.1)).isSome := by
  have hlen := pkt.2
  rw [packWithHeader_isSome_iff rfl, List.length_append, packS_length]
  omega

theorem handleSrPacketIn_of_text {s intfName : List Byte} {port : Nat}
    (htext : ethernetStr pkt.1 = .ok s) (hport : self.portToIntfname port = some intfName) :
    self.handleSrPacketIn ethernetStr port pkt.1 =
      (self.srclients.map fun client => (client, .vnsPacket intfName pkt.1), .ok ()) := by
  simp only [handleSrPacketIn, hport, htext]
  exact broadcast_of_packed (packWithHeader_frame intfName pkt)

theorem handlePacketMsg_of_some {intfName : List Byte} {port : Nat}
    (h : self.intfnameToPort intfName = some port) (frame : List Byte) :
    self.handlePacketMsg intfName frame = .ok ⟨frame, port⟩ := by
  simp only [handlePacketMsg, h]

/-- A frame without a text is not relayed from any interface. -/
theorem relays_iff_inverse :
    self.Relays ethernetStr pkt ↔ Inverse self.intfnameToPort self.portToIntfname ∧
      ((∃ s, ethernetStr pkt.1 = .ok s) ∨ ∀ intfName, self.intfnameToPort intfName = none) := by
  constructor
  · intro h
    refine ⟨h.inverse, or_iff_not_imp_right.mpr fun hsome => ?_⟩
    obtain ⟨intfName, hne⟩ := not_forall.mp hsome
    obtain ⟨port, hport⟩ := Option.ne_none_iff_exists'.mp hne
    have hused := h.used intfName [] _ (handlePacketMsg_of_some hport [])
    cases htext : ethernetStr pkt.1 with
    | ok s => exact ⟨s, rfl⟩
    | error e =>
        simp only [handleSrPacketIn, (h.inverse intfName port).mp hport, htext] at hused
        cases congrArg Prod.snd hused
  · rintro ⟨hinv, hprint⟩
    refine ⟨hinv, ?_, ?_⟩
    · intro intfName frame out hout
      cases hport : self.intfnameToPort intfName with
      | none =>
          simp only [handlePacketMsg, hport] at hout
          cases hout
      | some port =>
          rw [handlePacketMsg_of_some hport] at hout
          obtain rfl := Except.ok.inj hout
          obtain ⟨s, htext⟩ | hnone := hprint
          · exact handleSrPacketIn_of_text htext ((hinv intfName port).mp hport)
          · cases (hnone intfName).symm.trans hport
    · intro port hport
      cases hintf : self.portToIntfname port with
      | none => simp only [handleSrPacketIn, hintf]
      | some intfName => exact absurd ((hinv intfName port).mpr hintf) (hport intfName)

/-- Where no interface is known, none is known after an event exactly if it sets none. -/
theorem assign_none_iff {pairs : List (List Byte × Nat)} (hkeys : (pairs.map Prod.fst).Nodup)
    (h : ∀ intfName, self.intfnameToPort intfName = none) :
    (∀ intfName, assign self.intfnameToPort pairs intfName = none) ↔ pairs = [] := by
  refine ⟨fun hnone => List.eq_nil_iff_forall_not_mem.mpr fun p hp => ?_, ?_⟩
  · cases (hnone p.1).symm.trans (assign_of_mem hkeys hp)
  · rintro rfl
    exact h

theorem relays_handleRouterInfo (h : self.Relays ethernetStr pkt) (event : RouterInfo) :
    (self.handleRouterInfo event).Relays ethernetStr pkt ↔
      Undisturbed ethernetStr pkt self (.routerInfo event) := by
  obtain ⟨hkeys, hports⟩ := nodup_assigned event
  obtain ⟨hfst, hsnd⟩ := handleRouterInfo_maps self event
  obtain ⟨-, hprint⟩ := relays_iff_inverse.mp h
  rw [relays_iff_inverse, hfst, hsnd, inverse_assign_iff hkeys hports h.inverse]
  refine and_congr Iff.rfl ?_
  obtain hprint | hnone := hprint
  · exact iff_of_true (.inl hprint) (.inl hprint)
  · exact or_congr Iff.rfl (assign_none_iff hkeys hnone)

theorem relays_step {s t : SrServerListener} {input : Input} (h : s.Relays ethernetStr pkt)
    (ht : s.step input = some t) :
    t.Relays ethernetStr pkt ↔ Undisturbed ethernetStr pkt s input := by
  cases input with
  | newClient conn =>
      obtain rfl := Option.some.inj ht
      obtain ⟨hinv, hprint⟩ := relays_iff_inverse.mp h
      exact iff_of_true (relays_iff_inverse.mpr ⟨hinv, hprint⟩) trivial
  | routerInfo event =>
      obtain rfl := Option.some.inj ht
      exact relays_handleRouterInfo h event

/-- Over any run, frames are relayed as they should exactly if every event replaces completely
what it changes and the frame can be printed, should an interface be known. -/
theorem relays_iff_renumbers (ethernetStr : EthernetStr) (pkt : SwitchFrame)
    (inputs : List Input) :
    Always step (Relays ethernetStr pkt) init inputs ↔
      Guarded step (Undisturbed ethernetStr pkt) init inputs := by
  have hinit : init.Relays ethernetStr pkt :=
    relays_iff_inverse.mpr ⟨fun _ _ => by simp [init], .inr fun _ => rfl⟩
  have hstep (s : SrServerListener) (input : Input) : ∃ t, s.step input = some t := by
    cases input with
    | newClient conn => exact ⟨_, rfl⟩
    | routerInfo event => exact ⟨_, rfl⟩
  obtain ⟨t, ht⟩ := exists_exec hstep init inputs
  exact always_iff_guarded (I := fun _ => True) (fun _ _ _ _ _ => trivial)
    (fun _ _ _ _ h ht => relays_step h ht) trivial hinit ht

/-- The switch has one interface, which is on port 1 first and on port 2 when it comes back. -/
def eth1On (port : Nat) : RouterInfo where
  info := [(text "eth1",
    { ip := text "10.0.1.1", mac := text "02:00:00:00:00:01", rate := text "10Gbps", port := port })]
  keys := List.nodup_singleton _
  ports := List.nodup_singleton _

/-- A client, and the interface on its two ports. -/
def movedPort : List Input := [.newClient 0, .routerInfo (eth1On 1), .routerInfo (eth1On 2)]

/-- A frame that holds nothing but zeros. -/
def blankFrame : SwitchFrame := ⟨List.replicate 14 0, by decide⟩

def blankStr : EthernetStr :=
  fun _ => .ok (text "[00:00:00:00:00:00>00:00:00:00:00:00:llc/0000]|")

/-- Frames from the old port are still relayed. -/
theorem not_relays_eth1On :
    ∃ t, exec step init movedPort = some t ∧ t.intfnameToPort (text "eth1") = some 2 ∧
      t.handleSrPacketIn blankStr 1 blankFrame.1 =
        ([(0, .vnsPacket (text "eth1") blankFrame.1)], .ok ()) ∧
      ¬Always step (Relays blankStr blankFrame) init movedPort := by
  obtain ⟨t, ht⟩ : ∃ t, exec step init movedPort = some t := ⟨_, rfl⟩
  obtain ⟨hclients, hport, hintf⟩ : t.srclients = [0] ∧
      t.portToIntfname 1 = some (text "eth1") ∧ t.intfnameToPort (text "eth1") = some 2 := by
    obtain rfl := Option.some.inj ht
    decide +kernel
  refine ⟨t, ht, hintf, ?_, fun h => ?_⟩
  · have htext : blankStr blankFrame.1 =
        .ok (text "[00:00:00:00:00:00>00:00:00:00:00:00:llc/0000]|") := rfl
    rw [handleSrPacketIn_of_text htext hport, hclients]
    rfl
  · have hone := ((h.last ht).inverse (text "eth1") 1).mpr hport
    rw [hintf] at hone
    exact absurd hone (by decide)

end SrServerListener

end NetworkStack.Vns
