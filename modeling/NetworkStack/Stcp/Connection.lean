import NetworkStack.Lib.Transition
import NetworkStack.Stcp.ControlLoop

/-!
# Two established endpoints and the links between them

The links lose, duplicate and reorder nothing. A run interleaves the loop
iterations of the two transport threads, the deliveries of the network threads
and the calls of the two applications. `myread` is left out: it only takes from
the head of `app_send_queue`, which the transport thread never reads, and without
it that queue is the record of all that was passed up.

An application makes no call on a mysocket after its own `myclose`, which does
not return before the transport thread is done.

Beside the endpoint a party keeps a record of the run: what the application wrote,
what has been sent and acknowledged, and which FINs and answers it has seen. The
code reads none of it.
-/

namespace NetworkStack.Stcp

/-- Which end of the connection: the one that connected, or the one that accepted. -/
inductive Side where
  | active
  | passive
  deriving DecidableEq, Repr

namespace Side

def peer : Side → Side
  | active => passive
  | passive => active

@[simp] theorem peer_peer (i : Side) : i.peer.peer = i := by cases i <;> rfl

@[simp] theorem peer_ne (i : Side) : i.peer ≠ i := by cases i <;> decide

@[simp] theorem ne_peer (i : Side) : i ≠ i.peer := by cases i <;> decide

theorem eq_or_eq_peer (i k : Side) : k = i ∨ k = i.peer := by
  cases i <;> cases k <;> simp [peer]

instance {P : Side → Prop} [DecidablePred P] : Decidable (∀ i, P i) :=
  decidable_of_iff (P active ∧ P passive)
    ⟨fun h i => by cases i; exacts [h.1, h.2], fun h => ⟨h active, h passive⟩⟩

end Side

namespace Packet

def header (p : Packet) : STCPHeader := STCPHeader.ofBytes p.data

/-- The bytes behind the header. -/
def payload (p : Packet) : List Byte := p.data.drop headerLen

def isAck (p : Packet) : Bool := p.header.thFlags = thACK

def isFin (p : Packet) : Bool := p.header.thFlags = thFIN

/-- The loop takes every other segment for data. -/
def isData (p : Packet) : Bool := !p.isAck && !p.isFin

/-- The bytes that the loop passes up for this segment. -/
def load (p : Packet) : List Byte := if p.isData then p.payload else []

/-- The payload bytes that this acknowledgement answers. -/
def ackedBytes (p : Packet) : Nat :=
  if p.isAck then
    match p.cause with
    | .answersData len => len
    | _ => 0
  else 0

/-- The acknowledgement that the peer sent in response to a FIN. -/
def isFinAck (p : Packet) : Bool := p.isAck && p.cause == .answersFin

theorem isFin_of_isAck {p : Packet} (h : p.isAck = true) : p.isFin = false := by
  have hflags : p.header.thFlags = thACK := by simpa [isAck] using h
  simp [isFin, hflags, thACK, thFIN]

theorem isAck_of_isFin {p : Packet} (h : p.isFin = true) : p.isAck = false := by
  by_contra hack
  simp [isFin_of_isAck (by simpa using hack)] at h

theorem isAck_of_isData {p : Packet} (h : p.isData = true) : p.isAck = false := by
  simp only [isData, Bool.and_eq_true, Bool.not_eq_true'] at h
  exact h.1

theorem isFin_of_isData {p : Packet} (h : p.isData = true) : p.isFin = false := by
  simp only [isData, Bool.and_eq_true, Bool.not_eq_true'] at h
  exact h.2

theorem isData_of_isAck {p : Packet} (h : p.isAck = true) : p.isData = false := by
  simp [isData, h]

theorem isData_of_isFin {p : Packet} (h : p.isFin = true) : p.isData = false := by
  simp [isData, h]

theorem ackedBytes_of_not_isAck {p : Packet} (h : p.isAck = false) : p.ackedBytes = 0 := by
  simp [ackedBytes, h]

theorem load_of_not_isData {p : Packet} (h : p.isData = false) : p.load = [] := by
  simp [load, h]

theorem load_of_isData {p : Packet} (h : p.isData = true) : p.load = p.payload := by
  simp [load, h]

@[simp] theorem header_mk (h : STCPHeader) (c : Cause) : header ⟨h.toBytes, c⟩ = h :=
  STCPHeader.ofBytes_toBytes h

@[simp] theorem header_mk_append (h : STCPHeader) (app : List Byte) (c : Cause) :
    header ⟨h.toBytes ++ app, c⟩ = h :=
  STCPHeader.ofBytes_toBytes_append h app

@[simp] theorem payload_mk_append (h : STCPHeader) (app : List Byte) (c : Cause) :
    payload ⟨h.toBytes ++ app, c⟩ = app :=
  List.drop_left' (STCPHeader.toBytes_length h)

end Packet

/-- An endpoint and the record of its part in the run. -/
structure Party extends Endpoint where
  /-- All that the application has passed to `mywrite`. -/
  written : List Byte
  /-- The application has called `myclose`. -/
  closeCalled : Bool
  /-- Payload bytes sent whose acknowledgement has not been processed. -/
  unacked : Nat
  /-- Sequence number and payload length of each data segment sent. -/
  dataSent : List (BitVec 32 × Nat)
  /-- A data segment was handled since the last one was sent. -/
  dataSince : Bool
  /-- The lengths passed to `stcp_app_recv`. -/
  byteSends : List Int
  finSent : Bool
  /-- The peer's answer to the FIN has been handled. -/
  finAcked : Bool
  /-- The peer's FIN has been handled. -/
  finReceived : Bool

namespace Party

/-- Record the datagram that an iteration handled. -/
def noteHandled (p : Party) : Option Packet → Party
  | none => p
  | some pk =>
      { p with
        unacked := p.unacked - pk.ackedBytes
        dataSince := p.dataSince || pk.isData
        finAcked := p.finAcked || pk.isFinAck
        finReceived := p.finReceived || pk.isFin }

def noteByteSend (p : Party) (byteSend : Option Int) : Party :=
  { p with byteSends := p.byteSends ++ byteSend.toList }

/-- Record the data segments that an iteration sent. -/
def noteSegments (p : Party) (segments : List (List Byte)) : Party :=
  { p with
    unacked := p.unacked + (segments.map fun d => (d.drop headerLen).length).sum
    dataSent := p.dataSent ++
      segments.map fun d => ((STCPHeader.ofBytes d).thSeq, (d.drop headerLen).length)
    dataSince := p.dataSince && segments.isEmpty }

def noteFins (p : Party) (fins : List (List Byte)) : Party :=
  { p with finSent := p.finSent || !fins.isEmpty }

/-- The party after an iteration. -/
def account (p : Party) (it : Iteration) : Party :=
  { (((p.noteHandled it.handled).noteByteSend it.byteSend).noteSegments
      it.segments).noteFins it.fins with toEndpoint := it.endpoint }

end Party

/-- The reason for an answer to this datagram. -/
def replyCause (handled : Packet) : Cause :=
  if handled.isFin then .answersFin else .answersData handled.payload.length

/-- Answers to the handled datagram, with their reason. -/
def answers (handled : Option Packet) (replies : List (List Byte)) : List Packet :=
  replies.map fun d => ⟨d, handled.elim .application replyCause⟩

/-- Segments sent on the application's behalf. -/
def unprompted (segments : List (List Byte)) : List Packet :=
  segments.map fun d => ⟨d, .application⟩

/-- Everything an iteration sent, in order. -/
def Iteration.packets (it : Iteration) : List Packet :=
  answers it.handled it.replies ++ unprompted it.segments ++ unprompted it.fins

/-- The two parties and, for each, the datagrams on their way to it. -/
structure Connection where
  party : Side → Party
  link : Side → List Packet

inductive Action where
  | mywrite (i : Side) (buf : List Byte)
  | myclose (i : Side)
  /-- The network thread takes a datagram from the link. -/
  | deliver (i : Side)
  /-- The transport thread goes once through its loop. -/
  | iterate (i : Side) (uninit : BitVec 32)
  deriving DecidableEq, Repr

namespace Connection

/-- Replace a party and put packets on the link to its peer. -/
def put (s : Connection) (i : Side) (p : Party) (out : List Packet) : Connection where
  party := Function.update s.party i p
  link := Function.update s.link i.peer (s.link i.peer ++ out)

/-- What is on its way to a party and not handled yet, oldest first. -/
def chan (s : Connection) (i : Side) : List Packet :=
  (s.party i).networkRecvQueue ++ s.link i

def step (s : Connection) : Action → Option Connection
  | .mywrite i buf =>
      let p := s.party i
      if p.closeCalled then none
      else some (s.put i { p with
        toMysockContext := mywrite p.toMysockContext buf
        written := p.written ++ buf } [])
  | .myclose i =>
      let p := s.party i
      if p.closeCalled then none
      else some (s.put i { p with
        toMysockContext := mycloseRequest p.toMysockContext
        closeCalled := true } [])
  | .deliver i =>
      let p := s.party i
      match s.link i with
      | [] => none
      | pk :: rest => some
          { party := Function.update s.party i { p with
              toMysockContext := networkRecvThread p.toMysockContext pk }
            link := Function.update s.link i rest }
  | .iterate i uninit =>
      let p := s.party i
      if p.done then none
      else
        match controlLoopBody p.toEndpoint uninit with
        | .error _ => none
        | .ok it => some (s.put i (p.account it) it.packets)

/-- A party that enters `control_loop`, its application not having called yet. -/
def startParty (isn : BitVec 32) : Party where
  toEndpoint := controlLoopEntry
    { closeRequested := false, networkRecvQueue := [], appSendQueue := [], appRecvQueue := [] } isn
  written := []
  closeCalled := false
  unacked := 0
  dataSent := []
  dataSince := false
  byteSends := []
  finSent := false
  finAcked := false
  finReceived := false

/-- Both ends past the handshake, with any initial sequence numbers. -/
def start (isn : Side → BitVec 32) : Connection where
  party := fun i => startParty (isn i)
  link := fun _ => []

@[simp] theorem put_party_self (s : Connection) (i : Side) (p : Party) (out : List Packet) :
    (s.put i p out).party i = p := by
  simp [put]

@[simp] theorem put_party_peer (s : Connection) (i : Side) (p : Party) (out : List Packet) :
    (s.put i p out).party i.peer = s.party i.peer := by
  simp [put]

@[simp] theorem put_link_self (s : Connection) (i : Side) (p : Party) (out : List Packet) :
    (s.put i p out).link i = s.link i := by
  simp [put]

theorem put_chan_self (s : Connection) (i : Side) (p : Party) (out : List Packet) :
    (s.put i p out).chan i = p.networkRecvQueue ++ s.link i := by
  simp [chan]

theorem put_chan_peer (s : Connection) (i : Side) (p : Party) (out : List Packet) :
    (s.put i p out).chan i.peer = s.chan i.peer ++ out := by
  simp [chan, put]

theorem put_put (s : Connection) (i : Side) (p q : Party) (out out' : List Packet) :
    (s.put i p out).put i q out' = s.put i q (out ++ out') := by
  simp [put]

/-- The same relation between sender, receiver, what travels forward and what
travels back, in both directions. -/
def Both (D : Party → Party → List Packet → List Packet → Prop) (s : Connection) : Prop :=
  ∀ i, D (s.party i) (s.party i.peer) (s.chan i.peer) (s.chan i)

/-- A relation holds in both directions after a party has moved if it holds with
that party as the sender and with it as the receiver. -/
theorem both_put {D : Party → Party → List Packet → List Packet → Prop} {s : Connection}
    {i : Side} {p : Party} {out : List Packet}
    (hsnd : D p (s.party i.peer) (s.chan i.peer ++ out) (p.networkRecvQueue ++ s.link i))
    (hrcv : D (s.party i.peer) p (p.networkRecvQueue ++ s.link i) (s.chan i.peer ++ out)) :
    Both D (s.put i p out) := by
  intro k
  rcases Side.eq_or_eq_peer i k with rfl | rfl
  · rw [put_party_self, put_party_peer, put_chan_self, put_chan_peer]
    exact hsnd
  · rw [Side.peer_peer, put_party_self, put_party_peer, put_chan_self, put_chan_peer]
    exact hrcv

/-- The case of a party that leaves its network queue alone. -/
theorem both_put_same {D : Party → Party → List Packet → List Packet → Prop} {s : Connection}
    {i : Side} {p : Party} {out : List Packet}
    (hq : p.networkRecvQueue = (s.party i).networkRecvQueue)
    (hsnd : D p (s.party i.peer) (s.chan i.peer ++ out) (s.chan i))
    (hrcv : D (s.party i.peer) p (s.chan i) (s.chan i.peer ++ out)) :
    Both D (s.put i p out) := by
  refine both_put ?_ ?_
  · rw [hq]
    exact hsnd
  · rw [hq]
    exact hrcv

/-- The two directions as seen from one side. -/
theorem Both.peer {D : Party → Party → List Packet → List Packet → Prop} {s : Connection}
    (h : Both D s) (i : Side) : D (s.party i.peer) (s.party i) (s.chan i) (s.chan i.peer) := by
  simpa using h i.peer

theorem step_mywrite {s t : Connection} {i : Side} {buf : List Byte}
    (h : s.step (.mywrite i buf) = some t) :
    (s.party i).closeCalled = false ∧ t = s.put i { s.party i with
      appRecvQueue := (s.party i).appRecvQueue ++ [buf]
      written := (s.party i).written ++ buf } [] := by
  simp only [step] at h
  split at h
  · cases h
  · rename_i hcalled
    exact ⟨by simpa using hcalled, (Option.some.inj h).symm⟩

theorem step_myclose {s t : Connection} {i : Side} (h : s.step (.myclose i) = some t) :
    (s.party i).closeCalled = false ∧ t = s.put i { s.party i with
      closeRequested := true
      closeCalled := true } [] := by
  simp only [step] at h
  split at h
  · cases h
  · rename_i hcalled
    exact ⟨by simpa using hcalled, (Option.some.inj h).symm⟩

/-- Moving a datagram from the link to the queue changes neither direction of a
relation that reads the queue only through the channel. -/
theorem deliver_chan {s t : Connection} {i : Side} (h : s.step (.deliver i) = some t) :
    ∃ queue, (∀ k, t.chan k = s.chan k) ∧ t.party i.peer = s.party i.peer ∧
      t.party i = { s.party i with networkRecvQueue := queue } := by
  simp only [step] at h
  split at h
  · cases h
  · rename_i pk rest hlink
    obtain rfl := Option.some.inj h
    refine ⟨(s.party i).networkRecvQueue ++ [pk], fun k => ?_, ?_, ?_⟩
    · rcases Side.eq_or_eq_peer i k with rfl | rfl
      · simp [chan, networkRecvThread, mysockEnqueueBuffer, hlink]
      · simp [chan]
    · simp
    · simp [networkRecvThread, mysockEnqueueBuffer]

end Connection

end NetworkStack.Stcp
