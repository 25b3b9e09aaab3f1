import NetworkStack.Stcp.Mysock

/-!
# One iteration of the STCP control loop

`controlLoopBody` is the body of the `while` loop of `control_loop`, split where
the source splits it: the wait, the network branch with its three kinds of
segment, the application branch and the close branch, each run on the state the
one before it left. The branches look at the event mask that the wait returned.

The locals are machine words. `left`, `right` and `send_wind` are signed in the
source; they are kept as 32-bit words that wrap, and read as signed where the
source compares them.

## Implementation notes

The header of an answer to a FIN is sent with `th_ack` unset, and so are the
headers of data segments and of FINs. `uninit` stands for what the stack holds
there. A length below the header's, or above the buffer's, makes the data branch
use a wrapped size or run past the buffer, and a negative window makes the
application branch do so; these are `Halt.undefined`.
-/

namespace NetworkStack.Stcp

/-- The states of `connection_state`. -/
inductive ConnectionState where
  | established
  | finWait
  | finSentAckRecieved
  | closeWait
  | lastAck
  deriving DecidableEq, Repr

/-- A transport thread inside `control_loop`: the mysocket context, the fields of
`context_t`, and the locals of the loop. -/
structure Endpoint extends MysockContext where
  done : Bool
  connectionState : ConnectionState
  initialSequenceNum : BitVec 32
  left : BitVec 32
  right : BitVec 32
  sendWind : BitVec 32
  eventChosen : Events

/-- The sender window `SWS`. -/
def windowSize : Nat := 3072

/-- `STCP_MSS`. -/
def stcpMss : Nat := 536

/-- The state on entry to `control_loop`. -/
def controlLoopEntry (ctx : MysockContext) (isn : BitVec 32) : Endpoint where
  toMysockContext := ctx
  done := false
  connectionState := .established
  initialSequenceNum := isn
  left := isn
  right := isn + 3071
  sendWind := 3072
  eventChosen := .any

/-- A data segment arrives: its payload goes up and an acknowledgement goes back. -/
def controlLoopData (e : Endpoint) (recv : STCPHeader) (n1 : Nat) (buf : List Byte) :
    Except Halt (Endpoint × List (List Byte)) :=
  if n1 < headerLen ∨ headerLen + stcpMss < n1 then .error .undefined
  else
    let app := (buf.drop headerLen).take (n1 - headerLen)
    let ack : STCPHeader :=
      { thAck := recv.thSeq + BitVec.ofNat 32 n1 - 20
        thSeq := e.initialSequenceNum
        thFlags := thACK }
    .ok ({ e with
        toMysockContext := stcpAppSend e.toMysockContext app
        initialSequenceNum := e.initialSequenceNum + 1
        left := e.initialSequenceNum + 1 }, [ack.toBytes])

/-- An acknowledgement arrives in `FIN_WAIT`. The branch goes on below with the
state it leaves. -/
def controlLoopAckFinWait (e : Endpoint) (recv : STCPHeader) : Endpoint :=
  if e.connectionState = .finWait then
    { e with
      connectionState := .finSentAckRecieved
      right := e.right + 1
      initialSequenceNum := recv.thAck }
  else e

/-- An acknowledgement arrives. -/
def controlLoopAck (e : Endpoint) (recv : STCPHeader) : Endpoint :=
  let e := controlLoopAckFinWait e recv
  if e.connectionState = .lastAck then { e with done := true }
  else
    { e with
      right := e.right + recv.thAck - e.initialSequenceNum
      sendWind := e.sendWind + recv.thAck - e.initialSequenceNum
      initialSequenceNum := recv.thAck
      eventChosen := if e.eventChosen.networkData then .any else e.eventChosen }

/-- A FIN arrives. Two states answer it, the others ignore it. -/
def controlLoopFin (e : Endpoint) (uninit : BitVec 32) : Endpoint × List (List Byte) :=
  let head : STCPHeader := { thSeq := e.left, thAck := uninit, thFlags := thACK }
  match e.connectionState with
  | .finSentAckRecieved => ({ e with done := true }, [head.toBytes])
  | .established =>
      ({ e with
          toMysockContext := stcpFinReceived e.toMysockContext
          initialSequenceNum := e.initialSequenceNum + 1
          left := e.left + 1
          right := e.right + 1
          connectionState := .closeWait }, [head.toBytes])
  | _ => (e, [])

/-- The branch for `NETWORK_DATA`. The three tests of the source are on the flags
of one header, so at most one of them succeeds. -/
def controlLoopNetworkData (e : Endpoint) (uninit : BitVec 32) :
    Except Halt (Endpoint × List (List Byte)) := do
  let (n1, buf, ctx) ← stcpNetworkRecv e.toMysockContext (headerLen + stcpMss)
  let e := { e with toMysockContext := ctx }
  let recv := STCPHeader.ofBytes buf
  if recv.thFlags ≠ thACK ∧ recv.thFlags ≠ thFIN then controlLoopData e recv n1 buf
  else if recv.thFlags = thACK then pure (controlLoopAck e recv, [])
  else pure (controlLoopFin e uninit)

/-- The conversion of an `int` to the `size_t` parameter of `stcp_app_recv`. -/
def sizeT (i : Int) : Nat := (i % 2 ^ 64).toNat

/-- The branch for `APP_DATA`: the length passed to `stcp_app_recv`, and the data
segment sent, if any. -/
def controlLoopAppData (e : Endpoint) (uninit : BitVec 32) :
    Except Halt (Endpoint × Int × List (List Byte)) := do
  let byteSend := min e.sendWind.toInt (stcpMss : Int)
  let (n, app, ctx) ← stcpAppRecv e.toMysockContext (sizeT byteSend)
  let e := { e with toMysockContext := ctx }
  let packetLoad := min (min e.sendWind.toInt (stcpMss : Int)) (n : Int)
  if n = 0 then pure (e, byteSend, [])
  else if stcpMss < n ∨ packetLoad < 0 then .error .undefined
  else
    let header : STCPHeader := { thSeq := e.left, thAck := uninit, thFlags := -1 }
    let packet := header.toBytes ++ app.take packetLoad.toNat
    let sendWind := e.sendWind - BitVec.ofInt 32 packetLoad
    pure ({ e with
        left := e.left + BitVec.ofInt 32 packetLoad
        sendWind := sendWind
        eventChosen := if sendWind = 0 then .network else e.eventChosen },
      byteSend, [packet])

/-- The branch for `APP_CLOSE_REQUESTED`. -/
def controlLoopClose (e : Endpoint) (uninit : BitVec 32) : Endpoint × List (List Byte) :=
  let head : STCPHeader := { thSeq := e.left, thAck := uninit, thFlags := thFIN }
  let e := { e with left := e.left + 1 }
  if e.connectionState = .closeWait then
    ({ e with connectionState := .lastAck }, [head.toBytes])
  else
    ({ e with connectionState := .finWait }, [head.toBytes])

/-- What one iteration did. -/
structure Iteration where
  endpoint : Endpoint
  event : Events
  /-- The datagram that the network branch took. -/
  handled : Option Packet
  /-- What the network branch sent. -/
  replies : List (List Byte)
  /-- The length passed to `stcp_app_recv`. -/
  byteSend : Option Int
  /-- What the application branch sent. -/
  segments : List (List Byte)
  /-- What the close branch sent. -/
  fins : List (List Byte)

/-- The body of the loop. -/
def controlLoopBody (e : Endpoint) (uninit : BitVec 32) : Except Halt Iteration := do
  let (event, ctx) ← stcpWaitForEvent e.toMysockContext e.eventChosen
  let e₀ := { e with toMysockContext := ctx }
  let (e₁, replies) ←
    if event.networkData then controlLoopNetworkData e₀ uninit else pure (e₀, [])
  let (e₂, byteSend, segments) ←
    if event.appData then
      (controlLoopAppData e₁ uninit).map fun r => (r.1, some r.2.1, r.2.2)
    else pure (e₁, none, [])
  let (e₃, fins) :=
    if event.appCloseRequested then controlLoopClose e₂ uninit else (e₂, [])
  pure
    { endpoint := e₃
      event := event
      handled := if event.networkData then e.networkRecvQueue.head? else none
      replies := replies
      byteSend := byteSend
      segments := segments
      fins := fins }

end NetworkStack.Stcp
