import NetworkStack.Stcp.ControlLoop

/-!
# A transport thread from its first call on

`transport_init` runs the handshake and then `control_loop`. The thread rests at its
blocking calls: the waits and receives of the handshake, and the wait at the head of
the loop. Around it the application writes and closes, and the network thread hands
over datagrams of any content.

Both tests `wait && NETWORK_DATA` of the handshake are logical, so they succeed
whatever the wait has returned. The log is the record of what the waits returned and
what was sent.
-/

namespace NetworkStack.Stcp

/-- The blocking calls of the handshake. -/
inductive HandshakeCall where
  /-- The connecting side waits with `NETWORK_DATA`, its SYN sent. -/
  | activeWait
  | activeRecv
  /-- The accepting side waits with `ANY_EVENT`. -/
  | passiveWait
  | passiveRecv
  /-- The accepting side waits with `NETWORK_DATA`, its SYN-ACK sent. -/
  | passiveWait2
  | passiveRecv2
  deriving DecidableEq, Repr

/-- Where the thread is, and its data there. -/
inductive Thread where
  | handshake (call : HandshakeCall) (ctx : MysockContext) (initialSequenceNum : BitVec 32)
  | controlLoop (e : Endpoint)
  /-- The C program has no defined behaviour from here on. -/
  | undefined

/-- An entry of the log. -/
inductive Call where
  | waitReturned (event : Events)
  | sent (data : List Byte)
  deriving DecidableEq, Repr

structure TransportThread where
  thread : Thread
  log : List Call

inductive ThreadAction where
  | mywrite (buf : List Byte)
  | myclose
  | deliver (data : List Byte)
  /-- The thread goes on to its next blocking call. -/
  | run (uninit : BitVec 32)
  deriving DecidableEq, Repr

namespace Thread

/-- The mysocket context, while there is one. -/
def context : Thread → Option MysockContext
  | .handshake _ ctx _ => some ctx
  | .controlLoop e => some e.toMysockContext
  | .undefined => none

/-- Others change the context under the thread. -/
def withContext (ctx : MysockContext) : Thread → Thread
  | .handshake call _ isn => .handshake call ctx isn
  | .controlLoop e => .controlLoop { e with toMysockContext := ctx }
  | .undefined => .undefined

end Thread

/-- The sequence number that the handshake reads from a datagram. A datagram that is
too short leaves part of the header unset. -/
def handshakeSeq (data : List Byte) (uninit : BitVec 32) : BitVec 32 :=
  if 8 ≤ data.length then (STCPHeader.ofBytes data).thSeq else uninit

/-- The flags a wait of the handshake is called with, and the call behind it. -/
def HandshakeCall.wait : HandshakeCall → Option (Events × HandshakeCall)
  | .activeWait => some (.network, .activeRecv)
  | .passiveWait => some (.any, .passiveRecv)
  | .passiveWait2 => some (.network, .passiveRecv2)
  | _ => none

/-- A receive of the handshake, up to the next blocking call: what is sent, and where
the thread is then. -/
def handshakeRecv (call : HandshakeCall) (ctx : MysockContext) (isn seq : BitVec 32) :
    Option (List (List Byte) × Thread) :=
  match call with
  | .activeRecv =>
      let ack : STCPHeader := { thSeq := isn, thAck := seq + 1, thFlags := thACK }
      some ([ack.toBytes], .controlLoop (controlLoopEntry ctx (isn + 1)))
  | .passiveRecv =>
      let send1 : STCPHeader := { thSeq := isn, thAck := seq + 1, thFlags := thACK + thSYN }
      some ([send1.toBytes], .handshake .passiveWait2 ctx (isn + 1))
  | .passiveRecv2 => some ([], .controlLoop (controlLoopEntry ctx isn))
  | _ => none

namespace TransportThread

/-- The thread runs from a handshake call to its next blocking call. -/
def runHandshake (log : List Call) (call : HandshakeCall) (ctx : MysockContext)
    (isn uninit : BitVec 32) : Option TransportThread :=
  match call.wait with
  | some (flags, next) =>
      match stcpWaitForEvent ctx flags with
      | .error _ => none
      | .ok (event, ctx) =>
          some ⟨.handshake next ctx isn, log ++ [.waitReturned event]⟩
  | none =>
      match ctx.networkRecvQueue with
      | [] => none
      | packet :: rest =>
          (handshakeRecv call { ctx with networkRecvQueue := rest } isn
              (handshakeSeq packet.data uninit)).map fun r =>
            ⟨r.2, log ++ r.1.map .sent⟩

/-- The thread goes once through its loop. -/
def runControlLoop (log : List Call) (e : Endpoint) (uninit : BitVec 32) :
    Option TransportThread :=
  if e.done then none
  else
    match stcpWaitForEvent e.toMysockContext e.eventChosen with
    | .error _ => none
    | .ok (event, _) =>
        match controlLoopBody e uninit with
        | .error _ => some ⟨.undefined, log ++ [.waitReturned event]⟩
        | .ok it =>
            some ⟨.controlLoop it.endpoint,
              log ++ .waitReturned it.event ::
                (it.replies ++ it.segments ++ it.fins).map .sent⟩

def step (s : TransportThread) : ThreadAction → Option TransportThread
  | .mywrite buf =>
      s.thread.context.bind fun ctx =>
        if ctx.closeRequested then none
        else some { s with thread := s.thread.withContext (Stcp.mywrite ctx buf) }
  | .myclose =>
      s.thread.context.map fun ctx =>
        { s with thread := s.thread.withContext (mycloseRequest ctx) }
  | .deliver data =>
      s.thread.context.map fun ctx =>
        { s with
          thread := s.thread.withContext (networkRecvThread ctx ⟨data, .application⟩) }
  | .run uninit =>
      match s.thread with
      | .handshake call ctx isn => runHandshake s.log call ctx isn uninit
      | .controlLoop e => runControlLoop s.log e uninit
      | .undefined => none

/-- `transport_init` up to its first blocking call. -/
def transportInit (isActive : Bool) (isn uninit : BitVec 32) : TransportThread :=
  let ctx : MysockContext :=
    { closeRequested := false, networkRecvQueue := [], appSendQueue := [], appRecvQueue := [] }
  if isActive then
    let head : STCPHeader := { thSeq := isn, thAck := uninit, thFlags := thSYN }
    ⟨.handshake .activeWait ctx (isn + 1), [.sent head.toBytes]⟩
  else ⟨.handshake .passiveWait ctx isn, []⟩

end TransportThread

end NetworkStack.Stcp
