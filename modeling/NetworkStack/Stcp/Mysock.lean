import NetworkStack.Stcp.Header

/-!
# The mysocket context and its queues

The transport thread meets the application and the network through three packet
queues and the close flag. A queue is the list of its nodes, each the bytes of
one buffer. A node of the network queue also carries the reason its sender had
for sending it; no code reads it, and only statements about runs mention it.
-/

namespace NetworkStack.Stcp

/-- Why a segment was sent: on the application's behalf, or in answer to a data
segment with so many payload bytes, or in answer to a FIN. -/
inductive Cause where
  | application
  | answersData (len : Nat)
  | answersFin
  deriving DecidableEq, Repr

/-- A node of the network queue. -/
structure Packet where
  data : List Byte
  cause : Cause
  deriving DecidableEq, Repr

/-- Why a thread does not get past a call: it waits, or the C program has no
defined behaviour from there on. -/
inductive Halt where
  | blocked
  | undefined
  deriving DecidableEq, Repr

/-- The bit vector of `stcp_event_type_t`. -/
structure Events where
  appData : Bool
  networkData : Bool
  appCloseRequested : Bool
  deriving DecidableEq, Repr

/-- `ANY_EVENT`. -/
def Events.any : Events := ⟨true, true, true⟩

/-- The mask `NETWORK_DATA` alone. -/
def Events.network : Events := ⟨false, true, false⟩

/-- The mask is not zero. -/
def Events.nonzero (e : Events) : Bool :=
  e.appData || e.networkData || e.appCloseRequested

/-- The part of `mysock_context_t` that the transport thread shares with the
application and the network thread. -/
structure MysockContext where
  closeRequested : Bool
  networkRecvQueue : List Packet
  appSendQueue : List (List Byte)
  appRecvQueue : List (List Byte)
  deriving DecidableEq, Repr

def mysockEnqueueBuffer {ν : Type*} (pq : List ν) (packet : ν) : List ν := pq ++ [packet]

/-- `_mysock_dequeue_buffer`: the length it returns, the bytes it stores and the
queue it leaves. The length is that of the whole node unless only a part of the
node is removed, whatever fits in the destination. -/
def mysockDequeueBuffer (pq : List (List Byte)) (maxLen : Nat) (removePartial : Bool) :
    Except Halt (Nat × List Byte × List (List Byte)) :=
  match pq with
  | [] => .error .blocked
  | node :: next =>
      if maxLen < node.length ∧ removePartial = true then
        .ok (maxLen, node.take maxLen, node.drop maxLen :: next)
      else
        .ok (node.length, node.take (min maxLen node.length), next)

/-- `stcp_network_recv`: the length of the datagram at the head, however much of
it fits, and the bytes stored. -/
def stcpNetworkRecv (ctx : MysockContext) (maxLen : Nat) :
    Except Halt (Nat × List Byte × MysockContext) :=
  match ctx.networkRecvQueue with
  | [] => .error .blocked
  | packet :: next => do
      let (len, dst, _) ← mysockDequeueBuffer [packet.data] maxLen false
      pure (len, dst, { ctx with networkRecvQueue := next })

/-- `stcp_app_recv`: part of the application's oldest buffer not yet sent. -/
def stcpAppRecv (ctx : MysockContext) (maxLen : Nat) :
    Except Halt (Nat × List Byte × MysockContext) := do
  let (len, dst, next) ← mysockDequeueBuffer ctx.appRecvQueue maxLen true
  pure (len, dst, { ctx with appRecvQueue := next })

/-- `stcp_app_send`. -/
def stcpAppSend (ctx : MysockContext) (src : List Byte) : MysockContext :=
  if 0 < src.length then
    { ctx with appSendQueue := mysockEnqueueBuffer ctx.appSendQueue src }
  else ctx

/-- `stcp_fin_received`: the empty buffer that makes `myread` return zero. -/
def stcpFinReceived (ctx : MysockContext) : MysockContext :=
  { ctx with appSendQueue := mysockEnqueueBuffer ctx.appSendQueue [] }

/-- The events that have occurred. The close event does not depend on the flags,
and is reported only once the application's data has been handed down. -/
def pendingEvents (ctx : MysockContext) (flags : Events) : Events where
  appData := flags.appData && !ctx.appRecvQueue.isEmpty
  networkData := flags.networkData && !ctx.networkRecvQueue.isEmpty
  appCloseRequested := ctx.closeRequested && ctx.appRecvQueue.isEmpty

/-- `stcp_wait_for_event` without a timeout. Reporting the close event clears
the request. -/
def stcpWaitForEvent (ctx : MysockContext) (flags : Events) :
    Except Halt (Events × MysockContext) :=
  let rc := pendingEvents ctx flags
  if rc.nonzero then
    .ok (rc, { ctx with
      closeRequested := ctx.closeRequested && !rc.appCloseRequested })
  else .error .blocked

/-- `mywrite` past its checks. -/
def mywrite (ctx : MysockContext) (buf : List Byte) : MysockContext :=
  { ctx with appRecvQueue := mysockEnqueueBuffer ctx.appRecvQueue buf }

/-- The request that `myclose` leaves for the transport thread. -/
def mycloseRequest (ctx : MysockContext) : MysockContext :=
  { ctx with closeRequested := true }

/-- The network thread hands over one datagram. -/
def networkRecvThread (ctx : MysockContext) (packet : Packet) : MysockContext :=
  { ctx with networkRecvQueue := mysockEnqueueBuffer ctx.networkRecvQueue packet }

/-- The network buffer stores the datagram's first bytes and reports its full length. -/
theorem stcpNetworkRecv_cons (ctx : MysockContext) (packet : Packet) (next : List Packet)
    (maxLen : Nat) (h : ctx.networkRecvQueue = packet :: next) :
    stcpNetworkRecv ctx maxLen = .ok (packet.data.length, packet.data.take maxLen,
      { ctx with networkRecvQueue := next }) := by
  have htake : packet.data.take (min maxLen packet.data.length) = packet.data.take maxLen := by
    rw [← List.take_take, List.take_length]
  simp [stcpNetworkRecv, h, mysockDequeueBuffer, htake, bind, Except.bind, pure, Except.pure]

/-- What `stcp_app_recv` takes and what it leaves are the application's bytes in order. -/
theorem stcpAppRecv_cons (ctx : MysockContext) (node : List Byte) (next : List (List Byte))
    (maxLen : Nat) (h : ctx.appRecvQueue = node :: next) :
    ∃ rest, stcpAppRecv ctx maxLen = .ok ((node.take maxLen).length, node.take maxLen,
        { ctx with appRecvQueue := rest }) ∧
      node.take maxLen ++ rest.flatten = (node :: next).flatten := by
  by_cases hlen : maxLen < node.length
  · refine ⟨node.drop maxLen :: next, ?_, by simp [← List.append_assoc]⟩
    simp [stcpAppRecv, h, mysockDequeueBuffer, hlen, bind, Except.bind, pure, Except.pure,
      Nat.le_of_lt hlen]
  · have htake : node.take maxLen = node := List.take_of_length_le (by omega)
    have hmin : min maxLen node.length = node.length := by omega
    refine ⟨next, ?_, by simp [htake]⟩
    simp [stcpAppRecv, h, mysockDequeueBuffer, hlen, hmin, htake, bind, Except.bind, pure,
      Except.pure]

/-- The bytes handed up, in order. -/
def MysockContext.passedUp (ctx : MysockContext) : List Byte := ctx.appSendQueue.flatten

/-- The bytes the application wrote that the transport layer has not taken yet. -/
def MysockContext.pending (ctx : MysockContext) : List Byte := ctx.appRecvQueue.flatten

theorem passedUp_stcpAppSend (ctx : MysockContext) (src : List Byte) :
    (stcpAppSend ctx src).passedUp = ctx.passedUp ++ src := by
  unfold stcpAppSend
  split
  · simp [MysockContext.passedUp, mysockEnqueueBuffer]
  · have hnil : src = [] := List.length_eq_zero_iff.mp (by omega)
    simp [hnil]

theorem passedUp_stcpFinReceived (ctx : MysockContext) :
    (stcpFinReceived ctx).passedUp = ctx.passedUp := by
  simp [MysockContext.passedUp, stcpFinReceived, mysockEnqueueBuffer]

end NetworkStack.Stcp
