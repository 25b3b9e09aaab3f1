import NetworkStack.Stcp.Header

/-!
# The backlog of a listening mysocket

The slots of `connection_queue` hold the connections that the application has not
accepted yet; `completed_queue` points into them. A pointer to a slot is its index,
and a pointer to a mysocket context is the `id` the context was created with. A
failing assertion is `Fault.assertion`.

Memory and the sockets below the mysocket layer are taken to be available.
-/

namespace NetworkStack.Listen

open Stcp

inductive Fault where
  | assertion
  deriving DecidableEq, Repr

/-- `struct sockaddr`, compared as sixteen bytes. -/
structure Sockaddr where
  saFamily : BitVec 16
  saData : BitVec 112
  deriving DecidableEq, Repr

def afInet : BitVec 16 := 2

/-- `sizeof(struct sockaddr)`. -/
def sockaddrLen : Nat := 16

/-- An IPv4 peer, as `accept` reports it. -/
structure Peer where
  sinPort : BitVec 16
  sinAddr : BitVec 32
  deriving DecidableEq, Repr

def Peer.addr (p : Peer) : Sockaddr where
  saFamily := afInet
  saData := (0 : BitVec 64) ++ p.sinAddr ++ p.sinPort

/-- `MAX_NUM_CONNECTIONS`. -/
def maxNumConnections : Nat := 64

/-- The part of `mysock_context_t` that the demultiplexing reads and writes. -/
structure Mysocket where
  id : Nat
  mySd : Nat
  listenSd : Int
  peerAddr : Option Sockaddr
  networkRecvQueue : List (List Byte)
  transportThreadStarted : Bool
  deriving DecidableEq, Repr

/-- `connect_request_t`. -/
structure ConnectRequest where
  peerAddr : Sockaddr
  peerAddrLen : Nat
  sd : Int
  deriving DecidableEq, Repr

/-- `INVALIDATE_CONNECT_REQUEST`. -/
def invalidConnectRequest : ConnectRequest where
  peerAddr := ⟨0, 0⟩
  peerAddrLen := 0
  sd := -1

/-- `listen_queue_t`. -/
structure ListenQueue where
  maxLen : Nat
  curLen : Nat
  connectionQueue : List ConnectRequest
  completedQueue : List Nat
  deriving DecidableEq, Repr

/-- The table of mysocket descriptors, and the number of contexts created so far. -/
structure Descriptors where
  globalCtx : List (Option Mysocket)
  created : Nat
  deriving DecidableEq, Repr

/-- `_mysock_set_backlog`. The array is reallocated only to grow, and its new part is
cleared; what a shorter backlog leaves behind stays where it is. -/
def mysockSetBacklog (q : ListenQueue) (backlog : Nat) : ListenQueue :=
  let maxLen := (backlog + 1) % 2 ^ 32
  { q with
    maxLen := maxLen
    connectionQueue :=
      if q.maxLen < maxLen then
        q.connectionQueue.take q.maxLen ++
          List.replicate (maxLen - q.maxLen) invalidConnectRequest
      else q.connectionQueue }

/-- `_mysock_new_mysocket`: a new context in the first free place of the table. -/
def mysockNewMysocket (d : Descriptors) : Option (Nat × Descriptors) :=
  (d.globalCtx.findIdx? (·.isNone)).map fun k =>
    let ctx : Mysocket :=
      { id := d.created
        mySd := k
        listenSd := -1
        peerAddr := none
        networkRecvQueue := []
        transportThreadStarted := false }
    (k, { globalCtx := d.globalCtx.set k (some ctx), created := d.created + 1 })

/-- `_mysock_get_context`, with the checks of `verify_mysocket_descriptor`. -/
def mysockGetContext (d : Descriptors) (sd : Int) : Except Fault Mysocket :=
  if 0 ≤ sd ∧ sd < maxNumConnections then
    match d.globalCtx[sd.toNat]? with
    | some (some ctx) => if (ctx.mySd : Int) = sd then .ok ctx else .error .assertion
    | _ => .error .assertion
  else .error .assertion

/-- The loop that looks for a queued request of the same peer. -/
def isRetransmission (peerAddr : Sockaddr) (peerAddrLen : Nat) :
    List ConnectRequest → Except Fault Bool
  | [] => .ok false
  | r :: rest =>
      if r.sd = -1 ∨ peerAddrLen = r.peerAddrLen then
        if r.peerAddr = peerAddr then .ok true
        else isRetransmission peerAddr peerAddrLen rest
      else .error .assertion

/-- The packet sets up a connection. -/
def isSyn (packet : List Byte) : Bool :=
  headerLen ≤ packet.length && (packet.getD 13 0 &&& thSYN) != 0

/-- A connection is established in slot `k`: a new context, the slot filled in, the
threads started and the SYN handed to them. -/
def establish (listenSd : Int) (packet : List Byte) (peerAddr : Sockaddr) (peerAddrLen k sd : Nat)
    (q : ListenQueue) (d : Descriptors) : Except Fault (ListenQueue × Descriptors) := do
  let newCtx ← mysockGetContext d sd
  let newCtx := { newCtx with
    listenSd := listenSd
    peerAddr := some peerAddr
    networkRecvQueue := newCtx.networkRecvQueue ++ [packet]
    transportThreadStarted := true }
  pure ({ q with
      connectionQueue := q.connectionQueue.set k
        { peerAddr := peerAddr, peerAddrLen := peerAddrLen, sd := sd } },
    { d with globalCtx := d.globalCtx.set sd (some newCtx) })

/-- `_mysock_enqueue_connection` for the listening mysocket `listenSd`. -/
def mysockEnqueueConnection (listenSd : Int) (packet : List Byte) (peerAddr : Sockaddr)
    (peerAddrLen : Nat) (q : ListenQueue) (d : Descriptors) :
    Except Fault (Bool × ListenQueue × Descriptors) :=
  if ¬isSyn packet then .ok (false, q, d)
  else do
    if ← isRetransmission peerAddr peerAddrLen (q.connectionQueue.take q.maxLen) then
      pure (false, q, d)
    else if q.curLen < q.maxLen then
      match (q.connectionQueue.take q.maxLen).findIdx? (·.sd < 0) with
      | none => .error .assertion
      | some k =>
          if (q.connectionQueue[k]?).map ConnectRequest.sd ≠ some (-1) then .error .assertion
          else
            match mysockNewMysocket d with
            | none =>
                -- The slot is given back, and `cur_len` with it.
                pure (false, { q with
                  connectionQueue := q.connectionQueue.set k invalidConnectRequest }, d)
            | some (sd, d') =>
                let (q', d'') ← establish listenSd packet peerAddr peerAddrLen k sd
                  { q with curLen := q.curLen + 1 } d'
                pure (true, q', d'')
    else pure (false, q, d)

/-- `_mysock_passive_connection_complete`. -/
def mysockPassiveConnectionComplete (ctx : Mysocket) (q : ListenQueue) (d : Descriptors) :
    Except Fault ListenQueue :=
  if ctx.listenSd < 0 then .error .assertion
  else do
    let _ ← mysockGetContext d ctx.listenSd
    match (q.connectionQueue.take q.maxLen).findIdx? (fun r => r.sd == (ctx.mySd : Int)) with
    | none => .error .assertion
    | some k => pure { q with completedQueue := q.completedQueue ++ [k] }

/-- `_mysock_dequeue_connection`: the context at the head of the completed queue, or
`none` as long as the caller is blocked. -/
def mysockDequeueConnection (q : ListenQueue) (d : Descriptors) :
    Option (Except Fault (Mysocket × ListenQueue)) :=
  match q.completedQueue with
  | [] => none
  | k :: rest => some <|
      match q.connectionQueue[k]? with
      | none => .error .assertion
      | some r => do
          let newCtx ← mysockGetContext d r.sd
          if q.curLen = 0 then .error .assertion
          else
            pure (newCtx, { q with
              connectionQueue := q.connectionQueue.set k invalidConnectRequest
              completedQueue := rest
              curLen := q.curLen - 1 })

end NetworkStack.Listen
