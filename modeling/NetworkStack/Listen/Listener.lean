import NetworkStack.Lib.Slots
import NetworkStack.Lib.Transition
import NetworkStack.Listen.Demux

/-!
# A listening mysocket in a run

A run interleaves the three operations on the backlog with the mysockets that the
application opens and closes elsewhere, which decide which descriptors are free. The
transport thread of each established connection announces it once. A mysocket is
closed by its owner only, so the descriptors in the backlog stay in use.

`Inv` is the joint invariant, and `Inv.enqueue_spec` says when a connection is queued
and what queueing it changes.
-/

namespace NetworkStack.Listen

open Slots Transition

/-- The listening mysocket, its backlog, and the record of its connections. -/
structure Listener where
  listenSd : Nat
  queue : ListenQueue
  descriptors : Descriptors
  /-- Connections that were established and not announced yet. -/
  incomplete : List Nat
  /-- Connections in the order in which they were announced. -/
  completed : List Nat
  /-- Connections in the order in which they were accepted. -/
  accepted : List Nat
  /-- An assertion has failed. -/
  failed : Bool

inductive Op where
  | enqueue (packet : List Byte) (peer : Peer)
  | complete (id : Nat)
  | dequeue
  /-- The application opens another mysocket. -/
  | mysocket
  /-- The application closes a mysocket of its own. -/
  | close (sd : Nat)
  deriving DecidableEq, Repr

/-- The context with this identity. -/
def Descriptors.byId (d : Descriptors) (id : Nat) : Option Mysocket :=
  (d.globalCtx.filterMap fun c => c).find? (·.id == id)

namespace Listener

def fail (s : Listener) : Listener := { s with failed := true }

def enqueue (s : Listener) (packet : List Byte) (peer : Peer) : Listener :=
  match mysockEnqueueConnection s.listenSd packet peer.addr sockaddrLen s.queue s.descriptors with
  | .error _ => s.fail
  | .ok (queued, q, d) =>
      { s with
        queue := q
        descriptors := d
        incomplete := if queued then s.incomplete ++ [s.descriptors.created] else s.incomplete }

def complete (s : Listener) (id : Nat) : Option Listener :=
  if id ∈ s.incomplete then
    match s.descriptors.byId id with
    | none => some s.fail
    | some ctx =>
        match mysockPassiveConnectionComplete ctx s.queue s.descriptors with
        | .error _ => some s.fail
        | .ok q => some { s with
            queue := q
            incomplete := s.incomplete.erase id
            completed := s.completed ++ [id] }
  else none

def dequeue (s : Listener) : Option Listener :=
  (mysockDequeueConnection s.queue s.descriptors).map fun r =>
    match r with
    | .error _ => s.fail
    | .ok (ctx, q) => { s with queue := q, accepted := s.accepted ++ [ctx.id] }

/-- The descriptor is in the backlog. -/
def inBacklog (s : Listener) (sd : Nat) : Prop :=
  ∃ r ∈ s.queue.connectionQueue, r.sd = (sd : Int)

instance (s : Listener) (sd : Nat) : Decidable (s.inBacklog sd) := by
  unfold inBacklog
  infer_instance

def step (s : Listener) (op : Op) : Option Listener :=
  if s.failed then none
  else
    match op with
    | .enqueue packet peer => some (s.enqueue packet peer)
    | .complete id => s.complete id
    | .dequeue => s.dequeue
    | .mysocket =>
        (mysockNewMysocket s.descriptors).map fun r => { s with descriptors := r.2 }
    | .close sd =>
        if sd = s.listenSd ∨ s.inBacklog sd then none
        else some { s with
          descriptors := { s.descriptors with
            globalCtx := s.descriptors.globalCtx.set sd none } }

/-- A mysocket that starts to listen. -/
def listen (backlog listenSd : Nat) (d : Descriptors) : Listener where
  listenSd := listenSd
  queue := mysockSetBacklog
    { maxLen := 0, curLen := 0, connectionQueue := [], completedQueue := [] } backlog
  descriptors := d
  incomplete := []
  completed := []
  accepted := []
  failed := false

end Listener

/-! ## The descriptor table -/

/-- Each context knows its place, and no two have the same identity. -/
structure Descriptors.WellFormed (d : Descriptors) : Prop where
  length : d.globalCtx.length = maxNumConnections
  mySd : ∀ (k : Nat) (ctx : Mysocket), d.globalCtx[k]? = some (some ctx) → ctx.mySd = k ∧ ctx.id < d.created
  ids : Keyed (Option.map Mysocket.id) d.globalCtx

/-- A new mysocket takes a free place and a new identity. -/
theorem mysockNewMysocket_spec {d d' : Descriptors} {k : Nat}
    (h : mysockNewMysocket d = some (k, d')) :
    d.globalCtx[k]? = some none ∧ k < d.globalCtx.length ∧
      ∃ ctx : Mysocket, ctx.id = d.created ∧ ctx.mySd = k ∧
        d' = { globalCtx := d.globalCtx.set k (some ctx), created := d.created + 1 } := by
  obtain ⟨k', hk, hd⟩ := Option.map_eq_some_iff.mp h
  obtain ⟨rfl, rfl⟩ := Prod.mk.inj hd
  obtain ⟨hlt, hnone, -⟩ := List.findIdx?_eq_some_iff_getElem.mp hk
  refine ⟨?_, hlt, _, rfl, rfl, rfl⟩
  rw [List.getElem?_eq_getElem hlt]
  simpa using hnone

theorem Descriptors.WellFormed.set_new {d : Descriptors} {k : Nat} {ctx : Mysocket}
    (hd : d.WellFormed) (hid : ctx.id = d.created) (hsd : ctx.mySd = k) :
    Descriptors.WellFormed
      { globalCtx := d.globalCtx.set k (some ctx), created := d.created + 1 } where
  length := by simpa using hd.length
  mySd := by
    intro j c hj
    obtain ⟨rfl, hc⟩ | ⟨-, hj⟩ := getElem?_set_cases hj
    · obtain rfl := Option.some.inj hc
      exact ⟨hsd, hid ▸ Nat.lt_succ_self _⟩
    · obtain ⟨h₁, h₂⟩ := hd.mySd j c hj
      exact ⟨h₁, Nat.lt_succ_of_lt h₂⟩
  ids := by
    apply hd.ids.set
    intro x hx b hb hbx
    obtain ⟨j, hj⟩ := List.mem_iff_getElem?.mp hb
    cases b with
    | none => simp at hbx
    | some c =>
        have hlt := (hd.mySd j c hj).2
        simp only [Option.map_some, Option.some.injEq] at hx hbx
        omega

theorem Descriptors.WellFormed.set_none {d : Descriptors} (hd : d.WellFormed) (k : Nat) :
    Descriptors.WellFormed { d with globalCtx := d.globalCtx.set k none } where
  length := by simpa using hd.length
  mySd := by
    intro j c hj
    obtain ⟨-, hc⟩ | ⟨-, hj⟩ := getElem?_set_cases hj
    · cases hc
    · exact hd.mySd j c hj
  ids := hd.ids.set_none rfl

/-! ## The invariant -/

def ConnectRequest.occupied (r : ConnectRequest) : Bool := r.sd != -1

/-- The descriptor in an occupied slot. -/
def ConnectRequest.sdKey (r : ConnectRequest) : Option Int := if r.occupied then some r.sd else none

/-- The peer in an occupied slot. -/
def ConnectRequest.addrKey (r : ConnectRequest) : Option Sockaddr :=
  if r.occupied then some r.peerAddr else none

theorem ConnectRequest.occupied_iff {r : ConnectRequest} : r.occupied = true ↔ r.sd ≠ -1 :=
  bne_iff_ne

theorem ConnectRequest.occupied_of_sd {r : ConnectRequest} {sd : Nat} (h : r.sd = (sd : Int)) :
    r.occupied = true := by
  rw [occupied_iff, h]
  omega

/-- Occupied slots with the same descriptor are the same slot. -/
theorem index_eq_of_sd {l : List ConnectRequest} {i j : Nat} {r r' : ConnectRequest}
    (h : Keyed ConnectRequest.sdKey l) (hi : l[i]? = some r) (hj : l[j]? = some r')
    (hsd : r.sd ≠ -1) (heq : r.sd = r'.sd) : i = j := by
  have hocc : r.occupied = true := ConnectRequest.occupied_iff.mpr hsd
  have hocc' : r'.occupied = true := ConnectRequest.occupied_iff.mpr (heq ▸ hsd)
  apply h i j r r' r.sd hi hj
  · simp [ConnectRequest.sdKey, hocc]
  · simp [ConnectRequest.sdKey, hocc', heq]

/-- The identity of the connection in a slot. -/
def Listener.idAt (s : Listener) (k : Nat) : Option Nat :=
  (s.queue.connectionQueue[k]?).bind fun r =>
    if r.occupied then (s.descriptors.globalCtx[r.sd.toNat]?).join.map Mysocket.id else none

/-- An occupied slot is filled in, and its descriptor is in use. -/
structure SlotOk (listenSd : Nat) (d : Descriptors) (r : ConnectRequest) : Prop where
  addrLen : r.peerAddrLen = sockaddrLen
  context : ∃ (sd : Nat) (ctx : Mysocket), r.sd = sd ∧ d.globalCtx[sd]? = some (some ctx) ∧
    ctx.listenSd = listenSd

/-- The joint invariant of `n` slots, the counter and the completed queue. -/
structure Inv (n : Nat) (s : Listener) : Prop where
  wellFormed : s.descriptors.WellFormed
  listening : ∃ ctx, s.descriptors.globalCtx[s.listenSd]? = some (some ctx)
  maxLen : s.queue.maxLen = n
  length : s.queue.connectionQueue.length = n
  curLen : s.queue.curLen = s.queue.connectionQueue.countP ConnectRequest.occupied
  slots : ∀ r ∈ s.queue.connectionQueue,
    r = invalidConnectRequest ∨ SlotOk s.listenSd s.descriptors r
  sds : Keyed ConnectRequest.sdKey s.queue.connectionQueue
  addrs : Keyed ConnectRequest.addrKey s.queue.connectionQueue
  nodup : s.queue.completedQueue.Nodup
  pointing : ∀ k ∈ s.queue.completedQueue, (s.idAt k).isSome
  order : s.completed.map some = s.accepted.map some ++ s.queue.completedQueue.map s.idAt
  waiting : ∀ id, id ∈ s.incomplete ↔ ∃ k, s.idAt k = some id ∧ k ∉ s.queue.completedQueue
  old : ∀ id ∈ s.completed, id < s.descriptors.created ∧ id ∉ s.incomplete
  once : s.completed.Nodup ∧ s.incomplete.Nodup
  failed : s.failed = false

theorem SlotOk.occupied {l : Nat} {d : Descriptors} {r : ConnectRequest} (h : SlotOk l d r) :
    r.occupied = true := by
  obtain ⟨sd, ctx, hsd, -⟩ := h.context
  exact ConnectRequest.occupied_of_sd hsd

theorem mysockGetContext_ok {d : Descriptors} {sd : Nat} {ctx : Mysocket} (hd : d.WellFormed)
    (h : d.globalCtx[sd]? = some (some ctx)) : mysockGetContext d sd = .ok ctx := by
  have hlt : sd < maxNumConnections := by
    rw [← hd.length]
    exact (List.getElem?_eq_some_iff.mp h).1
  have hsd := (hd.mySd sd ctx h).1
  simp [mysockGetContext, h, hsd, hlt]

/-- The loop over the slots compares addresses and nothing fails in it. -/
theorem isRetransmission_eq (addr : Sockaddr) (len : Nat) (l : List ConnectRequest)
    (h : ∀ r ∈ l, r.sd = -1 ∨ len = r.peerAddrLen) :
    isRetransmission addr len l = .ok (decide (∃ r ∈ l, r.peerAddr = addr)) := by
  induction l with
  | nil => simp [isRetransmission]
  | cons r rest ih =>
      have hrest := ih fun r hr => h r (List.mem_cons_of_mem _ hr)
      rw [isRetransmission, if_pos (h r List.mem_cons_self), hrest]
      by_cases heq : r.peerAddr = addr
      · simp [heq]
      · simp [heq]

/-- The listener has a slot and a descriptor for a connection set up by this packet. -/
def Listener.accepts (s : Listener) (packet : List Byte) (peer : Peer) : Prop :=
  isSyn packet = true ∧ (∀ r ∈ s.queue.connectionQueue, r.peerAddr ≠ peer.addr) ∧
    s.queue.curLen < s.queue.maxLen ∧ ∃ c ∈ s.descriptors.globalCtx, c = none

instance (s : Listener) (packet : List Byte) (peer : Peer) :
    Decidable (s.accepts packet peer) := by
  unfold Listener.accepts
  infer_instance

/-- What a connection that is queued changes. -/
structure Established (s : Listener) (peer : Peer) (k sd : Nat) (ctx : Mysocket)
    (t : Listener) : Prop where
  free : s.queue.connectionQueue[k]? = some invalidConnectRequest
  unused : s.descriptors.globalCtx[sd]? = some none
  id : ctx.id = s.descriptors.created
  mySd : ctx.mySd = sd
  listenSd : ctx.listenSd = s.listenSd
  fresh : ∀ r ∈ s.queue.connectionQueue, r.peerAddr ≠ peer.addr
  result : t = { s with
    queue := { s.queue with
      curLen := s.queue.curLen + 1
      connectionQueue := s.queue.connectionQueue.set k ⟨peer.addr, sockaddrLen, sd⟩ }
    descriptors :=
      { globalCtx := s.descriptors.globalCtx.set sd (some ctx)
        created := s.descriptors.created + 1 }
    incomplete := s.incomplete ++ [s.descriptors.created] }

theorem Inv.exists_free {n : Nat} {s : Listener} (h : Inv n s)
    (hlen : s.queue.curLen < s.queue.maxLen) :
    ∃ k, (s.queue.connectionQueue.findIdx? (·.sd < 0)) = some k ∧
      s.queue.connectionQueue[k]? = some invalidConnectRequest := by
  have hsome : ∃ r ∈ s.queue.connectionQueue, r.sd < 0 := by
    by_contra hnone
    have hall : ∀ r ∈ s.queue.connectionQueue, r.occupied = true := by
      intro r hr
      by_contra hocc
      apply hnone
      refine ⟨r, hr, ?_⟩
      rw [ConnectRequest.occupied_iff, not_not] at hocc
      omega
    have hcount := List.countP_eq_length.mpr hall
    have h₁ := h.curLen
    have h₂ := h.maxLen
    have h₃ := h.length
    omega
  obtain ⟨k, hk⟩ := Option.isSome_iff_exists.mp
    (List.findIdx?_isSome.trans (by simpa using hsome) :
      (s.queue.connectionQueue.findIdx? fun r => decide (r.sd < 0)).isSome = true)
  refine ⟨k, hk, ?_⟩
  obtain ⟨hlt, hneg, -⟩ := List.findIdx?_eq_some_iff_getElem.mp hk
  rw [List.getElem?_eq_getElem hlt]
  obtain hinv | hok := h.slots _ (List.getElem_mem hlt)
  · rw [hinv]
  · obtain ⟨sd, ctx, hsd, -⟩ := hok.context
    simp only [hsd, decide_eq_true_eq] at hneg
    omega

/-- The checks of a listener that keeps the invariant, in the order of the source. -/
theorem Inv.mysockEnqueueConnection_eq {n : Nat} {s : Listener} (h : Inv n s)
    (packet : List Byte) (peer : Peer) :
    mysockEnqueueConnection s.listenSd packet peer.addr sockaddrLen s.queue s.descriptors =
      if isSyn packet = true ∧ (∀ r ∈ s.queue.connectionQueue, r.peerAddr ≠ peer.addr) ∧
          s.queue.curLen < s.queue.maxLen then
        match s.queue.connectionQueue.findIdx? (·.sd < 0), mysockNewMysocket s.descriptors with
        | some k, some (sd, d) =>
            (establish s.listenSd packet peer.addr sockaddrLen k sd
              { s.queue with curLen := s.queue.curLen + 1 } d).map fun r => (true, r.1, r.2)
        | _, _ => .ok (false, s.queue, s.descriptors)
      else .ok (false, s.queue, s.descriptors) := by
  have htake : s.queue.connectionQueue.take s.queue.maxLen = s.queue.connectionQueue :=
    List.take_of_length_le (by rw [h.length, h.maxLen])
  have hdup := isRetransmission_eq peer.addr sockaddrLen s.queue.connectionQueue (by
    intro r hr
    obtain rfl | hok := h.slots r hr
    · exact .inl rfl
    · exact .inr hok.addrLen.symm)
  unfold mysockEnqueueConnection
  rw [htake, hdup]
  by_cases hsyn : isSyn packet = true
  case neg => simp [hsyn]
  by_cases hpeer : ∃ r ∈ s.queue.connectionQueue, r.peerAddr = peer.addr
  case pos =>
    have hnot : ¬∀ r ∈ s.queue.connectionQueue, r.peerAddr ≠ peer.addr := by simpa using hpeer
    simp [hsyn, hpeer, hnot, bind, Except.bind, pure, Except.pure]
  have hfresh : ∀ r ∈ s.queue.connectionQueue, r.peerAddr ≠ peer.addr := by simpa using hpeer
  by_cases hlen : s.queue.curLen < s.queue.maxLen
  case neg => simp [hsyn, hpeer, hlen, bind, Except.bind, pure, Except.pure]
  obtain ⟨k, hk, hslot⟩ := h.exists_free hlen
  have hset : s.queue.connectionQueue.set k invalidConnectRequest = s.queue.connectionQueue := by
    obtain ⟨hlt, hget⟩ := List.getElem?_eq_some_iff.mp hslot
    rw [← hget, List.set_getElem_self]
  have hsd : (s.queue.connectionQueue[k]?).map ConnectRequest.sd = some (-1) := by
    rw [hslot]
    rfl
  have hcond : isSyn packet = true ∧ (∀ r ∈ s.queue.connectionQueue, r.peerAddr ≠ peer.addr) ∧
      s.queue.curLen < s.queue.maxLen := ⟨hsyn, hfresh, hlen⟩
  rw [if_neg (not_not.mpr hsyn), if_pos hcond, hk]
  simp only [bind, Except.bind, hpeer, decide_false, Bool.false_eq_true, if_false, hlen, if_true,
    hsd, ne_eq, not_true_eq_false, hset]
  cases mysockNewMysocket s.descriptors with
  | none => rfl
  | some r =>
      simp only [pure, Except.pure]
      cases establish s.listenSd packet peer.addr sockaddrLen k r.1
        { s.queue with curLen := s.queue.curLen + 1 } r.2 <;> rfl

theorem mysockNewMysocket_isSome (d : Descriptors) :
    (∃ r, mysockNewMysocket d = some r) ↔ ∃ c ∈ d.globalCtx, c = none := by
  rw [← Option.isSome_iff_exists, mysockNewMysocket, Option.isSome_map, List.findIdx?_isSome]
  simp

/-- A connection that the listener accepts is established, and another one changes
nothing. -/
theorem Inv.enqueue_spec {n : Nat} {s : Listener} (h : Inv n s) (packet : List Byte)
    (peer : Peer) :
    (s.accepts packet peer → ∃ k sd ctx, Established s peer k sd ctx (s.enqueue packet peer)) ∧
      (¬s.accepts packet peer → s.enqueue packet peer = s) := by
  have heq := h.mysockEnqueueConnection_eq packet peer
  constructor
  · rintro ⟨hsyn, hfresh, hlen, hdesc⟩
    obtain ⟨k, hk, hslot⟩ := h.exists_free hlen
    obtain ⟨⟨sd, d⟩, hnew⟩ := (mysockNewMysocket_isSome _).mpr hdesc
    obtain ⟨hunused, hlt, ctx, hid, hsd, rfl⟩ := mysockNewMysocket_spec hnew
    have hwf := h.wellFormed.set_new hid hsd
    have hctx : mysockGetContext _ sd = .ok ctx := mysockGetContext_ok hwf (by simp [hlt])
    rw [if_pos ⟨hsyn, hfresh, hlen⟩, hk, hnew] at heq
    simp only [establish, hctx, bind, Except.bind, pure, Except.pure, Except.map,
      List.set_set] at heq
    refine ⟨k, sd, { ctx with
      listenSd := s.listenSd
      peerAddr := some peer.addr
      networkRecvQueue := ctx.networkRecvQueue ++ [packet]
      transportThreadStarted := true },
      hslot, hunused, hid, hsd, rfl, hfresh, ?_⟩
    rw [Listener.enqueue, heq]
    rfl
  · intro hno
    have hfalse : mysockEnqueueConnection s.listenSd packet peer.addr sockaddrLen s.queue
        s.descriptors = .ok (false, s.queue, s.descriptors) := by
      rw [heq]
      split
      · rename_i hcond
        have hnone : mysockNewMysocket s.descriptors = none := by
          by_contra hsome
          obtain ⟨r, hr⟩ := Option.ne_none_iff_exists'.mp hsome
          exact hno ⟨hcond.1, hcond.2.1, hcond.2.2,
            (mysockNewMysocket_isSome _).mp ⟨r, hr⟩⟩
        simp [hnone]
      · rfl
    simp [Listener.enqueue, hfalse]

end NetworkStack.Listen
