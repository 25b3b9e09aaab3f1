import NetworkStack.Listen.Backlog

/-!
# The receive thread of a listening mysocket

For each incoming TCP connection the thread accepts it, keeps its socket in
`new_socket`, reads the first packet and hands it to the backlog. Only a connection
that is queued takes the socket over and resets `new_socket`.

A connection is given by what `accept` returns, its peer, and the chunks in which its
bytes can be read; an empty chunk is the end of the stream, and so is the end of the
list. At the end `read` returns zero, or an error if the peer has reset the connection.
-/

namespace NetworkStack.Listen

open Stcp Transition

structure Incoming where
  tmpSd : Int
  peer : Peer
  chunks : List (List Byte)
  reset : Bool
  deriving DecidableEq, Repr

/-- `_tcp_io` with `read`: the bytes and what is left to read, unless a `read` fails. -/
def tcpIo : List (List Byte) → Nat → Option (List Byte × List (List Byte))
  | chunks, 0 => some ([], chunks)
  | [], _ + 1 => none
  | chunk :: rest, count + 1 =>
      if chunk = [] then none
      else if chunk.length ≤ count + 1 then
        (tcpIo rest (count + 1 - chunk.length)).map fun r => (chunk ++ r.1, r.2)
      else some (chunk.take (count + 1), chunk.drop (count + 1) :: rest)

/-- The length in front of a packet, in network byte order. -/
def packetLen : List Byte → Nat
  | [hi, lo] => hi.toNat * 256 + lo.toNat
  | _ => 0

/-- The thread's loop. -/
inductive Status where
  | running
  /-- The loop was left, by the exit pipe or not. -/
  | left (signalled : Bool)
  /-- An assertion has failed. -/
  | aborted
  deriving DecidableEq, Repr

structure RecvThread where
  listener : Listener
  newSocket : Int
  status : Status

/-- `_network_recv_packet` on a listening mysocket: what it returns, `new_socket` then,
and the bytes stored. -/
def networkRecvPacket (newSocket : Int) (c : Incoming) (maxLen : Nat) :
    Except Fault (Int × Int × List Byte) :=
  if c.tmpSd < 0 then .ok (c.tmpSd, newSocket, [])
  else if newSocket ≠ -1 then .error .assertion
  else
    let failure : Int := if c.reset then -1 else 0
    match tcpIo c.chunks 2 with
    | none => .ok (failure, c.tmpSd, [])
    | some (len, rest) =>
        match tcpIo rest (min (packetLen len) maxLen) with
        | none => .ok (failure, c.tmpSd, [])
        | some (dst, _) => .ok (packetLen len, c.tmpSd, dst)

/-- One round of `network_recv_thread_func`, from the poll to the next one. -/
def networkRecvThreadFunc (s : RecvThread) (c : Incoming) : RecvThread :=
  match networkRecvPacket s.newSocket c maxIpPayloadLen with
  | .error _ => { s with status := .aborted }
  | .ok (bytesRead, newSocket, packet) =>
      if bytesRead ≤ 0 then { s with newSocket := newSocket, status := .left false }
      else if (maxIpPayloadLen : Int) < bytesRead then
        { s with newSocket := newSocket, status := .aborted }
      else
        let listener := s.listener.enqueue packet c.peer
        match mysockEnqueueConnection s.listener.listenSd packet c.peer.addr sockaddrLen
            s.listener.queue s.listener.descriptors with
        | .error _ => { s with listener := listener, newSocket := newSocket, status := .aborted }
        | .ok (queued, _) =>
            { s with listener := listener, newSocket := if queued then -1 else newSocket }

inductive RecvAction where
  | incoming (c : Incoming)
  | exitPipe
  /-- Everybody else's operations on the backlog and the descriptors. -/
  | complete (id : Nat)
  | dequeue
  | mysocket
  | close (sd : Nat)
  deriving DecidableEq, Repr

namespace RecvThread

def onListener (s : RecvThread) (op : Op) : Option RecvThread :=
  (s.listener.step op).map fun l => { s with listener := l }

def step (s : RecvThread) : RecvAction → Option RecvThread
  | .incoming c => if s.status = .running then some (networkRecvThreadFunc s c) else none
  | .exitPipe => if s.status = .running then some { s with status := .left true } else none
  | .complete id => s.onListener (.complete id)
  | .dequeue => s.onListener .dequeue
  | .mysocket => s.onListener .mysocket
  | .close sd => s.onListener (.close sd)

/-- The thread of a mysocket that starts to listen. -/
def start (backlog listenSd : Nat) (d : Descriptors) : RecvThread where
  listener := .listen backlog listenSd d
  newSocket := -1
  status := .running

/-- The next connection will find `new_socket` reset, or the thread was told to exit. -/
def Ready (s : RecvThread) : Prop :=
  (s.status = .running ∧ s.newSocket = -1) ∨ s.status = .left true

end RecvThread

/-- The bytes up to the end of the stream. -/
def stream (chunks : List (List Byte)) : List Byte := (chunks.takeWhile (· ≠ [])).flatten

/-- The first packet that a connection delivers in full. -/
def Incoming.packet (c : Incoming) : Option (List Byte) :=
  match stream c.chunks with
  | hi :: lo :: rest =>
      let len := packetLen [hi, lo]
      if len ≤ rest.length then some (rest.take len) else none
  | _ => none

/-- Each connection delivers a packet that fits and that the listener queues. -/
def Served (s : RecvThread) : RecvAction → Prop
  | .incoming c => 0 ≤ c.tmpSd ∧ ∃ packet ∈ c.packet,
      packet.length ≤ maxIpPayloadLen ∧ s.listener.accepts packet c.peer
  | _ => True

instance decidableServed (s : RecvThread) : ∀ a, Decidable (Served s a)
  | .incoming c => inferInstanceAs (Decidable (0 ≤ c.tmpSd ∧ ∃ packet ∈ c.packet,
      packet.length ≤ maxIpPayloadLen ∧ s.listener.accepts packet c.peer))
  | .exitPipe | .complete _ | .dequeue | .mysocket | .close _ => .isTrue trivial

@[simp] theorem stream_nil : stream [] = [] := rfl

@[simp] theorem stream_nil_cons (rest : List (List Byte)) : stream ([] :: rest) = [] := rfl

theorem stream_cons {chunk : List Byte} (h : chunk ≠ []) (rest : List (List Byte)) :
    stream (chunk :: rest) = chunk ++ stream rest := by
  simp [stream, h]

/-- Reading delivers the bytes in order, however they are split into chunks. -/
theorem tcpIo_eq (chunks : List (List Byte)) (count : Nat) :
    (tcpIo chunks count = none ∧ (stream chunks).length < count) ∨
      ∃ rest, tcpIo chunks count = some ((stream chunks).take count, rest) ∧
        stream rest = (stream chunks).drop count ∧ count ≤ (stream chunks).length := by
  induction chunks generalizing count with
  | nil =>
      cases count with
      | zero => exact .inr ⟨[], rfl, rfl, le_rfl⟩
      | succ n => exact .inl ⟨rfl, Nat.succ_pos n⟩
  | cons chunk rest ih =>
      cases count with
      | zero => exact .inr ⟨chunk :: rest, rfl, rfl, Nat.zero_le _⟩
      | succ n =>
          by_cases hnil : chunk = []
          · exact .inl (by simp [tcpIo, hnil])
          rw [stream_cons hnil, tcpIo, if_neg hnil, List.length_append]
          by_cases hle : chunk.length ≤ n + 1
          · rw [if_pos hle]
            obtain ⟨hnone, hlt⟩ | ⟨rest', hread, hrest, hlen⟩ := ih (n + 1 - chunk.length)
            · left
              constructor
              · rw [hnone]
                rfl
              · omega
            · right
              refine ⟨rest', ?_, ?_, by omega⟩
              · rw [hread, List.take_append, List.take_of_length_le hle]
                rfl
              · rw [hrest, List.drop_append, List.drop_of_length_le hle, List.nil_append]
          · right
            have hdrop : chunk.drop (n + 1) ≠ [] := by
              simp only [ne_eq, List.drop_eq_nil_iff]
              exact hle
            refine ⟨chunk.drop (n + 1) :: rest, ?_, ?_, by omega⟩
            · rw [if_neg hle, List.take_append_of_le_length (by omega)]
            · rw [stream_cons hdrop, List.drop_append_of_le_length (by omega)]

/-- What the thread gets from a connection that it accepts: nothing that could be a
packet, a length that is too large, or the packet. -/
theorem networkRecvPacket_spec {c : Incoming} (hsd : 0 ≤ c.tmpSd) (maxLen : Nat) :
    ∃ r dst, networkRecvPacket (-1) c maxLen = .ok (r, c.tmpSd, dst) ∧
      ((r ≤ 0 ∧ ∀ packet ∈ c.packet, packet = []) ∨
        ((maxLen : Int) < r ∧ ∀ packet ∈ c.packet, maxLen < packet.length) ∨
        (0 < r ∧ r = dst.length ∧ dst.length ≤ maxLen ∧ c.packet = some dst)) := by
  have hfailure : (if c.reset then (-1 : Int) else 0) ≤ 0 := by
    split <;> decide
  rw [networkRecvPacket, if_neg (by omega), if_neg (by simp)]
  obtain ⟨hnone, hlt⟩ | ⟨rest, hread, hrest, hlen⟩ := tcpIo_eq c.chunks 2
  · refine ⟨_, _, by rw [hnone], .inl ⟨hfailure, ?_⟩⟩
    unfold Incoming.packet
    split
    · rename_i hstream
      rw [hstream, List.length_cons, List.length_cons] at hlt
      omega
    · simp
  · match hstream : stream c.chunks with
    | [] => simp [hstream] at hlen
    | [_] => simp [hstream] at hlen
    | hi :: lo :: tail =>
        rw [hstream] at hread
        have hrest : stream rest = tail := by rw [hrest, hstream]; rfl
        have hpacket : c.packet = if packetLen [hi, lo] ≤ tail.length
            then some (tail.take (packetLen [hi, lo])) else none := by
          rw [Incoming.packet, hstream]
        simp only [hread, List.take_succ_cons, List.take_zero]
        generalize packetLen [hi, lo] = n at hpacket ⊢
        obtain ⟨hnone, hlt⟩ | ⟨rest', hread', -, hlen'⟩ := tcpIo_eq rest (min n maxLen)
        · refine ⟨_, _, by rw [hnone], .inl ⟨hfailure, ?_⟩⟩
          rw [hrest] at hlt
          rw [hpacket, if_neg (by simp at hlt; omega)]
          nofun
        · rw [hrest] at hread' hlen'
          refine ⟨_, _, by rw [hread'], ?_⟩
          obtain rfl | hpos := Nat.eq_zero_or_pos n
          · exact .inl ⟨le_rfl, by simp [hpacket]⟩
          by_cases hle : n ≤ maxLen
          · rw [Nat.min_eq_left hle] at hlen' ⊢
            have hdst : (tail.take n).length = n := List.length_take_of_le hlen'
            refine .inr (.inr ⟨Int.natCast_pos.mpr hpos, ?_, ?_, hpacket.trans (if_pos hlen')⟩)
            · rw [hdst]
            · rw [hdst]
              exact hle
          · refine .inr (.inl ⟨by omega, ?_⟩)
            rw [hpacket]
            split
            · intro packet hp
              obtain rfl := Option.some.inj hp
              rw [List.length_take]
              omega
            · nofun

/-- No assertion fails, and the connection is queued exactly if the listener accepts it. -/
theorem Inv.queued_iff {n : Nat} {s : Listener} (h : Inv n s) (packet : List Byte)
    (peer : Peer) :
    ∃ queued q d, mysockEnqueueConnection s.listenSd packet peer.addr sockaddrLen s.queue
        s.descriptors = .ok (queued, q, d) ∧ (queued = true ↔ s.accepts packet peer) := by
  obtain ⟨hyes, hno⟩ := h.enqueue_spec packet peer
  cases hres : mysockEnqueueConnection s.listenSd packet peer.addr sockaddrLen s.queue
      s.descriptors with
  | error e =>
      exfalso
      have hfail : s.enqueue packet peer = s.fail := by rw [Listener.enqueue, hres]
      have hinv := h.enqueue packet peer
      rw [hfail] at hinv
      exact Bool.noConfusion hinv.failed
  | ok r =>
      obtain ⟨queued, q, d⟩ := r
      refine ⟨queued, q, d, rfl, ?_⟩
      have hincomplete : (s.enqueue packet peer).incomplete =
          if queued then s.incomplete ++ [s.descriptors.created] else s.incomplete := by
        rw [Listener.enqueue, hres]
      constructor
      · intro hq
        by_contra hnot
        rw [hno hnot, if_pos hq] at hincomplete
        simp at hincomplete
      · intro hacc
        by_contra hq
        obtain ⟨k, sd, ctx, hest⟩ := hyes hacc
        rw [hest.result, if_neg hq] at hincomplete
        simp at hincomplete

namespace RecvThread

variable {n : Nat} {s t : RecvThread}

/-- A round ends with the thread ready for the next connection exactly if this
connection was queued. -/
theorem ready_networkRecvThreadFunc (h : Inv n s.listener) (hrun : s.status = .running)
    (hnew : s.newSocket = -1) (c : Incoming) :
    (networkRecvThreadFunc s c).Ready ↔ Served s (.incoming c) := by
  by_cases hsd : c.tmpSd < 0
  · have hret : networkRecvPacket s.newSocket c maxIpPayloadLen = .ok (c.tmpSd, s.newSocket, []) :=
      if_pos hsd
    have hnot : ¬Served s (.incoming c) := fun hserved => absurd hserved.1 (by omega)
    simp [networkRecvThreadFunc, hret, hsd.le, Ready, hnot]
  have hsd : 0 ≤ c.tmpSd := Int.not_lt.mp hsd
  obtain ⟨r, dst, hret, hcases⟩ := networkRecvPacket_spec hsd maxIpPayloadLen
  unfold networkRecvThreadFunc
  simp only [hnew, hret]
  obtain ⟨hr, hempty⟩ | ⟨hr, hlarge⟩ | ⟨hpos, hlen, hle, hpacket⟩ := hcases
  · rw [if_pos hr]
    constructor
    · simp [Ready]
    · rintro ⟨-, packet, hp, -, hacc⟩
      rw [hempty packet hp] at hacc
      exact absurd hacc.1 (by decide)
  · have hr0 : ¬r ≤ 0 := by omega
    rw [if_neg hr0, if_pos hr]
    constructor
    · simp [Ready]
    · rintro ⟨-, packet, hp, hfit, -⟩
      exact absurd (hlarge packet hp) (by omega)
  · obtain ⟨queued, q, d, henq, hiff⟩ := h.queued_iff dst c.peer
    have hserved : Served s (.incoming c) ↔ s.listener.accepts dst c.peer := by
      simp [Served, hsd, hpacket, hle]
    rw [if_neg (by omega), if_neg (by omega), henq, hserved, ← hiff]
    -- An accepted socket is not negative, so it is not mistaken for a reset one.
    have htmp : c.tmpSd ≠ -1 := by omega
    cases queued <;> simp [Ready, hrun, htmp]

theorem listener_networkRecvThreadFunc (h : Inv n s.listener) (c : Incoming) :
    Inv n (networkRecvThreadFunc s c).listener := by
  unfold networkRecvThreadFunc
  split
  · exact h
  · split
    · exact h
    · split
      · exact h
      · split
        · exact h.enqueue _ _
        · exact h.enqueue _ _

/-- Every action keeps the backlog in order, whatever becomes of the thread. -/
theorem inv_step {a : RecvAction} (h : Inv n s.listener) (hstep : s.step a = some t) :
    Inv n t.listener := by
  have hon {op : Op} (hop : s.onListener op = some t) : Inv n t.listener := by
    obtain ⟨l, hl, rfl⟩ := Option.map_eq_some_iff.mp hop
    exact h.step hl
  cases a with
  | incoming c =>
      simp only [step] at hstep
      split at hstep
      · obtain rfl := Option.some.inj hstep
        exact listener_networkRecvThreadFunc h c
      · cases hstep
  | exitPipe =>
      simp only [step] at hstep
      split at hstep
      · obtain rfl := Option.some.inj hstep
        exact h
      · cases hstep
  | complete id => exact hon hstep
  | dequeue => exact hon hstep
  | mysocket => exact hon hstep
  | close sd => exact hon hstep

/-- One step of the thread or of the others. -/
theorem ready_step {a : RecvAction} (h : Inv n s.listener) (hready : s.Ready)
    (hstep : s.step a = some t) : t.Ready ↔ Served s a := by
  have hon {op : Op} (hop : s.onListener op = some t) : t.Ready := by
    obtain ⟨l, -, rfl⟩ := Option.map_eq_some_iff.mp hop
    exact hready
  cases a with
  | incoming c =>
      simp only [step] at hstep
      split at hstep
      · rename_i hrun
        obtain rfl := Option.some.inj hstep
        obtain ⟨-, hnew⟩ | hleft := hready
        · exact ready_networkRecvThreadFunc h hrun hnew c
        · simp [hrun] at hleft
      · cases hstep
  | exitPipe =>
      simp only [step] at hstep
      split at hstep
      · obtain rfl := Option.some.inj hstep
        exact iff_of_true (.inr rfl) trivial
      · cases hstep
  | complete id => exact iff_of_true (hon hstep) trivial
  | dequeue => exact iff_of_true (hon hstep) trivial
  | mysocket => exact iff_of_true (hon hstep) trivial
  | close sd => exact iff_of_true (hon hstep) trivial

/-- The listener survives a run exactly if each of its connections is queued. -/
theorem ready_iff_served {b listenSd : Nat} {d : Descriptors} {ctx : Mysocket}
    {acts : List RecvAction} {t : RecvThread} (hb : b < 2 ^ 31) (hd : d.WellFormed)
    (hctx : d.globalCtx[listenSd]? = some (some ctx))
    (h : exec step (start b listenSd d) acts = some t) :
    Always step Ready (start b listenSd d) acts ↔
      Guarded step Served (start b listenSd d) acts :=
  always_iff_guarded (I := fun s => Inv (b + 1) s.listener)
    (fun _ _ _ hs hstep => inv_step hs hstep)
    (fun _ _ _ hs hready hstep => ready_step hs hready hstep)
    (inv_listen_of_lt hb hd hctx) (.inl ⟨rfl, rfl⟩) h

/-- The next `accept` finds its assertion true, and the loop is left only by the exit pipe. -/
structure Survives (s : RecvThread) : Prop where
  accepts : s.status = .running → ∀ c maxLen, ∃ r, networkRecvPacket s.newSocket c maxLen = .ok r
  pipe : ∀ signalled, s.status = .left signalled → signalled = true
  asserts : s.status ≠ .aborted

theorem Ready.survives (h : s.Ready) : s.Survives := by
  obtain ⟨hrun, hnew⟩ | hleft := h
  · refine ⟨fun _ c maxLen => ?_, fun _ hleft => ?_, fun habort => ?_⟩
    · rw [hnew]
      rcases lt_or_ge c.tmpSd 0 with hneg | hsd
      · exact ⟨_, if_pos hneg⟩
      · obtain ⟨r, dst, hread, -⟩ := networkRecvPacket_spec hsd maxLen
        exact ⟨_, hread⟩
    · cases hrun.symm.trans hleft
    · cases hrun.symm.trans habort
  · refine ⟨fun hrun => ?_, fun signalled heq => ?_, fun habort => ?_⟩
    · cases hrun.symm.trans hleft
    · obtain rfl : true = signalled := Status.left.inj (hleft.symm.trans heq)
      rfl
    · cases hleft.symm.trans habort

/-- The listener survives whatever is queued. -/
theorem survives_of_served {b listenSd : Nat} {d : Descriptors} {ctx : Mysocket}
    {acts : List RecvAction} (hb : b < 2 ^ 31) (hd : d.WellFormed)
    (hctx : d.globalCtx[listenSd]? = some (some ctx))
    (hg : Guarded step Served (start b listenSd d) acts) :
    Always step Survives (start b listenSd d) acts := by
  have hkept : Always step (fun s => Inv (b + 1) s.listener ∧ s.Ready) (start b listenSd d) acts :=
    always_of_guarded
      (fun _ _ _ hs hga hstep => ⟨inv_step hs.1 hstep, (ready_step hs.1 hs.2 hstep).mpr hga⟩)
      ⟨inv_listen_of_lt hb hd hctx, .inl ⟨rfl, rfl⟩⟩ hg
  exact hkept.mono fun _ h => h.2.survives

/-- A connection that delivers a length and this packet. -/
def delivering (tmpSd : Int) (peer : Peer) (packet : List Byte) : Incoming where
  tmpSd := tmpSd
  peer := peer
  chunks := [[BitVec.ofNat 8 (packet.length / 256), BitVec.ofNat 8 packet.length], packet]
  reset := false

/-- Two peers connect and the first is accepted; then the thread is told to exit. -/
def twoConnections : List RecvAction :=
  [.incoming (delivering 5 ⟨1000, 1⟩ synPacket), .incoming (delivering 6 ⟨2000, 2⟩ synPacket),
    .complete 1, .dequeue, .exitPipe]

theorem ready_twoConnections :
    Always step Ready (start 1 0 oneMysocket) twoConnections := by
  have hsome : (exec step (start 1 0 oneMysocket) twoConnections).isSome = true := by
    decide +kernel
  obtain ⟨t, ht⟩ := Option.isSome_iff_exists.mp hsome
  have hd : oneMysocket.WellFormed := Descriptors.wellFormed_empty.set_new rfl rfl
  have hserved : Guarded step Served (start 1 0 oneMysocket) twoConnections := by
    decide +kernel
  exact (ready_iff_served (by decide) hd rfl ht).mpr hserved

/-- The first connection sends an ACK where a SYN is due, and the next one is good. -/
def ackFirst : List RecvAction :=
  [.incoming (delivering 5 ⟨1000, 1⟩
      (STCPHeader.toBytes { thSeq := 0, thAck := 0, thFlags := thACK })),
    .incoming (delivering 6 ⟨2000, 2⟩ synPacket)]

/-- The packet is dropped and its socket stays in `new_socket`, where the next
connection trips over it. -/
theorem not_ready_ackFirst :
    (exec step (start 1 0 oneMysocket) ackFirst).map status = some .aborted ∧
      ¬Always step Ready (start 1 0 oneMysocket) ackFirst := by
  have hrun : (exec step (start 1 0 oneMysocket) ackFirst).map status = some .aborted := by
    decide +kernel
  constructor
  · exact hrun
  · obtain ⟨t, ht, hstatus⟩ := Option.map_eq_some_iff.mp hrun
    intro halways
    obtain ⟨hrunning, -⟩ | hleft := halways.last ht
    · exact Status.noConfusion (hrunning.symm.trans hstatus)
    · exact Status.noConfusion (hleft.symm.trans hstatus)

end RecvThread

end NetworkStack.Listen
