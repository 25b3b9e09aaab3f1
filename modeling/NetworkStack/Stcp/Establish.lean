import NetworkStack.Stcp.Connection
import NetworkStack.Stcp.TransportInit

/-!
# Two transport threads from the first SYN on

One side connects, the other accepts, and the links between them are those of an established
connection. A thread is in its handshake or a party of the connection; its application is
blocked in `myconnect` or `myaccept` until it enters `control_loop`.
-/

namespace NetworkStack.Stcp

open Transition

/-- Where the thread of a side is. -/
inductive ThreadEnd where
  | handshake (call : HandshakeCall) (ctx : MysockContext) (initialSequenceNum : BitVec 32)
  | controlLoop (p : Party)

namespace ThreadEnd

/-- The party that a thread becomes when it enters the loop. -/
def entering (e : Endpoint) : Party := { Connection.startParty 0 with toEndpoint := e }

def ofThread : Thread → Option ThreadEnd
  | .handshake call ctx isn => some (.handshake call ctx isn)
  | .controlLoop e => some (.controlLoop (entering e))
  | .undefined => none

/-- The network thread hands over a datagram. -/
def receive (packet : Packet) : ThreadEnd → ThreadEnd
  | .handshake call ctx isn => .handshake call (networkRecvThread ctx packet) isn
  | .controlLoop p =>
      .controlLoop { p with toMysockContext := networkRecvThread p.toMysockContext packet }

end ThreadEnd

/-- What was sent, according to a log. -/
def sentPackets (log : List Call) : List Packet :=
  log.filterMap fun
    | .sent data => some ⟨data, .application⟩
    | .waitReturned _ => none

/-- The two threads and the datagrams on their way to each. -/
structure Opening where
  thread : Side → ThreadEnd
  link : Side → List Packet

namespace Opening

def put (s : Opening) (i : Side) (e : ThreadEnd) (out : List Packet) : Opening where
  thread := Function.update s.thread i e
  link := Function.update s.link i.peer (s.link i.peer ++ out)

/-- The thread goes on to its next blocking call. -/
def run (s : Opening) (i : Side) (uninit : BitVec 32) : Option Opening :=
  match s.thread i with
  | .handshake call ctx isn => do
      let t ← TransportThread.runHandshake [] call ctx isn uninit
      let e ← ThreadEnd.ofThread t.thread
      return s.put i e (sentPackets t.log)
  | .controlLoop p =>
      if p.done then none
      else
        match controlLoopBody p.toEndpoint uninit with
        | .error _ => none
        | .ok it => some (s.put i (.controlLoop (p.account it)) it.packets)

def step (s : Opening) : Action → Option Opening
  | .mywrite i buf =>
      match s.thread i with
      | .handshake .. => none
      | .controlLoop p =>
          if p.closeCalled then none
          else some (s.put i (.controlLoop { p with
            toMysockContext := mywrite p.toMysockContext buf
            written := p.written ++ buf }) [])
  | .myclose i =>
      match s.thread i with
      | .handshake .. => none
      | .controlLoop p =>
          if p.closeCalled then none
          else some (s.put i (.controlLoop { p with
            toMysockContext := mycloseRequest p.toMysockContext
            closeCalled := true }) [])
  | .deliver i =>
      match s.link i with
      | [] => none
      | pk :: rest => some
          { thread := Function.update s.thread i ((s.thread i).receive pk)
            link := Function.update s.link i rest }
  | .iterate i uninit => s.run i uninit

/-- No queue has anything in it. -/
def emptyContext : MysockContext where
  closeRequested := false
  networkRecvQueue := []
  appSendQueue := []
  appRecvQueue := []

/-- The SYN that `transport_init` sends before its first blocking call. -/
def synHeader (isn uninit : BitVec 32) : STCPHeader where
  thSeq := isn
  thAck := uninit
  thFlags := thSYN

/-- Both threads at their first blocking call. -/
def start (isn : Side → BitVec 32) (uninit : BitVec 32) : Opening where
  thread
    | .active => .handshake .activeWait emptyContext (isn .active + 1)
    | .passive => .handshake .passiveWait emptyContext (isn .passive)
  link
    | .active => []
    | .passive => [⟨(synHeader (isn .active) uninit).toBytes, .application⟩]

/-- The two threads are those of `transport_init`. -/
theorem start_eq_transportInit (isn : Side → BitVec 32) (uninit : BitVec 32) (i : Side) :
    ThreadEnd.ofThread (TransportThread.transportInit (i = .active) (isn i) uninit).thread =
        some ((start isn uninit).thread i) ∧
      (start isn uninit).link i.peer =
        sentPackets (TransportThread.transportInit (i = .active) (isn i) uninit).log := by
  cases i <;> exact ⟨rfl, rfl⟩

/-! ## The stages of the handshake -/

def segment (h : STCPHeader) : Packet := ⟨h.toBytes, .application⟩

def synAckHeader (isn : Side → BitVec 32) : STCPHeader where
  thSeq := isn .passive
  thAck := isn .active + 1
  thFlags := thACK + thSYN

def ackHeader (isn : Side → BitVec 32) : STCPHeader where
  thSeq := isn .active + 1
  thAck := isn .passive + 1
  thFlags := thACK

/-- The sequence number with which a side enters the loop. -/
def loopIsn (isn : Side → BitVec 32) : Side → BitVec 32
  | .active => isn .active + 1 + 1
  | .passive => isn .passive + 1

/-- A context in which only datagrams wait. -/
def waiting (queue : List Packet) : MysockContext :=
  { emptyContext with networkRecvQueue := queue }

/-- A party that has entered the loop and to which only datagrams have come. -/
def idleParty (isn : BitVec 32) (queue : List Packet) : Party :=
  { Connection.startParty isn with networkRecvQueue := queue }

/-- How the threads and links stand for an established connection, stage by stage. What is
on its way to a side includes what it has been handed and not taken yet. -/
inductive Mirrors (isn : Side → BitVec 32) (s : Opening) (c : Connection) : Prop
  | syn (call : HandshakeCall) (queue : List Packet) (uninit : BitVec 32)
      (hcall : call = .passiveWait ∨ call = .passiveRecv)
      (hactive : s.thread .active = .handshake .activeWait (waiting []) (isn .active + 1))
      (hpassive : s.thread .passive = .handshake call (waiting queue) (isn .passive))
      (hback : s.link .active = [])
      (hsyn : queue ++ s.link .passive = [segment (synHeader (isn .active) uninit)])
      (hstart : c = Connection.start (loopIsn isn))
  | synAck (call : HandshakeCall) (queue : List Packet)
      (hcall : call = .activeWait ∨ call = .activeRecv)
      (hactive : s.thread .active = .handshake call (waiting queue) (isn .active + 1))
      (hpassive : s.thread .passive = .handshake .passiveWait2 (waiting []) (isn .passive + 1))
      (hfwd : s.link .passive = [])
      (hsynAck : queue ++ s.link .active = [segment (synAckHeader isn)])
      (hstart : c = Connection.start (loopIsn isn))
  | ackSent (hactive : s.thread .active = .controlLoop (c.party .active))
      (hpassive : s.thread .passive = .handshake .passiveWait2 (waiting []) (isn .passive + 1))
      (hparty : c.party .passive = idleParty (loopIsn isn .passive) [])
      (hback : s.link .active = c.link .active)
      (hack : s.link .passive = segment (ackHeader isn) :: c.link .passive)
  | ackThere (call : HandshakeCall) (queue : List Packet)
      (hcall : call = .passiveWait2 ∨ call = .passiveRecv2)
      (hactive : s.thread .active = .controlLoop (c.party .active))
      (hpassive : s.thread .passive = .handshake call
        (waiting (segment (ackHeader isn) :: queue)) (isn .passive + 1))
      (hparty : c.party .passive = idleParty (loopIsn isn .passive) queue)
      (hlink : s.link = c.link)
  | established (hthread : ∀ i, s.thread i = .controlLoop (c.party i)) (hlink : s.link = c.link)

variable {isn : Side → BitVec 32} {s t : Opening} {c : Connection} {i : Side} {a : Action}
  {uninit : BitVec 32} {queue : List Packet} {n : BitVec 32}

@[simp] theorem put_thread_self (s : Opening) (i : Side) (e : ThreadEnd) (out : List Packet) :
    (s.put i e out).thread i = e := by
  simp [put]

@[simp] theorem put_thread_peer (s : Opening) (i : Side) (e : ThreadEnd) (out : List Packet) :
    (s.put i e out).thread i.peer = s.thread i.peer := by
  simp [put]

@[simp] theorem put_link_self (s : Opening) (i : Side) (e : ThreadEnd) (out : List Packet) :
    (s.put i e out).link i = s.link i := by
  simp [put]

@[simp] theorem put_link_peer (s : Opening) (i : Side) (e : ThreadEnd) (out : List Packet) :
    (s.put i e out).link i.peer = s.link i.peer ++ out := by
  simp [put]

@[simp] theorem handshakeSeq_toBytes (h : STCPHeader) (uninit : BitVec 32) :
    handshakeSeq h.toBytes uninit = h.thSeq := by
  rw [handshakeSeq, if_pos (by rw [STCPHeader.toBytes_length]; decide), STCPHeader.ofBytes_toBytes]

/-- A wait of the handshake ends when a datagram is there. -/
theorem run_wait {call next : HandshakeCall} {flags : Events}
    (hwait : call.wait = some (flags, next)) (hthread : s.thread i = .handshake call (waiting queue) n) :
    s.run i uninit =
      if queue = [] then none else some (s.put i (.handshake next (waiting queue) n) []) := by
  have hflags : flags.networkData = true := by
    cases call <;> first | cases hwait; rfl | cases hwait
  have hevents : pendingEvents (waiting queue) flags = ⟨false, !queue.isEmpty, false⟩ := by
    simp [pendingEvents, waiting, emptyContext, hflags]
  simp only [run, hthread, TransportThread.runHandshake, hwait, stcpWaitForEvent, hevents]
  cases queue with
  | nil => rfl
  | cons pk rest => rfl

theorem sentPackets_map (datas : List (List Byte)) :
    sentPackets (datas.map .sent) = datas.map fun data => ⟨data, .application⟩ := by
  induction datas with
  | nil => rfl
  | cons data rest ih => exact congrArg (_ :: ·) ih

/-- A receive of the handshake takes the datagram at the head. -/
theorem run_recv {call : HandshakeCall} (hwait : call.wait = none)
    (hthread : s.thread i = .handshake call (waiting queue) n) :
    s.run i uninit = queue.head?.bind fun pk => do
      let r ← handshakeRecv call (waiting queue.tail) n (handshakeSeq pk.data uninit)
      let e ← ThreadEnd.ofThread r.2
      return s.put i e (r.1.map fun data => ⟨data, .application⟩) := by
  simp only [run, hthread, TransportThread.runHandshake, hwait]
  cases queue with
  | nil => rfl
  | cons pk rest =>
      have htail : ({ waiting (pk :: rest) with networkRecvQueue := rest } : MysockContext) =
          waiting rest := rfl
      simp only [List.head?_cons, List.tail_cons, Option.bind_some, waiting] at htail ⊢
      cases handshakeRecv call { emptyContext with networkRecvQueue := rest } n
          (handshakeSeq pk.data uninit) with
      | none => rfl
      | some r =>
          simp only [Option.map_some, Option.bind_eq_bind, Option.bind_some, List.nil_append,
            sentPackets_map]

/-! ## Each step is mirrored -/

/-- The actions of a side, apart from a delivery. -/
def Own (i : Side) (a : Action) : Prop :=
  (∃ buf, a = .mywrite i buf) ∨ a = .myclose i ∨ ∃ uninit, a = .iterate i uninit

/-- A thread in the loop does what the party does. -/
theorem step_controlLoop (hthread : s.thread i = .controlLoop (c.party i))
    (ha : Own i a) (h : s.step a = some t) :
    ∃ p out, c.step a = some (c.put i p out) ∧ t = s.put i (.controlLoop p) out := by
  obtain ⟨buf, rfl⟩ | rfl | ⟨uninit, rfl⟩ := ha
  · simp only [step, hthread] at h
    split at h
    · cases h
    · rename_i hcalled
      exact ⟨_, [], by simp only [Connection.step, if_neg hcalled], (Option.some.inj h).symm⟩
  · simp only [step, hthread] at h
    split at h
    · cases h
    · rename_i hcalled
      exact ⟨_, [], by simp only [Connection.step, if_neg hcalled], (Option.some.inj h).symm⟩
  · simp only [step, run, hthread] at h
    split at h
    · cases h
    · rename_i hdone
      split at h
      · cases h
      · rename_i it hbody
        exact ⟨_, _, by simp only [Connection.step, if_neg hdone, hbody], (Option.some.inj h).symm⟩

theorem own_or_deliver (a : Action) : (∃ i, Own i a) ∨ ∃ i, a = .deliver i := by
  cases a with
  | mywrite i buf => exact .inl ⟨i, .inl ⟨buf, rfl⟩⟩
  | myclose i => exact .inl ⟨i, .inr (.inl rfl)⟩
  | deliver i => exact .inr ⟨i, rfl⟩
  | iterate i uninit => exact .inl ⟨i, .inr (.inr ⟨uninit, rfl⟩)⟩

/-- In the handshake the application is blocked. -/
theorem run_of_handshake {call : HandshakeCall} {ctx : MysockContext}
    (hthread : s.thread i = .handshake call ctx n) (ha : Own i a) (h : s.step a = some t) :
    ∃ uninit, s.run i uninit = some t := by
  obtain ⟨buf, rfl⟩ | rfl | ⟨uninit, rfl⟩ := ha
  · simp only [step, hthread] at h
    cases h
  · simp only [step, hthread] at h
    cases h
  · exact ⟨uninit, h⟩

theorem step_deliver (h : s.step (.deliver i) = some t) :
    ∃ pk rest, s.link i = pk :: rest ∧ t =
      { thread := Function.update s.thread i ((s.thread i).receive pk)
        link := Function.update s.link i rest } := by
  simp only [step] at h
  split at h
  · cases h
  · rename_i pk rest hlink
    exact ⟨pk, rest, hlink, (Option.some.inj h).symm⟩

theorem step_deliver_of_link {pk : Packet} {rest : List Packet} (hlink : c.link i = pk :: rest) :
    c.step (.deliver i) = some
      { party := Function.update c.party i { c.party i with
          toMysockContext := networkRecvThread (c.party i).toMysockContext pk }
        link := Function.update c.link i rest } := by
  simp only [Connection.step, hlink]

/-- What is needed of a step: it is one of the connection's, or none. -/
def Answered (isn : Side → BitVec 32) (c : Connection) (t : Opening) : Prop :=
  ∃ bs c', exec Connection.step c bs = some c' ∧ Mirrors isn t c'

theorem Answered.stutter (h : Mirrors isn t c) : Answered isn c t := ⟨[], c, rfl, h⟩

theorem Answered.step {c' : Connection} (hstep : c.step a = some c') (h : Mirrors isn t c') :
    Answered isn c t :=
  ⟨[a], c', exec_cons.mpr ⟨c', hstep, rfl⟩, h⟩

theorem answered_established (hthread : ∀ i, s.thread i = .controlLoop (c.party i))
    (hlink : s.link = c.link) (h : s.step a = some t) : Answered isn c t := by
  obtain ⟨i, ha⟩ | ⟨i, rfl⟩ := own_or_deliver a
  · obtain ⟨p, out, hc, rfl⟩ := step_controlLoop (hthread i) ha h
    refine .step hc (.established (fun k => ?_) (by simp [put, Connection.put, hlink]))
    rcases Side.eq_or_eq_peer i k with rfl | rfl
    · simp
    · simp [hthread]
  · obtain ⟨pk, rest, hpk, rfl⟩ := step_deliver h
    refine .step (step_deliver_of_link (by rw [← hlink]; exact hpk))
      (.established (fun k => ?_) (by rw [hlink]))
    rcases Side.eq_or_eq_peer i k with rfl | rfl
    · simp [hthread, ThreadEnd.receive]
    · simp [hthread]

theorem receive_handshake {call : HandshakeCall} (pk : Packet) :
    ThreadEnd.receive pk (.handshake call (waiting queue) n) =
      .handshake call (waiting (queue ++ [pk])) n := (rfl)

/-- The active side is in the loop, and its ACK has not been handed over. -/
theorem answered_ackSent (hactive : s.thread .active = .controlLoop (c.party .active))
    (hpassive : s.thread .passive = .handshake .passiveWait2 (waiting []) (isn .passive + 1))
    (hparty : c.party .passive = idleParty (loopIsn isn .passive) [])
    (hback : s.link .active = c.link .active)
    (hack : s.link .passive = segment (ackHeader isn) :: c.link .passive)
    (h : s.step a = some t) : Answered isn c t := by
  obtain ⟨i, ha⟩ | ⟨i, rfl⟩ := own_or_deliver a
  · cases i with
    | active =>
        obtain ⟨p, out, hc, rfl⟩ := step_controlLoop hactive ha h
        refine .step hc (.ackSent ?_ ?_ ?_ ?_ ?_)
        · simp
        · exact (put_thread_peer s .active _ out).trans hpassive
        · exact (Connection.put_party_peer c .active p out).trans hparty
        · simp [hback]
        · have hlink := put_link_peer s .active (.controlLoop p) out
          rw [Side.peer, hack] at hlink
          rw [hlink]
          simp [Connection.put, Side.peer]
    | passive =>
        obtain ⟨uninit, hrun⟩ := run_of_handshake hpassive ha h
        rw [run_wait rfl hpassive, if_pos rfl] at hrun
        cases hrun
  · obtain ⟨pk, rest, hpk, rfl⟩ := step_deliver h
    cases i with
    | active =>
        refine .step (step_deliver_of_link (hback ▸ hpk)) (.ackSent ?_ ?_ ?_ ?_ ?_)
        · simp [hactive, ThreadEnd.receive]
        · simp [hpassive]
        · simp [hparty]
        · simp
        · simp [hack]
    | passive =>
        rw [hack] at hpk
        obtain ⟨rfl, rfl⟩ := List.cons.inj hpk
        refine .stutter (.ackThere .passiveWait2 [] (.inl rfl) ?_ ?_ hparty ?_)
        · simp [hactive]
        · simp [hpassive, receive_handshake]
        · funext k
          cases k <;> simp [hback]

/-- The passive side takes the ACK when its receive comes to it. -/
theorem answered_ackThere {call : HandshakeCall}
    (hcall : call = .passiveWait2 ∨ call = .passiveRecv2)
    (hactive : s.thread .active = .controlLoop (c.party .active))
    (hpassive : s.thread .passive = .handshake call
      (waiting (segment (ackHeader isn) :: queue)) (isn .passive + 1))
    (hparty : c.party .passive = idleParty (loopIsn isn .passive) queue)
    (hlink : s.link = c.link) (h : s.step a = some t) : Answered isn c t := by
  obtain ⟨i, ha⟩ | ⟨i, rfl⟩ := own_or_deliver a
  · cases i with
    | active =>
        obtain ⟨p, out, hc, rfl⟩ := step_controlLoop hactive ha h
        refine .step hc (.ackThere call queue hcall ?_ ?_ ?_ ?_)
        · simp
        · exact (put_thread_peer s .active _ out).trans hpassive
        · exact (Connection.put_party_peer c .active p out).trans hparty
        · simp [put, Connection.put, hlink]
    | passive =>
        obtain ⟨uninit, hrun⟩ := run_of_handshake hpassive ha h
        obtain rfl | rfl := hcall
        · rw [run_wait rfl hpassive, if_neg (List.cons_ne_nil _ _)] at hrun
          obtain rfl := Option.some.inj hrun
          refine .stutter (.ackThere .passiveRecv2 queue (.inr rfl) ?_ ?_ hparty ?_)
          · exact (put_thread_peer s .passive _ []).trans hactive
          · simp
          · simp [put, hlink]
        · rw [run_recv rfl hpassive] at hrun
          obtain rfl := Option.some.inj hrun
          refine .stutter (.established (fun k => ?_) ?_)
          · cases k with
            | active => exact (put_thread_peer s .passive _ []).trans hactive
            | passive =>
                rw [hparty]
                simp [ThreadEnd.entering, idleParty, loopIsn, Connection.startParty, waiting,
                  emptyContext, controlLoopEntry]
          · simp [put, hlink]
  · obtain ⟨pk, rest, hpk, rfl⟩ := step_deliver h
    refine .step (step_deliver_of_link (by rw [← hlink]; exact hpk)) ?_
    cases i with
    | active =>
        refine .ackThere call queue hcall ?_ ?_ ?_ ?_
        · simp [hactive, ThreadEnd.receive]
        · simp [hpassive]
        · simp [hparty]
        · rw [hlink]
    | passive =>
        refine .ackThere call (queue ++ [pk]) hcall ?_ ?_ ?_ ?_
        · simp [hactive]
        · simp [hpassive, receive_handshake]
        · simp [hparty, idleParty, networkRecvThread, mysockEnqueueBuffer]
        · rw [hlink]

/-- The SYN-ACK is under way, and the active side answers it when its receive comes to it. -/
theorem answered_synAck {call : HandshakeCall} (hcall : call = .activeWait ∨ call = .activeRecv)
    (hactive : s.thread .active = .handshake call (waiting queue) (isn .active + 1))
    (hpassive : s.thread .passive = .handshake .passiveWait2 (waiting []) (isn .passive + 1))
    (hfwd : s.link .passive = [])
    (hsynAck : queue ++ s.link .active = [segment (synAckHeader isn)])
    (hstart : c = Connection.start (loopIsn isn)) (h : s.step a = some t) : Answered isn c t := by
  obtain ⟨i, ha⟩ | ⟨i, rfl⟩ := own_or_deliver a
  · cases i with
    | active =>
        obtain ⟨uninit, hrun⟩ := run_of_handshake hactive ha h
        obtain rfl | rfl := hcall
        · rw [run_wait rfl hactive] at hrun
          split at hrun
          · cases hrun
          · obtain rfl := Option.some.inj hrun
            refine .stutter (.synAck .activeRecv queue (.inr rfl) ?_ ?_ ?_ ?_ hstart)
            · simp
            · exact (put_thread_peer s .active _ []).trans hpassive
            · have hlink := put_link_peer s .active (.handshake .activeRecv (waiting queue)
                (isn .active + 1)) []
              rwa [Side.peer, hfwd] at hlink
            · simpa using hsynAck
        · rw [run_recv rfl hactive] at hrun
          cases queue with
          | nil => cases hrun
          | cons pk rest =>
              obtain ⟨rfl, hrest⟩ := List.cons.inj hsynAck
              obtain ⟨rfl, hlink⟩ := List.append_eq_nil_iff.mp hrest
              obtain rfl := Option.some.inj hrun
              subst hstart
              refine .stutter (.ackSent ?_ ?_ rfl ?_ ?_)
              · rw [put_thread_self]
                rfl
              · exact (put_thread_peer s .active _ _).trans hpassive
              · rw [put_link_self]
                exact hlink
              · refine (put_link_peer s .active _ _).trans ?_
                rw [Side.peer, hfwd, segment, handshakeSeq_toBytes]
                rfl
    | passive =>
        obtain ⟨uninit, hrun⟩ := run_of_handshake hpassive ha h
        rw [run_wait rfl hpassive, if_pos rfl] at hrun
        cases hrun
  · obtain ⟨pk, rest, hpk, rfl⟩ := step_deliver h
    cases i with
    | active =>
        refine .stutter (.synAck call (queue ++ [pk]) hcall ?_ ?_ ?_ ?_ hstart)
        · simp [hactive, receive_handshake]
        · simp [hpassive]
        · simp [hfwd]
        · simpa [hpk] using hsynAck
    | passive =>
        rw [hfwd] at hpk
        cases hpk

/-- The SYN is under way, and the passive side answers it when its receive comes to it. -/
theorem answered_syn {call : HandshakeCall} {u : BitVec 32}
    (hcall : call = .passiveWait ∨ call = .passiveRecv)
    (hactive : s.thread .active = .handshake .activeWait (waiting []) (isn .active + 1))
    (hpassive : s.thread .passive = .handshake call (waiting queue) (isn .passive))
    (hback : s.link .active = [])
    (hsyn : queue ++ s.link .passive = [segment (synHeader (isn .active) u)])
    (hstart : c = Connection.start (loopIsn isn)) (h : s.step a = some t) : Answered isn c t := by
  obtain ⟨i, ha⟩ | ⟨i, rfl⟩ := own_or_deliver a
  · cases i with
    | active =>
        obtain ⟨uninit, hrun⟩ := run_of_handshake hactive ha h
        rw [run_wait rfl hactive, if_pos rfl] at hrun
        cases hrun
    | passive =>
        obtain ⟨uninit, hrun⟩ := run_of_handshake hpassive ha h
        obtain rfl | rfl := hcall
        · rw [run_wait rfl hpassive] at hrun
          split at hrun
          · cases hrun
          · obtain rfl := Option.some.inj hrun
            refine .stutter (.syn .passiveRecv queue u (.inr rfl) ?_ ?_ ?_ ?_ hstart)
            · exact (put_thread_peer s .passive _ []).trans hactive
            · simp
            · have hlink := put_link_peer s .passive (.handshake .passiveRecv (waiting queue)
                (isn .passive)) []
              rwa [Side.peer, hback] at hlink
            · simpa using hsyn
        · rw [run_recv rfl hpassive] at hrun
          cases queue with
          | nil => cases hrun
          | cons pk rest =>
              obtain ⟨rfl, hrest⟩ := List.cons.inj hsyn
              obtain ⟨rfl, hlink⟩ := List.append_eq_nil_iff.mp hrest
              obtain rfl := Option.some.inj hrun
              refine .stutter (.synAck .activeWait [] (.inl rfl) ?_ ?_ ?_ ?_ hstart)
              · exact (put_thread_peer s .passive _ _).trans hactive
              · rw [put_thread_self]
                rfl
              · rw [put_link_self]
                exact hlink
              · rw [List.nil_append]
                refine (put_link_peer s .passive _ _).trans ?_
                rw [Side.peer, hback, segment, handshakeSeq_toBytes]
                rfl
  · obtain ⟨pk, rest, hpk, rfl⟩ := step_deliver h
    cases i with
    | active =>
        rw [hback] at hpk
        cases hpk
    | passive =>
        refine .stutter (.syn call (queue ++ [pk]) u hcall ?_ ?_ ?_ ?_ hstart)
        · simp [hactive]
        · simp [hpassive, receive_handshake]
        · simp [hback]
        · simpa [hpk] using hsyn

/-- Every step is a step of the connection, or none. -/
theorem answered_step (hs : Mirrors isn s c) (h : s.step a = some t) : Answered isn c t := by
  cases hs with
  | syn call queue u hcall hactive hpassive hback hsyn hstart =>
      exact answered_syn hcall hactive hpassive hback hsyn hstart h
  | synAck call queue hcall hactive hpassive hfwd hsynAck hstart =>
      exact answered_synAck hcall hactive hpassive hfwd hsynAck hstart h
  | ackSent hactive hpassive hparty hback hack =>
      exact answered_ackSent hactive hpassive hparty hback hack h
  | ackThere call queue hcall hactive hpassive hparty hlink =>
      exact answered_ackThere hcall hactive hpassive hparty hlink h
  | established hthread hlink => exact answered_established hthread hlink h

theorem mirrors_start (isn : Side → BitVec 32) (uninit : BitVec 32) :
    Mirrors isn (start isn uninit) (Connection.start (loopIsn isn)) :=
  .syn .passiveWait [] uninit (.inl rfl) rfl rfl rfl rfl rfl

/-- A run from the first SYN on mirrors a run of an established connection. -/
theorem mirrors_exec {acts : List Action} (h : exec step (start isn uninit) acts = some t) :
    ∃ bs c, exec Connection.step (Connection.start (loopIsn isn)) bs = some c ∧
      Mirrors isn t c :=
  exec_simulates (fun _ _ _ _ hR hstep => answered_step hR hstep) (mirrors_start isn uninit) h

end Opening

end NetworkStack.Stcp
