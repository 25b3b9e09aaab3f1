import NetworkStack.Stcp.Establish
import NetworkStack.Stcp.Stream

/-!
# What the first SYN leads to

Whatever the two applications do once they are unblocked, and however the threads interleave,
the handshake leads to the connection that the rest of the development starts from, each byte
written is passed up, under way or still to be sent, and the handshake can always be completed.
-/

namespace NetworkStack.Stcp

open Transition

namespace ThreadEnd

/-- The datagrams that were handed over and not taken. -/
def queue : ThreadEnd → List Packet
  | .handshake _ ctx _ => ctx.networkRecvQueue
  | .controlLoop p => p.networkRecvQueue

/-- What the application wrote. -/
def written : ThreadEnd → List Byte
  | .handshake .. => []
  | .controlLoop p => p.written

/-- What the application may read. -/
def passedUp : ThreadEnd → List Byte
  | .handshake _ ctx _ => ctx.passedUp
  | .controlLoop p => p.passedUp

/-- What was written and not taken by the thread. -/
def pending : ThreadEnd → List Byte
  | .handshake _ ctx _ => ctx.pending
  | .controlLoop p => p.pending

/-- The calls that are still to be made in the handshake. -/
def remaining : ThreadEnd → Nat
  | .handshake .activeWait .. => 2
  | .handshake .activeRecv .. => 1
  | .handshake .passiveWait .. => 4
  | .handshake .passiveRecv .. => 3
  | .handshake .passiveWait2 .. => 2
  | .handshake .passiveRecv2 .. => 1
  | .controlLoop _ => 0

end ThreadEnd

namespace Opening

/-- What is on its way to a side and not taken yet, oldest first. -/
def chan (s : Opening) (i : Side) : List Packet := (s.thread i).queue ++ s.link i

variable {isn : Side → BitVec 32} {s t : Opening} {c : Connection} {i : Side}
  {acts : List Action} {uninit : BitVec 32} {queue : List Packet} {n : BitVec 32}

/-- The handshake, and two bytes that the active side's application writes. -/
def handshakeAndWrite : List Action :=
  [.deliver .passive, .iterate .passive 7, .iterate .passive 7, .deliver .active,
    .iterate .active 7, .iterate .active 7, .mywrite .active [1, 2], .iterate .active 7,
    .deliver .passive, .iterate .passive 7, .iterate .passive 7, .deliver .passive,
    .iterate .passive 7]

theorem payloads_segment_cons (h : STCPHeader) (pks : List Packet) :
    payloads (segment h :: pks) = payloads pks := by
  have hpayload : (segment h).payload = [] := by
    rw [Packet.payload, segment]
    exact List.drop_of_length_le (Nat.le_of_eq (STCPHeader.toBytes_length h))
  rw [payloads_cons, Packet.load, hpayload, ite_self, List.nil_append]

/-- The bytes of one direction are all accounted for. -/
def Accounted (t : Opening) (i : Side) : Prop :=
  (t.thread i).written =
    (t.thread i.peer).passedUp ++ payloads (t.chan i.peer) ++ (t.thread i).pending

/-- No byte has been written while both threads are in the handshake. -/
theorem accounted_of_handshake {callA callP : HandshakeCall} {queueA queueP : List Packet}
    {nA nP : BitVec 32}
    (hactive : t.thread .active = .handshake callA (waiting queueA) nA)
    (hpassive : t.thread .passive = .handshake callP (waiting queueP) nP)
    (hA : payloads (queueA ++ t.link .active) = []) (hP : payloads (queueP ++ t.link .passive) = [])
    (i : Side) : Accounted t i := by
  cases i with
  | active =>
      rw [Accounted, chan, Side.peer, hactive, hpassive]
      exact (congrArg (· ++ []) hP).symm
  | passive =>
      rw [Accounted, chan, Side.peer, hactive, hpassive]
      exact (congrArg (· ++ []) hA).symm

/-- The passive side has yet to take the ACK, which is in front of all that the active side sent. -/
theorem accounted_of_ack {call : HandshakeCall} (hdir : c.Both Dir)
    (hactive : t.thread .active = .controlLoop (c.party .active))
    (hpassive : t.thread .passive = .handshake call (waiting queue) n)
    {m : BitVec 32} {queue' : List Packet} (hparty : c.party .passive = idleParty m queue')
    (hback : t.link .active = c.link .active)
    (hfwd : queue ++ t.link .passive = segment (ackHeader isn) :: (queue' ++ c.link .passive))
    (i : Side) : Accounted t i := by
  have hstream := (hdir i).stream
  cases i with
  | active =>
      rw [Connection.chan, Side.peer, hparty] at hstream
      rw [Accounted, chan, Side.peer, hactive, hpassive]
      change _ = [] ++ payloads (queue ++ t.link .passive) ++ _
      rw [hfwd, payloads_segment_cons]
      exact hstream
  | passive =>
      rw [Connection.chan, Side.peer, hparty, ← hback] at hstream
      rw [Accounted, chan, Side.peer, hactive, hpassive]
      exact hstream

/-- Each byte that an application wrote was passed up, is on its way, or is still to be sent. -/
theorem stream_exec (h : exec step (start isn uninit) acts = some t) (i : Side) :
    (t.thread i).written =
      (t.thread i.peer).passedUp ++ payloads (t.chan i.peer) ++ (t.thread i).pending := by
  obtain ⟨bs, c, hbs, hc⟩ := mirrors_exec h
  have hdir := (sound_exec hbs).dir
  cases hc with
  | syn call queue u hcall hactive hpassive hback hsyn hstart =>
      exact accounted_of_handshake hactive hpassive (by rw [hback]; rfl)
        (by rw [hsyn, payloads_segment_cons]; rfl) i
  | synAck call queue hcall hactive hpassive hfwd hsynAck hstart =>
      exact accounted_of_handshake hactive hpassive
        (by rw [hsynAck, payloads_segment_cons]; rfl) (by rw [hfwd]; rfl) i
  | ackSent hactive hpassive hparty hback hack =>
      exact accounted_of_ack hdir hactive hpassive hparty hback hack i
  | ackThere call queue hcall hactive hpassive hparty hlink =>
      exact accounted_of_ack hdir hactive hpassive hparty (by rw [hlink])
        (by rw [hlink, List.cons_append]) i
  | established hthread hlink =>
      have hstream := (hdir i).stream
      rw [chan, hthread, hthread, hlink]
      exact hstream

theorem stream_exec_write :
    ∃ t, exec step (start (fun _ => 1) 0) handshakeAndWrite = some t ∧
      (t.thread .active).written =
        (t.thread .passive).passedUp ++ payloads (t.chan .passive) ++ (t.thread .active).pending := by
  have hsome : (exec step (start (fun _ => 1) 0) handshakeAndWrite).isSome = true := by
    decide +kernel
  obtain ⟨t, ht⟩ := Option.isSome_iff_exists.mp hsome
  exact ⟨t, ht, stream_exec ht .active⟩

/-! ## The handshake can be completed -/

/-- An action of a thread or of the network. -/
def Internal : Action → Prop
  | .deliver _ | .iterate .. => True
  | _ => False

/-- A thread in the handshake that has a datagram goes on. -/
theorem run_of_queue {call : HandshakeCall} (hq : queue ≠ [])
    (hthread : s.thread i = .handshake call (waiting queue) n) :
    ∃ t, s.step (.iterate i 0) = some t ∧ t.thread i.peer = s.thread i.peer ∧
      (t.thread i).remaining < (s.thread i).remaining := by
  cases hwait : call.wait with
  | some next =>
      have hrun : s.run i 0 = _ := run_wait hwait hthread
      rw [if_neg hq] at hrun
      refine ⟨_, hrun, put_thread_peer s i _ _, ?_⟩
      rw [put_thread_self, hthread]
      cases call <;> cases hwait <;> exact Nat.lt_succ_self _
  | none =>
      have hrun : s.run i 0 = _ := run_recv hwait hthread
      cases queue with
      | nil => exact absurd rfl hq
      | cons pk rest =>
          cases call with
          | activeWait | passiveWait | passiveWait2 => cases hwait
          | activeRecv | passiveRecv | passiveRecv2 =>
              refine ⟨_, hrun, put_thread_peer s i _ _, ?_⟩
              rw [put_thread_self, hthread]
              exact Nat.lt_succ_self _

/-- Both threads are in their loops. -/
def Established (s : Opening) : Prop := ∀ i, ∃ p, s.thread i = .controlLoop p

/-- A thread in the handshake with a datagram for it. -/
def Awaited (s : Opening) (i : Side) : Prop :=
  ∃ call queue n, s.thread i = .handshake call (waiting queue) n ∧ queue ++ s.link i ≠ []

/-- Before the end, one of the threads in the handshake can go on. -/
theorem established_or_awaited (h : Mirrors isn s c) : Established s ∨ ∃ i, Awaited s i := by
  cases h with
  | syn call queue u hcall hactive hpassive hback hsyn =>
      exact .inr ⟨.passive, call, queue, _, hpassive, by rw [hsyn]; exact List.cons_ne_nil _ _⟩
  | synAck call queue hcall hactive hpassive hfwd hsynAck =>
      exact .inr ⟨.active, call, queue, _, hactive, by rw [hsynAck]; exact List.cons_ne_nil _ _⟩
  | ackSent hactive hpassive hparty hback hack =>
      exact .inr ⟨.passive, _, _, _, hpassive, by rw [hack]; exact List.cons_ne_nil _ _⟩
  | ackThere call queue hcall hactive hpassive =>
      exact .inr ⟨.passive, call, _, _, hpassive, List.cons_ne_nil _ _⟩
  | established hthread => exact .inl fun i => ⟨_, hthread i⟩

/-- The calls of both sides that are still to be made. -/
def remaining (s : Opening) (i : Side) : Nat :=
  (s.thread i).remaining + (s.thread i.peer).remaining

/-- One call, with a delivery before it if it needs one. -/
theorem exec_of_awaited (h : Awaited s i) :
    ∃ more t, more.length ≤ 2 ∧ (∀ a ∈ more, Internal a) ∧ exec step s more = some t ∧
      t.remaining i < s.remaining i := by
  obtain ⟨call, queue, n, hthread, hne⟩ := h
  by_cases hq : queue = []
  · subst hq
    cases hlink : s.link i with
    | nil => exact absurd (by rw [hlink]; rfl) hne
    | cons pk rest =>
        let u : Opening :=
          { thread := Function.update s.thread i ((s.thread i).receive pk)
            link := Function.update s.link i rest }
        have hdeliver : s.step (.deliver i) = some u := by simp only [step, hlink, u]
        have hu : u.thread i = .handshake call (waiting [pk]) n := by
          simp [u, hthread, receive_handshake]
        obtain ⟨t, ht, hpeer, hless⟩ := run_of_queue (List.cons_ne_nil pk []) hu
        have hsame : (u.thread i).remaining = (s.thread i).remaining := by
          rw [hu, hthread]
          cases call <;> rfl
        refine ⟨[.deliver i, .iterate i 0], t, Nat.le_refl 2, by simp [Internal],
          exec_cons.mpr ⟨u, hdeliver, exec_cons.mpr ⟨t, ht, rfl⟩⟩, ?_⟩
        have hkeep : u.thread i.peer = s.thread i.peer := by simp [u]
        rw [remaining, remaining, hpeer, hkeep]
        omega
  · obtain ⟨t, ht, hpeer, hless⟩ := run_of_queue hq hthread
    refine ⟨[.iterate i 0], t, Nat.le_succ 1, by simp [Internal],
      exec_cons.mpr ⟨t, ht, rfl⟩, ?_⟩
    rw [remaining, remaining, hpeer]
    omega

theorem remaining_peer (s : Opening) (i : Side) : s.remaining i = s.remaining .active := by
  cases i with
  | active => rfl
  | passive => exact Nat.add_comm _ _

theorem established_of_remaining (h : Mirrors isn s c) {fuel : Nat}
    (hfuel : s.remaining .active ≤ fuel) :
    ∃ more t, more.length ≤ 2 * fuel ∧ (∀ a ∈ more, Internal a) ∧ exec step s more = some t ∧
      Established t := by
  induction fuel generalizing s c with
  | zero =>
      obtain hdone | ⟨i, hi⟩ := established_or_awaited h
      · exact ⟨[], s, Nat.le_refl 0, by simp, rfl, hdone⟩
      · obtain ⟨more, t, -, -, -, hless⟩ := exec_of_awaited hi
        rw [remaining_peer s i] at hless
        omega
  | succ fuel ih =>
      obtain hdone | ⟨i, hi⟩ := established_or_awaited h
      · exact ⟨[], s, Nat.zero_le _, by simp, rfl, hdone⟩
      · obtain ⟨more, u, hlen, hinternal, hu, hless⟩ := exec_of_awaited hi
        rw [remaining_peer u i, remaining_peer s i] at hless
        obtain ⟨bs, c', -, hc'⟩ :=
          exec_simulates (fun _ _ _ _ hR hstep => answered_step hR hstep) h hu
        obtain ⟨more', t, hlen', hinternal', ht, hdone⟩ := ih hc' (by omega)
        refine ⟨more ++ more', t, ?_, ?_, by rw [exec_append, hu]; exact ht, hdone⟩
        · rw [List.length_append]
          omega
        · intro a ha
          rcases List.mem_append.mp ha with ha | ha
          · exact hinternal a ha
          · exact hinternal' a ha

/-- From every state of every run, a few steps of the threads and the network establish the
connection. -/
theorem completes_exec (h : exec step (start isn uninit) acts = some t) :
    ∃ more u, more.length ≤ 16 ∧ (∀ a ∈ more, Internal a) ∧ exec step t more = some u ∧
      Established u := by
  obtain ⟨bs, c, -, hc⟩ := mirrors_exec h
  have hle (e : ThreadEnd) : e.remaining ≤ 4 := by
    cases e with
    | handshake call ctx n => cases call <;> simp [ThreadEnd.remaining]
    | controlLoop p => exact Nat.zero_le 4
  exact established_of_remaining hc (Nat.add_le_add (hle _) (hle _))

/-- The SYN has arrived and the active side waits. -/
theorem completes_exec_syn :
    ∃ t more u, exec step (start (fun _ => 1) 0) [.deliver .passive] = some t ∧
      more.length ≤ 16 ∧ (∀ a ∈ more, Internal a) ∧ exec step t more = some u ∧ Established u := by
  have hsyn : exec step (start (fun _ => 1) 0) [.deliver .passive] = some _ := rfl
  obtain ⟨more, u, hmore⟩ := completes_exec hsyn
  exact ⟨_, more, u, hsyn, hmore⟩

end Opening

end NetworkStack.Stcp
