import NetworkStack.Lib.Transition
import NetworkStack.Stcp.TransportInit

/-!
# The handshake

The connecting side takes one datagram and the accepting side two, and then they enter
`control_loop`. Neither looks at how long the datagrams are or at their flags, so the handshake
is right only if the datagrams are.
-/

namespace NetworkStack.Stcp

open Transition

/-- The datagrams that the network thread hands over in a run. -/
def delivered (acts : List ThreadAction) : List (List Byte) :=
  acts.filterMap fun
    | .deliver data => some data
    | _ => none

/-- The datagram is a segment with all of these flags set. -/
structure HasFlags (flags : BitVec 8) (data : List Byte) : Prop where
  length : headerLen ≤ data.length
  flags : (STCPHeader.ofBytes data).thFlags &&& flags = flags

/-- The datagram is a segment with these flags that acknowledges the sequence number `isn`. -/
structure Acknowledges (flags : BitVec 8) (isn : BitVec 32) (data : List Byte) : Prop extends
    HasFlags flags data where
  ack : (STCPHeader.ofBytes data).thAck = isn + 1

/-- The datagrams complete the handshake of a side that has sent `isn` with its SYN: a SYN-ACK for
the connecting side, a SYN and then an ACK for the accepting one. -/
def Completes (isActive : Bool) (isn : BitVec 32) (received : List (List Byte)) : Prop :=
  if isActive then ∃ synAck ∈ received, Acknowledges (thSYN ||| thACK) isn synAck
  else ∃ syn ack, [syn, ack].Sublist received ∧ HasFlags thSYN syn ∧ Acknowledges thACK isn ack

namespace TransportThread

variable {s t : TransportThread} {a : ThreadAction} {isActive : Bool} {isn : BitVec 32}
  {ds : List (List Byte)}

/-- When the network thread hands over these datagrams, the thread enters `control_loop` only if
those that it has taken by then complete the handshake. -/
def EntersProperly (isActive : Bool) (isn : BitVec 32) (ds : List (List Byte)) : Prop :=
  ∀ uninit acts s call ctx isn' uninit' t e,
    exec step (transportInit isActive isn uninit) acts = some s → delivered acts = ds →
    s.thread = .handshake call ctx isn' → s.step (.run uninit') = some t →
    t.thread = .controlLoop e →
    Completes isActive isn (ds.take (ds.length - e.networkRecvQueue.length))

/-- The number of datagrams that were taken before this call. -/
def taken : HandshakeCall → Nat
  | .passiveWait2 | .passiveRecv2 => 1
  | _ => 0

/-- The calls of the connecting side. -/
def active : HandshakeCall → Bool
  | .activeWait | .activeRecv => true
  | _ => false

/-- While it is in the handshake, the thread has taken what it takes before the call. -/
def Shakes (isActive : Bool) (s : TransportThread) (ds : List (List Byte)) : Prop :=
  ∀ call ctx isn, s.thread = .handshake call ctx isn →
    active call = isActive ∧ taken call ≤ ds.length ∧
      ctx.networkRecvQueue.map Packet.data = ds.drop (taken call)

theorem shakes_transportInit (isActive : Bool) (isn uninit : BitVec 32) :
    Shakes isActive (transportInit isActive isn uninit) [] := by
  intro call ctx isn' h
  cases isActive with
  | true =>
      obtain ⟨rfl, rfl, -⟩ := Thread.handshake.inj h
      exact ⟨rfl, Nat.le_refl 0, rfl⟩
  | false =>
      obtain ⟨rfl, rfl, -⟩ := Thread.handshake.inj h
      exact ⟨rfl, Nat.le_refl 0, rfl⟩

/-- A wait leads to the receive behind it, and takes nothing. -/
theorem wait_taken {call next : HandshakeCall} {flags : Events}
    (h : call.wait = some (flags, next)) : active next = active call ∧ taken next = taken call := by
  cases call with
  | activeWait | passiveWait | passiveWait2 =>
      obtain ⟨-, rfl⟩ := Prod.mk.inj (Option.some.inj h)
      exact ⟨rfl, rfl⟩
  | activeRecv | passiveRecv | passiveRecv2 => cases h

/-- A receive takes the datagram at the head of the queue. -/
theorem runHandshake_cases {log : List Call} {call : HandshakeCall} {ctx : MysockContext}
    {isn uninit : BitVec 32} (h : runHandshake log call ctx isn uninit = some t) :
    (∃ flags next ctx', call.wait = some (flags, next) ∧
      ctx'.networkRecvQueue = ctx.networkRecvQueue ∧ t.thread = .handshake next ctx' isn) ∨
    (∃ packet rest, ctx.networkRecvQueue = packet :: rest ∧
      (call = .passiveRecv ∧ t.thread =
          .handshake .passiveWait2 { ctx with networkRecvQueue := rest } (isn + 1) ∨
        (call = .activeRecv ∨ call = .passiveRecv2) ∧ ∃ isn',
          t.thread = .controlLoop (controlLoopEntry { ctx with networkRecvQueue := rest } isn'))) := by
  unfold runHandshake at h
  split at h
  · rename_i flags next hwait
    left
    unfold stcpWaitForEvent at h
    simp only at h
    split at h
    · cases h
    · rename_i event ctx' hok
      split at hok
      · obtain ⟨-, rfl⟩ := Prod.mk.inj (Except.ok.inj hok)
        obtain rfl := Option.some.inj h
        exact ⟨flags, next,
          { ctx with closeRequested := ctx.closeRequested &&
              !(pendingEvents ctx flags).appCloseRequested }, hwait, rfl, rfl⟩
      · cases hok
  · right
    split at h
    · cases h
    · rename_i packet rest hqueue
      refine ⟨packet, rest, hqueue, ?_⟩
      obtain ⟨r, hr, rfl⟩ := Option.map_eq_some_iff.mp h
      cases call with
      | activeRecv =>
          obtain rfl := Option.some.inj hr
          exact .inr ⟨.inl rfl, _, rfl⟩
      | passiveRecv =>
          obtain rfl := Option.some.inj hr
          exact .inl ⟨rfl, rfl⟩
      | passiveRecv2 =>
          obtain rfl := Option.some.inj hr
          exact .inr ⟨.inr rfl, _, rfl⟩
      | activeWait | passiveWait | passiveWait2 => cases hr

/-- The thread does not get back to the handshake from its loop. -/
theorem runControlLoop_thread {log : List Call} {e : Endpoint} {uninit : BitVec 32}
    (h : runControlLoop log e uninit = some t) (call : HandshakeCall) (ctx : MysockContext)
    (isn : BitVec 32) : t.thread ≠ .handshake call ctx isn := by
  unfold runControlLoop at h
  split at h
  · cases h
  · split at h
    · cases h
    · split at h
      · obtain rfl := Option.some.inj h
        nofun
      · obtain rfl := Option.some.inj h
        nofun

/-- What a step can do to the queue of datagrams and to a thread in the handshake. -/
theorem step_cases (h : s.step a = some t) :
    (∃ ctx ctx', s.thread.context = some ctx ∧ t.thread = s.thread.withContext ctx' ∧
      ctx'.networkRecvQueue.map Packet.data =
        ctx.networkRecvQueue.map Packet.data ++ delivered [a]) ∨
    (delivered [a] = [] ∧
      ((∃ call ctx isn uninit, s.thread = .handshake call ctx isn ∧
          runHandshake s.log call ctx isn uninit = some t) ∨
        ∀ call ctx isn, t.thread ≠ .handshake call ctx isn)) := by
  cases a with
  | mywrite buf =>
      obtain ⟨ctx, hctx, h⟩ := Option.bind_eq_some_iff.mp h
      split at h
      · cases h
      · obtain rfl := Option.some.inj h
        exact .inl ⟨ctx, _, hctx, rfl, (List.append_nil _).symm⟩
  | myclose =>
      obtain ⟨ctx, hctx, rfl⟩ := Option.map_eq_some_iff.mp h
      exact .inl ⟨ctx, _, hctx, rfl, (List.append_nil _).symm⟩
  | deliver data =>
      obtain ⟨ctx, hctx, rfl⟩ := Option.map_eq_some_iff.mp h
      exact .inl ⟨ctx, _, hctx, rfl, List.map_append⟩
  | run uninit =>
      refine .inr ⟨rfl, ?_⟩
      simp only [step] at h
      split at h
      · rename_i call ctx isn hs
        exact .inl ⟨call, ctx, isn, uninit, hs, h⟩
      · exact .inr (runControlLoop_thread h)
      · cases h

theorem Shakes.step (h : Shakes isActive s ds) (hstep : s.step a = some t) :
    Shakes isActive t (ds ++ delivered [a]) := by
  intro call ctx isn hthread
  obtain ⟨old, new, hold, hnew, hqueue⟩ | ⟨hnone, ⟨old, octx, oisn, uninit, hs, hrun⟩ | hno⟩ :=
    step_cases hstep
  · cases hs : s.thread with
    | undefined =>
        rw [hs] at hold
        cases hold
    | controlLoop e =>
        rw [hnew, hs] at hthread
        cases hthread
    | handshake call' ctx' isn' =>
        rw [hnew, hs] at hthread
        rw [hs] at hold
        obtain ⟨rfl, rfl, rfl⟩ := Thread.handshake.inj hthread
        obtain rfl := Option.some.inj hold
        obtain ⟨hside, htaken, hds⟩ := h _ _ _ hs
        refine ⟨hside, Nat.le_trans htaken (by simp), ?_⟩
        rw [hqueue, hds, List.drop_append_of_le_length htaken]
  · rw [hnone, List.append_nil]
    obtain ⟨hside, htaken, hds⟩ := h _ _ _ hs
    obtain ⟨flags, next, ctx', hwait, hsame, ht⟩ | ⟨packet, rest, hcons, hrecv⟩ :=
      runHandshake_cases hrun
    · rw [ht] at hthread
      obtain ⟨rfl, rfl, -⟩ := Thread.handshake.inj hthread
      obtain ⟨hactive, hsame'⟩ := wait_taken hwait
      rw [hactive, hsame', hsame]
      exact ⟨hside, htaken, hds⟩
    · obtain ⟨rfl, ht⟩ | ⟨-, isn', ht⟩ := hrecv
      · rw [ht] at hthread
        obtain ⟨rfl, rfl, -⟩ := Thread.handshake.inj hthread
        rw [hcons] at hds
        have hcons' : ds = packet.data :: rest.map Packet.data := hds.symm
        rw [hcons']
        exact ⟨hside, by simp [taken], rfl⟩
      · rw [ht] at hthread
        cases hthread
  · exact absurd hthread (hno call ctx isn)

theorem Shakes.exec {acts : List ThreadAction} (h : Shakes isActive s ds)
    (he : Transition.exec TransportThread.step s acts = some t) : Shakes isActive t (ds ++ delivered acts) := by
  induction acts generalizing s ds with
  | nil =>
      obtain rfl := Option.some.inj he
      rw [show delivered [] = [] from rfl, List.append_nil]
      exact h
  | cons a rest ih =>
      obtain ⟨u, hu, hrest⟩ := exec_cons.mp he
      have hcons : delivered (a :: rest) = delivered [a] ++ delivered rest := by
        exact @List.filterMap_append _ _ [a] rest _
      rw [hcons, ← List.append_assoc]
      exact ih (h.step hu) hrest

/-- The number of datagrams that the handshake takes. -/
def needed (isActive : Bool) : Nat := if isActive then 1 else 2

/-- When the thread enters its loop, the handshake has taken the first datagrams. -/
theorem Shakes.enters {call : HandshakeCall} {ctx : MysockContext} {isn uninit : BitVec 32}
    {e : Endpoint} (h : Shakes isActive s ds) (hs : s.thread = .handshake call ctx isn)
    (hstep : s.step (.run uninit) = some t) (ht : t.thread = .controlLoop e) :
    needed isActive ≤ ds.length ∧ ds.length - e.networkRecvQueue.length = needed isActive := by
  obtain ⟨rfl, htaken, hds⟩ := h _ _ _ hs
  simp only [TransportThread.step, hs] at hstep
  obtain ⟨_, _, _, _, _, ht'⟩ | ⟨packet, rest, hcons, ⟨rfl, ht'⟩ | ⟨hcall, isn', ht'⟩⟩ :=
    runHandshake_cases hstep
  · rw [ht] at ht'
    cases ht'
  · rw [ht] at ht'
    cases ht'
  · rw [ht] at ht'
    obtain rfl := Thread.controlLoop.inj ht'
    have hlen := congrArg List.length hds
    rw [hcons, List.length_map, List.length_cons, List.length_drop] at hlen
    change _ ∧ ds.length - rest.length = _
    obtain rfl | rfl := hcall
    · simp only [taken, needed, active] at *
      exact ⟨by simp; omega, by simp; omega⟩
    · simp only [taken, needed, active] at *
      exact ⟨by simp; omega, by simp; omega⟩

/-- The context with these datagrams behind those of the queue. -/
def received (ctx : MysockContext) (ds : List (List Byte)) : MysockContext :=
  { ctx with networkRecvQueue := ctx.networkRecvQueue ++ ds.map (⟨·, .application⟩) }

/-- The datagrams wait in the queue. -/
theorem exec_deliver (call : HandshakeCall) (ctx : MysockContext) (isn : BitVec 32)
    (log : List Call) (ds : List (List Byte)) :
    exec step ⟨.handshake call ctx isn, log⟩ (ds.map .deliver) =
      some ⟨.handshake call (received ctx ds) isn, log⟩ := by
  induction ds generalizing ctx with
  | nil =>
      rw [received, List.map_nil, List.map_nil, List.append_nil]
      rfl
  | cons d rest ih =>
      rw [List.map_cons, exec]
      change exec step ⟨.handshake call (networkRecvThread ctx ⟨d, .application⟩) isn, log⟩ _ = _
      rw [ih]
      simp only [received, networkRecvThread, mysockEnqueueBuffer, List.append_assoc,
        List.singleton_append, List.map_cons]

/-- A last receive of the handshake leads to the loop. -/
theorem step_recv {call : HandshakeCall} {ctx : MysockContext} {isn : BitVec 32} {log : List Call}
    {packet : Packet} {rest : List Packet} (hcall : call = .activeRecv ∨ call = .passiveRecv2)
    (hqueue : ctx.networkRecvQueue = packet :: rest) :
    ∃ t e, step ⟨.handshake call ctx isn, log⟩ (.run 0) = some t ∧ t.thread = .controlLoop e := by
  obtain rfl | rfl := hcall
  · simp only [step, runHandshake, HandshakeCall.wait, hqueue, handshakeRecv, Option.map_some]
    exact ⟨_, _, rfl, rfl⟩
  · simp only [step, runHandshake, HandshakeCall.wait, hqueue, handshakeRecv, Option.map_some]
    exact ⟨_, _, rfl, rfl⟩

/-- With enough datagrams in the queue the thread gets through the handshake. -/
theorem exists_enters (isn : BitVec 32) (hlen : needed isActive ≤ ds.length) :
    ∃ acts s call ctx isn' t e, exec step (transportInit isActive isn 0) acts = some s ∧
      delivered acts = ds ∧ s.thread = .handshake call ctx isn' ∧ s.step (.run 0) = some t ∧
      t.thread = .controlLoop e := by
  have hdelivered (n : Nat) : delivered (ds.map .deliver ++ List.replicate n (.run 0)) = ds := by
    simp [delivered, List.filterMap_map]
  cases isActive with
  | true =>
      obtain ⟨d, rest, rfl⟩ := List.exists_cons_of_length_pos (show 0 < ds.length from hlen)
      have hexec : ∃ ctx log, ctx.networkRecvQueue = (d :: rest).map (⟨·, .application⟩) ∧
          exec step (transportInit true isn 0)
            ((d :: rest).map .deliver ++ List.replicate 1 (.run 0)) =
              some ⟨.handshake .activeRecv ctx (isn + 1), log⟩ := by
        rw [exec_append, transportInit, if_pos rfl, exec_deliver]
        exact ⟨_, _, rfl, rfl⟩
      obtain ⟨ctx, log, hqueue, hexec⟩ := hexec
      obtain ⟨t, e, ht, he⟩ := step_recv (.inl rfl) hqueue
      exact ⟨_, _, _, _, _, t, e, hexec, hdelivered 1, rfl, ht, he⟩
  | false =>
      match ds, hlen with
      | a :: b :: rest, _ =>
          have hexec : ∃ ctx log, ctx.networkRecvQueue = (b :: rest).map (⟨·, .application⟩) ∧
              exec step (transportInit false isn 0)
                ((a :: b :: rest).map .deliver ++ List.replicate 3 (.run 0)) =
                  some ⟨.handshake .passiveRecv2 ctx (isn + 1), log⟩ := by
            rw [exec_append, transportInit, if_neg (by decide), exec_deliver]
            exact ⟨_, _, rfl, rfl⟩
          obtain ⟨ctx, log, hqueue, hexec⟩ := hexec
          obtain ⟨t, e, ht, he⟩ := step_recv (.inr rfl) hqueue
          exact ⟨_, _, _, _, _, t, e, hexec, hdelivered 3, rfl, ht, he⟩

/-- The first datagrams, if there are enough of them, are those of a handshake. -/
def StartsProperly (isActive : Bool) (isn : BitVec 32) (ds : List (List Byte)) : Prop :=
  if isActive then ∀ synAck ∈ ds.head?, Acknowledges (thSYN ||| thACK) isn synAck
  else ∀ syn ack rest, ds = syn :: ack :: rest → HasFlags thSYN syn ∧ Acknowledges thACK isn ack

/-- The datagrams that the handshake takes complete it exactly if they are in their places. -/
theorem completes_take (hlen : needed isActive ≤ ds.length) :
    Completes isActive isn (ds.take (needed isActive)) ↔ StartsProperly isActive isn ds := by
  cases isActive with
  | true =>
      obtain ⟨d, rest, rfl⟩ := List.exists_cons_of_length_pos (show 0 < ds.length from hlen)
      simp [Completes, StartsProperly, needed]
  | false =>
      match ds, hlen with
      | a :: b :: rest, _ =>
          constructor
          · rintro ⟨syn, ack, hsub, hsyn, hack⟩ syn' ack' rest' heq
            have htwo : [syn, ack] = [a, b] := hsub.eq_of_length rfl
            obtain ⟨rfl, hcons⟩ := List.cons.inj heq
            obtain ⟨rfl, -⟩ := List.cons.inj hcons
            obtain ⟨rfl, hcons⟩ := List.cons.inj htwo
            obtain ⟨rfl, -⟩ := List.cons.inj hcons
            exact ⟨hsyn, hack⟩
          · intro h
            obtain ⟨hsyn, hack⟩ := h a b rest rfl
            exact ⟨a, b, .refl _, hsyn, hack⟩

/-- The thread enters its loop after a proper handshake only, exactly if the first datagrams that
come are those of one. -/
theorem entersProperly_iff (isActive : Bool) (isn : BitVec 32) (ds : List (List Byte)) :
    EntersProperly isActive isn ds ↔ StartsProperly isActive isn ds := by
  constructor
  · intro h
    by_cases hlen : needed isActive ≤ ds.length
    · obtain ⟨acts, s, call, ctx, isn', t, e, hexec, hds, hs, ht, he⟩ := exists_enters isn hlen
      have hshakes := (shakes_transportInit isActive isn 0).exec hexec
      rw [List.nil_append, hds] at hshakes
      have hcompletes := h _ _ _ _ _ _ _ _ _ hexec hds hs ht he
      rw [(hshakes.enters hs ht he).2, completes_take hlen] at hcompletes
      exact hcompletes
    · cases isActive with
      | true =>
          have hnil : ds = [] := List.length_eq_zero_iff.mp (Nat.lt_one_iff.mp (not_le.mp hlen))
          rw [hnil]
          nofun
      | false =>
          rintro syn ack rest rfl
          exact absurd (show 2 ≤ (syn :: ack :: rest).length by simp) hlen
  · rintro h uninit acts s call ctx isn' uninit' t e hexec rfl hs ht he
    have hshakes := (shakes_transportInit isActive isn uninit).exec hexec
    rw [List.nil_append] at hshakes
    obtain ⟨hlen, htaken⟩ := hshakes.enters hs ht he
    rw [htaken, completes_take hlen]
    exact h

/-- The network thread reports that connecting has failed, and the connection is established. -/
theorem not_entersProperly_marker : ¬EntersProperly true 1 [[]] := by
  intro h
  obtain ⟨acts, s, call, ctx, isn', t, e, hexec, hds, hs, ht, he⟩ :=
    @exists_enters true [[]] 1 (by decide)
  obtain ⟨synAck, hmem, hack⟩ := h _ _ _ _ _ _ _ _ _ hexec hds hs ht he
  have hnil : synAck = [] := by simpa using List.mem_of_mem_take hmem
  have hlen := hack.length
  rw [hnil] at hlen
  exact absurd hlen (by decide)

end TransportThread

end NetworkStack.Stcp
