import NetworkStack.Lib.Computation
import NetworkStack.Stcp.Moves

/-!
# Taking an iteration apart

`iterate_split` says of every iteration which moves it is made of and from which
party each of them starts. `NetworkMove.handled` collects what all network moves
have in common, so that a fact that does not depend on the kind of the datagram
is proved once.
-/

namespace NetworkStack.Stcp

open NetworkStack.Computation

/-- The close branch sends a FIN, whatever the state. -/
theorem close_eq (p : Party) (uninit : BitVec 32) :
    p.close uninit =
      ({ p with
          left := p.left + 1
          connectionState := if p.connectionState = .closeWait then .lastAck else .finWait
          finSent := true },
        [⟨(finHeader p uninit).toBytes, .application⟩]) := by
  unfold Party.close controlLoopClose
  split
  · rename_i h
    simp [Party.noteFins, unprompted, finHeader, show p.connectionState = .closeWait from h]
  · rename_i h
    simp [Party.noteFins, unprompted, finHeader, show p.connectionState ≠ .closeWait from h]

/-- The party at the end of an iteration, from the party after the application branch. -/
def Party.finish (p : Party) (uninit : BitVec 32) (c : Bool) (out : List Packet) :
    Party × List Packet :=
  if c then ((p.close uninit).1, out ++ (p.close uninit).2) else (p, out)

/-- The body as a chain of its branches. -/
theorem controlLoopBody_eq (p : Party) (uninit : BitVec 32) (hz : p.events.nonzero = true) :
    controlLoopBody p.toEndpoint uninit =
      (if p.events.networkData then controlLoopNetworkData p.waited.toEndpoint uninit
        else .ok (p.waited.toEndpoint, [])).bind fun r₁ =>
      (if p.events.appData then
        (controlLoopAppData r₁.1 uninit).map fun r => (r.1, some r.2.1, r.2.2)
        else .ok (r₁.1, none, [])).bind fun r₂ =>
      let r₃ := if p.events.appCloseRequested then controlLoopClose r₂.1 uninit else (r₂.1, [])
      .ok
        { endpoint := r₃.1
          event := p.events
          handled := if p.events.networkData then p.networkRecvQueue.head? else none
          replies := r₁.2
          byteSend := r₂.2.1
          segments := r₂.2.2
          fins := r₃.2 } := by
  have hwait : stcpWaitForEvent p.toMysockContext p.eventChosen =
      .ok (p.events, p.waited.toMysockContext) := by
    simp only [stcpWaitForEvent]
    rw [if_pos (show (pendingEvents p.toMysockContext p.eventChosen).nonzero = true from hz)]
    rfl
  unfold controlLoopBody
  rw [hwait]
  simp only [bind, Except.bind]
  cases p.events.networkData <;> cases p.events.appData <;> rfl

theorem noteFins_nil (p : Party) : p.noteFins [] = p := by
  simp [Party.noteFins]

/-- Recording a datagram reads only the record, not the endpoint. -/
theorem noteHandled_toEndpoint (p : Party) (e : Endpoint) (handled : Option Packet) :
    { ({ p with toEndpoint := e } : Party).noteHandled handled with toEndpoint := p.toEndpoint } =
      p.noteHandled handled := by
  cases handled <;> rfl

/-- The network branch as a move, from its result on the endpoint. -/
theorem onEvent_networkData {p : Party} {uninit : BitVec 32} {e₁ : Endpoint}
    {replies : List (List Byte)} {c : Bool}
    (h : (if c then controlLoopNetworkData p.waited.toEndpoint uninit
      else .ok (p.waited.toEndpoint, [])) = .ok (e₁, replies)) :
    onEvent c p.waited (p.waited.networkData uninit) =
      .ok ({ p.noteHandled (if c then p.networkRecvQueue.head? else none) with toEndpoint := e₁ },
        answers (if c then p.networkRecvQueue.head? else none) replies) := by
  cases c with
  | false =>
      obtain ⟨rfl, rfl⟩ := Prod.mk.inj (Except.ok.inj h)
      rfl
  | true =>
      rw [if_pos rfl] at h
      rw [onEvent, if_pos rfl, Party.networkData, h, if_pos rfl,
        ← noteHandled_toEndpoint p p.waited.toEndpoint]
      rfl

/-- The application branch as a move, from its result on the endpoint. -/
theorem onEvent_appData {p : Party} {uninit : BitVec 32} {e₂ : Endpoint}
    {byteSend : Option Int} {segments : List (List Byte)} {c : Bool}
    (h : (if c then (controlLoopAppData p.toEndpoint uninit).map fun r => (r.1, some r.2.1, r.2.2)
      else .ok (p.toEndpoint, none, [])) = .ok (e₂, byteSend, segments)) :
    onEvent c p (p.appData uninit) =
      .ok ({ (p.noteByteSend byteSend).noteSegments segments with toEndpoint := e₂ },
        unprompted segments) := by
  cases c with
  | false =>
      simp only [Bool.false_eq_true, if_false, Except.ok.injEq, Prod.mk.injEq] at h
      obtain ⟨rfl, rfl, rfl⟩ := h
      simp [onEvent, Party.noteByteSend, Party.noteSegments, unprompted]
  | true =>
      rw [if_pos rfl] at h
      cases happ : controlLoopAppData p.toEndpoint uninit with
      | error e => simp [happ, Except.map] at h
      | ok r =>
          simp only [happ, Except.map, Except.ok.injEq, Prod.mk.injEq] at h
          obtain ⟨rfl, rfl, rfl⟩ := h
          simp [onEvent, Party.appData, happ, Except.map]

/-- A completed body reports the events it was woken for. -/
theorem body_event {p : Party} {uninit : BitVec 32} {it : Iteration}
    (h : controlLoopBody p.toEndpoint uninit = .ok it) : it.event = p.events := by
  by_cases hz : p.events.nonzero = true
  · rw [controlLoopBody_eq p uninit hz] at h
    obtain ⟨r₁, -, h⟩ := ok_of_bind h
    obtain ⟨r₂, -, h⟩ := ok_of_bind h
    rw [← Except.ok.inj h]
  · have hblocked : stcpWaitForEvent p.toMysockContext p.eventChosen = .error .blocked := if_neg hz
    rw [controlLoopBody, hblocked] at h
    cases h

/-- A completed body is made of completed branches, run one after the other. -/
theorem body_split {p : Party} {uninit : BitVec 32} {it : Iteration}
    (h : controlLoopBody p.toEndpoint uninit = .ok it) :
    ∃ p₁ out₁ p₂ out₂,
      onEvent p.events.networkData p.waited (p.waited.networkData uninit) = .ok (p₁, out₁) ∧
      onEvent p.events.appData p₁ (p₁.appData uninit) = .ok (p₂, out₂) ∧
      (p.account it, it.packets) =
        p₂.finish uninit p.events.appCloseRequested (out₁ ++ out₂) := by
  by_cases hz : p.events.nonzero = true
  case neg =>
    have hblocked : stcpWaitForEvent p.toMysockContext p.eventChosen = .error .blocked := if_neg hz
    rw [controlLoopBody, hblocked] at h
    cases h
  rw [controlLoopBody_eq p uninit hz] at h
  obtain ⟨⟨e₁, replies⟩, hnet, h⟩ := ok_of_bind h
  obtain ⟨⟨e₂, byteSend, segments⟩, happ, h⟩ := ok_of_bind h
  obtain rfl := Except.ok.inj h
  refine ⟨_, _, _, _, onEvent_networkData hnet, onEvent_appData happ, ?_⟩
  cases p.events.appCloseRequested with
  | false =>
      refine Prod.ext ?_ (List.append_nil _)
      simp only [Bool.false_eq_true, if_false, Party.account, noteFins_nil]
      rfl
  | true => rfl

/-- A move that is made if its event was reported, and not made otherwise. -/
def Taken (c : Bool) (move : Party → List Packet → Prop) (p q : Party) (out : List Packet) :
    Prop :=
  (c = true ∧ move q out) ∨ (c = false ∧ q = p ∧ out = [])

/-- What handling a datagram does to the record and the queues, whatever the
datagram is. -/
structure Handled (p : Party) (pk : Packet) (q : Party) (out : List Packet) : Prop where
  queue : p.networkRecvQueue = pk :: q.networkRecvQueue
  passedUp : q.passedUp = p.passedUp ++ pk.load
  appRecvQueue : q.appRecvQueue = p.appRecvQueue := by rfl
  closeRequested : q.closeRequested = p.closeRequested := by rfl
  closeCalled : q.closeCalled = p.closeCalled := by rfl
  written : q.written = p.written := by rfl
  unacked : q.unacked = p.unacked - pk.ackedBytes := by rfl
  dataSent : q.dataSent = p.dataSent := by rfl
  dataSince : q.dataSince = (p.dataSince || pk.isData) := by rfl
  byteSends : q.byteSends = p.byteSends := by rfl
  finSent : q.finSent = p.finSent := by rfl
  finAcked : q.finAcked = (p.finAcked || pk.isFinAck) := by rfl
  finReceived : q.finReceived = (p.finReceived || pk.isFin) := by rfl
  /-- Only acknowledgements are sent, for exactly the bytes passed up. -/
  replies : ∀ r ∈ out, r.isAck = true ∧ r.cause = replyCause pk ∧ pk.isAck = false
  acked : (out.map Packet.ackedBytes).sum = pk.load.length

@[simp] theorem isAck_dataAck (p : Party) (pk : Packet) (c : Cause) :
    Packet.isAck ⟨(dataAck p pk).toBytes, c⟩ = true := by
  simp [Packet.isAck, dataAck]

@[simp] theorem isAck_finAck (p : Party) (uninit : BitVec 32) (c : Cause) :
    Packet.isAck ⟨(finAck p uninit).toBytes, c⟩ = true := by
  simp [Packet.isAck, finAck]

@[simp] theorem isData_dataHeader (p : Party) (uninit : BitVec 32) (app : List Byte) (c : Cause) :
    Packet.isData ⟨(dataHeader p uninit).toBytes ++ app, c⟩ = true := by
  simp [Packet.isData, Packet.isAck, Packet.isFin, dataHeader, thACK, thFIN]

@[simp] theorem isFin_finHeader (p : Party) (uninit : BitVec 32) (c : Cause) :
    Packet.isFin ⟨(finHeader p uninit).toBytes, c⟩ = true := by
  simp [Packet.isFin, finHeader]

theorem ackedBytes_dataAck (p : Party) (pk : Packet) (len : Nat) :
    Packet.ackedBytes ⟨(dataAck p pk).toBytes, .answersData len⟩ = len := by
  simp [Packet.ackedBytes]

theorem ackedBytes_finAck (p : Party) (uninit : BitVec 32) :
    Packet.ackedBytes ⟨(finAck p uninit).toBytes, .answersFin⟩ = 0 := by
  simp [Packet.ackedBytes]

/-- Every network move handles the datagram at the head of the queue. -/
theorem NetworkMove.handled {p q : Party} {uninit : BitVec 32} {out : List Packet}
    (h : NetworkMove p uninit q out) : ∃ pk, Handled p pk q out := by
  cases h with
  | @data pk rest hq hdata hmin hmax =>
      refine ⟨pk, { queue := hq, passedUp := ?_, replies := ?_, acked := ?_ }⟩
      · rw [Packet.load_of_isData hdata]
        exact passedUp_stcpAppSend _ _
      · simp [Packet.isAck_of_isData hdata, replyCause_of_isData hdata]
      · simp [ackedBytes_dataAck, Packet.load_of_isData hdata]
  | @ackLast pk rest hq hack hstate =>
      have hload := Packet.load_of_not_isData (Packet.isData_of_isAck hack)
      refine ⟨pk, { queue := hq, passedUp := ?_, replies := ?_, acked := ?_ }⟩
      · simp [hload, MysockContext.passedUp, Party.noteHandled]
      · simp
      · simp [hload]
  | @ackFin pk rest hq hack hstate =>
      have hload := Packet.load_of_not_isData (Packet.isData_of_isAck hack)
      refine ⟨pk, { queue := hq, passedUp := ?_, replies := ?_, acked := ?_ }⟩
      · simp [hload, MysockContext.passedUp, Party.noteHandled]
      · simp
      · simp [hload]
  | @ackWindow pk rest hq hack hstate₁ hstate₂ =>
      have hload := Packet.load_of_not_isData (Packet.isData_of_isAck hack)
      refine ⟨pk, { queue := hq, passedUp := ?_, replies := ?_, acked := ?_ }⟩
      · simp [hload, MysockContext.passedUp, Party.noteHandled]
      · simp
      · simp [hload]
  | @finLast pk rest hq hfin hstate =>
      have hload := Packet.load_of_not_isData (Packet.isData_of_isFin hfin)
      refine ⟨pk, { queue := hq, passedUp := ?_, replies := ?_, acked := ?_ }⟩
      · simp [hload, MysockContext.passedUp, Party.noteHandled]
      · simp [Packet.isAck_of_isFin hfin, replyCause_of_isFin hfin]
      · simp [hload, ackedBytes_finAck]
  | @finFirst pk rest hq hfin hstate =>
      have hload := Packet.load_of_not_isData (Packet.isData_of_isFin hfin)
      refine ⟨pk, { queue := hq, passedUp := ?_, replies := ?_, acked := ?_ }⟩
      · rw [hload, List.append_nil]
        exact passedUp_stcpFinReceived _
      · simp [Packet.isAck_of_isFin hfin, replyCause_of_isFin hfin]
      · simp [hload, ackedBytes_finAck]
  | @finIgnored pk rest hq hfin hstate₁ hstate₂ =>
      have hload := Packet.load_of_not_isData (Packet.isData_of_isFin hfin)
      refine ⟨pk, { queue := hq, passedUp := ?_, replies := ?_, acked := ?_ }⟩
      · simp [hload, MysockContext.passedUp, Party.noteHandled]
      · simp
      · simp [hload]

theorem Taken.of_networkData {c : Bool} {p q : Party} {uninit : BitVec 32} {out : List Packet}
    (h : onEvent c p (p.networkData uninit) = .ok (q, out)) :
    Taken c (NetworkMove p uninit) p q out := by
  cases c with
  | false =>
      obtain ⟨rfl, rfl⟩ := Prod.mk.inj (Except.ok.inj h)
      exact .inr ⟨rfl, rfl, rfl⟩
  | true => exact .inl ⟨rfl, networkMove_of_ok h⟩

theorem Taken.of_appData {c : Bool} {p q : Party} {uninit : BitVec 32} {out : List Packet}
    (h : onEvent c p (p.appData uninit) = .ok (q, out)) :
    Taken c (AppMove p uninit) p q out := by
  cases c with
  | false =>
      obtain ⟨rfl, rfl⟩ := Prod.mk.inj (Except.ok.inj h)
      exact .inr ⟨rfl, rfl, rfl⟩
  | true => exact .inl ⟨rfl, appMove_of_ok h⟩

/-- A datagram leaves the application's side of the context and the FIN alone. -/
theorem Taken.frame {c : Bool} {p q : Party} {uninit : BitVec 32} {out : List Packet}
    (h : Taken c (NetworkMove p uninit) p q out) :
    q.appRecvQueue = p.appRecvQueue ∧ q.closeRequested = p.closeRequested ∧
      q.closeCalled = p.closeCalled ∧ q.finSent = p.finSent := by
  obtain ⟨-, h⟩ | ⟨-, rfl, -⟩ := h
  · obtain ⟨pk, h⟩ := h.handled
    exact ⟨h.appRecvQueue, h.closeRequested, h.closeCalled, h.finSent⟩
  · exact ⟨rfl, rfl, rfl, rfl⟩

/-- The close branch follows the wait and the network branch: nothing is left to
send, and the request has just been cleared. -/
structure Closes (p p₁ : Party) : Prop where
  requested : p.closeRequested = true
  empty : p₁.appRecvQueue = []
  cleared : p₁.closeRequested = false
  closeCalled : p₁.closeCalled = p.closeCalled
  finSent : p₁.finSent = p.finSent

/-- An iteration is a wait, a network move if there is a datagram, and then either
the close branch or an application move if there is data. -/
theorem iterate_split {s t : Connection} {i : Side} {uninit : BitVec 32}
    (h : s.step (.iterate i uninit) = some t) :
    (s.party i).done = false ∧ ∃ p₁ out₁,
      Taken (s.party i).events.networkData (NetworkMove (s.party i).waited uninit)
        (s.party i).waited p₁ out₁ ∧
      (((s.party i).events.appCloseRequested = true ∧ Closes (s.party i) p₁ ∧
          t = (s.put i p₁ out₁).put i (p₁.close uninit).1 (p₁.close uninit).2) ∨
        ((s.party i).events.appCloseRequested = false ∧ (s.party i).waited = s.party i ∧
          ∃ p₂ out₂, Taken (s.party i).events.appData (AppMove p₁ uninit) p₁ p₂ out₂ ∧
            t = (s.put i p₁ out₁).put i p₂ out₂)) := by
  simp only [Connection.step] at h
  split at h
  · cases h
  rename_i hdone
  refine ⟨by simpa using hdone, ?_⟩
  generalize s.party i = p at *
  split at h
  · cases h
  rename_i it hbody
  obtain ⟨p₁, out₁, p₂, out₂, hnet, happ, hfin⟩ := body_split hbody
  obtain rfl := Option.some.inj h
  have hnet := Taken.of_networkData hnet
  have happ := Taken.of_appData happ
  refine ⟨p₁, out₁, hnet, ?_⟩
  cases hclose : p.events.appCloseRequested with
  | true =>
      -- The close event needs an empty queue, so there is no application data as well.
      obtain ⟨hreq, hempty⟩ : p.closeRequested = true ∧ p.appRecvQueue = [] := by
        simpa [Party.events, pendingEvents] using hclose
      have hnone : p.events.appData = false := by
        simp [Party.events, pendingEvents, hempty]
      obtain ⟨happ, -⟩ | ⟨-, rfl, rfl⟩ := happ
      · rw [hnone] at happ
        cases happ
      obtain ⟨h₁, h₂, h₃, h₄⟩ := hnet.frame
      refine .inl ⟨rfl, ⟨hreq, h₁.trans hempty, ?_, h₃, h₄⟩, ?_⟩
      · rw [h₂]
        simp [Party.waited, pendingEvents, hreq, hempty]
      · rw [hclose, List.append_nil] at hfin
        obtain ⟨hparty, hout⟩ := Prod.mk.inj (hfin.trans (if_pos rfl))
        rw [Connection.put_put, hparty, hout]
  | false =>
      have hwait : p.waited = p := by
        have hc : (pendingEvents p.toMysockContext p.eventChosen).appCloseRequested = false := hclose
        simp [Party.waited, hc]
      refine .inr ⟨rfl, hwait, p₂, out₂, happ, ?_⟩
      rw [hclose] at hfin
      obtain ⟨hparty, hout⟩ := Prod.mk.inj (hfin.trans (if_neg Bool.false_ne_true))
      rw [Connection.put_put, hparty, hout]

/-- Handling a datagram takes it from the channel. -/
theorem Handled.chan {s : Connection} {i : Side} {pk : Packet} {q : Party} {out : List Packet}
    (h : Handled (s.party i) pk q out) : s.chan i = pk :: (q.networkRecvQueue ++ s.link i) := by
  rw [Connection.chan, h.queue, List.cons_append]

theorem AppMove.networkRecvQueue {p q : Party} {uninit : BitVec 32} {out : List Packet}
    (h : AppMove p uninit q out) : q.networkRecvQueue = p.networkRecvQueue := by
  cases h <;> rfl

theorem close_networkRecvQueue (p : Party) (uninit : BitVec 32) :
    (p.close uninit).1.networkRecvQueue = p.networkRecvQueue := by
  rw [close_eq]

/-- A woken iteration completes if its branches do. -/
theorem body_enabled {p : Party} (uninit : BitVec 32) (hz : p.events.nonzero = true)
    (hnet : p.events.networkData = true → ∃ r, p.waited.networkData uninit = .ok r)
    (happ : ∀ p₁ out₁, Taken p.events.networkData (NetworkMove p.waited uninit) p.waited p₁ out₁ →
      p.events.appData = true → ∃ r, p₁.appData uninit = .ok r) :
    ∃ it, controlLoopBody p.toEndpoint uninit = .ok it := by
  obtain ⟨r₁, hr₁⟩ : ∃ r, (if p.events.networkData then
      controlLoopNetworkData p.waited.toEndpoint uninit
      else .ok (p.waited.toEndpoint, [])) = .ok r := by
    split
    · rename_i hev
      obtain ⟨r, hr⟩ := hnet hev
      cases hbranch : controlLoopNetworkData p.waited.toEndpoint uninit with
      | error e => simp [Party.networkData, hbranch, Except.map] at hr
      | ok r => exact ⟨r, rfl⟩
    · exact ⟨_, rfl⟩
  have htaken := Taken.of_networkData (onEvent_networkData hr₁)
  obtain ⟨r₂, hr₂⟩ : ∃ r, (if p.events.appData then
      (controlLoopAppData r₁.1 uninit).map fun r => (r.1, some r.2.1, r.2.2)
      else .ok (r₁.1, none, [])) = .ok r := by
    split
    · rename_i hev
      obtain ⟨r, hr⟩ := happ _ _ htaken hev
      cases hbranch : controlLoopAppData r₁.1 uninit with
      | error e => simp [Party.appData, hbranch, Except.map] at hr
      | ok r => exact ⟨_, rfl⟩
    · exact ⟨_, rfl⟩
  rw [controlLoopBody_eq p uninit hz, hr₁]
  simp only [Except.bind, hr₂]
  exact ⟨_, rfl⟩

/-- A side that is woken completes its iteration if the branches do. -/
theorem iterate_enabled {s : Connection} {i : Side} (uninit : BitVec 32)
    (hdone : (s.party i).done = false) (hz : (s.party i).events.nonzero = true)
    (hnet : (s.party i).events.networkData = true →
      ∃ r, (s.party i).waited.networkData uninit = .ok r)
    (happ : ∀ p₁ out₁, Taken (s.party i).events.networkData
        (NetworkMove (s.party i).waited uninit) (s.party i).waited p₁ out₁ →
      (s.party i).events.appData = true → ∃ r, p₁.appData uninit = .ok r) :
    ∃ t, s.step (.iterate i uninit) = some t := by
  obtain ⟨it, hit⟩ := body_enabled uninit hz hnet happ
  simp only [Connection.step, hdone, hit]
  exact ⟨_, rfl⟩

end NetworkStack.Stcp
