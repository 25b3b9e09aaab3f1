import NetworkStack.Stcp.Connection

/-!
# The moves that an iteration is made of

An iteration is a wait followed by up to three moves of one party: it handles a
datagram, it takes application data, it starts to close. Each move is described
here by what it reads, what it changes and what it sends; `iterate_split` takes
an iteration apart into its moves. Everything proved about runs goes through
these descriptions, and none of it unfolds the loop again.
-/

namespace NetworkStack.Stcp

namespace Party

/-- The party after the wait has reported and cleared a close request. -/
def waited (p : Party) : Party :=
  { p with
    closeRequested := p.closeRequested &&
      !(pendingEvents p.toMysockContext p.eventChosen).appCloseRequested }

/-- The events that wake an iteration of this party. -/
def events (p : Party) : Events := pendingEvents p.toMysockContext p.eventChosen

/-- The datagram that the next iteration of this party handles. -/
def next (p : Party) : Option Packet :=
  if p.events.networkData then p.networkRecvQueue.head? else none

/-- The network branch, recorded. -/
def networkData (p : Party) (uninit : BitVec 32) : Except Halt (Party × List Packet) :=
  (controlLoopNetworkData p.toEndpoint uninit).map fun r =>
    ({ p.noteHandled p.networkRecvQueue.head? with toEndpoint := r.1 },
      answers p.networkRecvQueue.head? r.2)

/-- The application branch, recorded. -/
def appData (p : Party) (uninit : BitVec 32) : Except Halt (Party × List Packet) :=
  (controlLoopAppData p.toEndpoint uninit).map fun r =>
    ({ (p.noteByteSend (some r.2.1)).noteSegments r.2.2 with toEndpoint := r.1 },
      unprompted r.2.2)

/-- The close branch, recorded. -/
def close (p : Party) (uninit : BitVec 32) : Party × List Packet :=
  let r := controlLoopClose p.toEndpoint uninit
  ({ p.noteFins r.2 with toEndpoint := r.1 }, unprompted r.2)

end Party

/-- Take a branch only if its event has been reported. -/
def onEvent (c : Bool) (p : Party) (branch : Except Halt (Party × List Packet)) :
    Except Halt (Party × List Packet) :=
  if c then branch else .ok (p, [])

/-- The acknowledgement that answers a data segment. -/
def dataAck (p : Party) (pk : Packet) : STCPHeader where
  thSeq := p.initialSequenceNum
  thAck := pk.header.thSeq + BitVec.ofNat 32 pk.data.length - 20
  thFlags := thACK

/-- The answer to a FIN, its acknowledgement number unset. -/
def finAck (p : Party) (uninit : BitVec 32) : STCPHeader where
  thSeq := p.left
  thAck := uninit
  thFlags := thACK

/-- What handling a datagram does to a party, and what it sends. -/
inductive NetworkMove (p : Party) (uninit : BitVec 32) : Party → List Packet → Prop
  | data {pk : Packet} {rest : List Packet} (hq : p.networkRecvQueue = pk :: rest)
      (hdata : pk.isData = true) (hmin : headerLen ≤ pk.data.length)
      (hmax : pk.data.length ≤ headerLen + stcpMss) :
      NetworkMove p uninit
        { p.noteHandled (some pk) with
          networkRecvQueue := rest
          appSendQueue := (stcpAppSend p.toMysockContext pk.payload).appSendQueue
          initialSequenceNum := p.initialSequenceNum + 1
          left := p.initialSequenceNum + 1 }
        [⟨(dataAck p pk).toBytes, .answersData pk.payload.length⟩]
  | ackLast {pk : Packet} {rest : List Packet} (hq : p.networkRecvQueue = pk :: rest)
      (hack : pk.isAck = true) (hstate : p.connectionState = .lastAck) :
      NetworkMove p uninit
        { p.noteHandled (some pk) with
          networkRecvQueue := rest
          done := true }
        []
  | ackFin {pk : Packet} {rest : List Packet} (hq : p.networkRecvQueue = pk :: rest)
      (hack : pk.isAck = true) (hstate : p.connectionState = .finWait) :
      NetworkMove p uninit
        { p.noteHandled (some pk) with
          networkRecvQueue := rest
          connectionState := .finSentAckRecieved
          right := p.right + 1
          initialSequenceNum := pk.header.thAck
          eventChosen := if p.eventChosen.networkData then .any else p.eventChosen }
        []
  | ackWindow {pk : Packet} {rest : List Packet} (hq : p.networkRecvQueue = pk :: rest)
      (hack : pk.isAck = true) (hstate₁ : p.connectionState ≠ .lastAck)
      (hstate₂ : p.connectionState ≠ .finWait) :
      NetworkMove p uninit
        { p.noteHandled (some pk) with
          networkRecvQueue := rest
          right := p.right + pk.header.thAck - p.initialSequenceNum
          sendWind := p.sendWind + pk.header.thAck - p.initialSequenceNum
          initialSequenceNum := pk.header.thAck
          eventChosen := if p.eventChosen.networkData then .any else p.eventChosen }
        []
  | finLast {pk : Packet} {rest : List Packet} (hq : p.networkRecvQueue = pk :: rest)
      (hfin : pk.isFin = true) (hstate : p.connectionState = .finSentAckRecieved) :
      NetworkMove p uninit
        { p.noteHandled (some pk) with
          networkRecvQueue := rest
          done := true }
        [⟨(finAck p uninit).toBytes, .answersFin⟩]
  | finFirst {pk : Packet} {rest : List Packet} (hq : p.networkRecvQueue = pk :: rest)
      (hfin : pk.isFin = true) (hstate : p.connectionState = .established) :
      NetworkMove p uninit
        { p.noteHandled (some pk) with
          networkRecvQueue := rest
          appSendQueue := (stcpFinReceived p.toMysockContext).appSendQueue
          initialSequenceNum := p.initialSequenceNum + 1
          left := p.left + 1
          right := p.right + 1
          connectionState := .closeWait }
        [⟨(finAck p uninit).toBytes, .answersFin⟩]
  | finIgnored {pk : Packet} {rest : List Packet} (hq : p.networkRecvQueue = pk :: rest)
      (hfin : pk.isFin = true) (hstate₁ : p.connectionState ≠ .finSentAckRecieved)
      (hstate₂ : p.connectionState ≠ .established) :
      NetworkMove p uninit { p.noteHandled (some pk) with networkRecvQueue := rest } []

theorem Party.eq_head {p : Party} {pk r : Packet} {rest : List Packet}
    (hpk : p.networkRecvQueue.head? = some pk) (hq : p.networkRecvQueue = r :: rest) : r = pk := by
  simpa [hq] using hpk

/-- The header of a data segment. -/
def dataHeader (p : Party) (uninit : BitVec 32) : STCPHeader where
  thSeq := p.left
  thAck := uninit
  thFlags := -1

/-- The header of a FIN. -/
def finHeader (p : Party) (uninit : BitVec 32) : STCPHeader where
  thSeq := p.left
  thAck := uninit
  thFlags := thFIN

/-- What taking application data does to a party, and what it sends. -/
inductive AppMove (p : Party) (uninit : BitVec 32) : Party → List Packet → Prop
  | drain {queue : List (List Byte)} (hne : p.appRecvQueue ≠ [])
      (hqueue : queue.flatten = p.appRecvQueue.flatten) :
      AppMove p uninit
        { p with
          appRecvQueue := queue
          byteSends := p.byteSends ++ [min p.sendWind.toInt stcpMss] } []
  | send {app : List Byte} {queue : List (List Byte)} {sendWind : BitVec 32}
      (hhead : p.appRecvQueue.head? ≠ some [])
      (hqueue : app ++ queue.flatten = p.appRecvQueue.flatten) (hpos : 0 < app.length)
      (hmss : app.length ≤ stcpMss) (hwind : (app.length : Int) ≤ p.sendWind.toInt)
      (hsend : sendWind = p.sendWind - BitVec.ofNat 32 app.length) :
      AppMove p uninit
        { p with
          appRecvQueue := queue
          left := p.left + BitVec.ofNat 32 app.length
          sendWind := sendWind
          eventChosen := if sendWind = 0 then .network else p.eventChosen
          unacked := p.unacked + app.length
          dataSent := p.dataSent ++ [(p.left, app.length)]
          dataSince := false
          byteSends := p.byteSends ++ [min p.sendWind.toInt stcpMss] }
        [⟨(dataHeader p uninit).toBytes ++ app, .application⟩]

theorem replyCause_of_isData {pk : Packet} (h : pk.isData = true) :
    replyCause pk = .answersData pk.payload.length := by
  simp [replyCause, Packet.isFin_of_isData h]

theorem replyCause_of_isFin {pk : Packet} (h : pk.isFin = true) :
    replyCause pk = .answersFin := by
  simp [replyCause, h]

theorem answers_singleton (pk : Packet) (d : List Byte) :
    answers (some pk) [d] = [⟨d, replyCause pk⟩] := rfl

/-- The network branch in terms of the whole datagram at the head of the queue. -/
theorem controlLoopNetworkData_cons (e : Endpoint) (uninit : BitVec 32) (pk : Packet)
    (rest : List Packet) (hq : e.networkRecvQueue = pk :: rest) :
    controlLoopNetworkData e uninit =
      if pk.header.thFlags ≠ thACK ∧ pk.header.thFlags ≠ thFIN then
        controlLoopData { e with networkRecvQueue := rest } pk.header pk.data.length
          (pk.data.take (headerLen + stcpMss))
      else if pk.header.thFlags = thACK then
        pure (controlLoopAck { e with networkRecvQueue := rest } pk.header, [])
      else pure (controlLoopFin { e with networkRecvQueue := rest } uninit) := by
  have hhead : STCPHeader.ofBytes (pk.data.take (headerLen + stcpMss)) = pk.header :=
    STCPHeader.ofBytes_take _ (Nat.le_add_right _ _)
  unfold controlLoopNetworkData
  rw [stcpNetworkRecv_cons _ pk rest _ hq]
  simp only [bind, Except.bind, hhead]

/-- Passing data up leaves the network queue to others. -/
theorem stcpAppSend_networkRecvQueue (ctx : MysockContext) (rest : List Packet)
    (src : List Byte) :
    stcpAppSend { ctx with networkRecvQueue := rest } src =
      { ctx with
        networkRecvQueue := rest
        appSendQueue := (stcpAppSend ctx src).appSendQueue } := by
  unfold stcpAppSend
  split <;> rfl

/-- The three things an acknowledgement does, by the state it arrives in. -/
theorem networkMove_ack (p : Party) (uninit : BitVec 32) {pk : Packet} {rest : List Packet}
    (hq : p.networkRecvQueue = pk :: rest) (hack : pk.isAck = true) :
    NetworkMove p uninit
      { p.noteHandled (some pk) with
        toEndpoint := controlLoopAck { p.toEndpoint with networkRecvQueue := rest } pk.header }
      [] := by
  by_cases hlast : p.connectionState = .lastAck
  · have hmove : NetworkMove p uninit _ _ := .ackLast hq hack hlast
    simpa [controlLoopAck, controlLoopAckFinWait, hlast, Party.noteHandled] using hmove
  · by_cases hfin : p.connectionState = .finWait
    · have hmove : NetworkMove p uninit _ _ := .ackFin hq hack hfin
      simpa [controlLoopAck, controlLoopAckFinWait, hfin, Party.noteHandled] using hmove
    · have hmove : NetworkMove p uninit _ _ := .ackWindow hq hack hlast hfin
      simpa [controlLoopAck, controlLoopAckFinWait, hlast, hfin, Party.noteHandled] using hmove

/-- A completed network branch is one of the network moves. -/
theorem networkMove_of_ok {p q : Party} {uninit : BitVec 32} {out : List Packet}
    (h : p.networkData uninit = .ok (q, out)) : NetworkMove p uninit q out := by
  cases hq : p.networkRecvQueue with
  | nil =>
      simp [Party.networkData, controlLoopNetworkData, stcpNetworkRecv, hq, bind, Except.bind,
        Except.map] at h
  | cons pk rest =>
      unfold Party.networkData at h
      rw [controlLoopNetworkData_cons _ uninit pk rest hq, hq] at h
      simp only [List.head?_cons] at h
      split at h
      · rename_i hflags
        have hdata : pk.isData = true := by
          simp [Packet.isData, Packet.isAck, Packet.isFin, hflags.1, hflags.2]
        unfold controlLoopData at h
        split at h
        · cases h
        · rename_i hlen
          have hmin : headerLen ≤ pk.data.length := by omega
          have hmax : pk.data.length ≤ headerLen + stcpMss := by omega
          have hbuf : pk.data.take (headerLen + stcpMss) = pk.data := List.take_of_length_le hmax
          have happ : (pk.data.drop headerLen).take (pk.data.length - headerLen) = pk.payload :=
            List.take_of_length_le (by simp)
          simp only [Except.map, Except.ok.injEq, Prod.mk.injEq, hbuf, happ] at h
          obtain ⟨rfl, rfl⟩ := h
          rw [stcpAppSend_networkRecvQueue, answers_singleton, replyCause_of_isData hdata]
          exact NetworkMove.data hq hdata hmin hmax
      · split at h
        · rename_i hack
          simp only [Except.map, pure, Except.pure, Except.ok.injEq, Prod.mk.injEq] at h
          obtain ⟨rfl, rfl⟩ := h
          exact networkMove_ack p uninit hq (by simp [Packet.isAck, hack])
        · rename_i hflags hack
          have hfin : pk.isFin = true := by
            simp only [not_and, not_not] at hflags
            simp [Packet.isFin, hflags hack]
          simp only [Except.map, pure, Except.pure, Except.ok.injEq, Prod.mk.injEq] at h
          obtain ⟨rfl, rfl⟩ := h
          unfold controlLoopFin
          split
          · rename_i hstate
            rw [answers_singleton, replyCause_of_isFin hfin]
            exact NetworkMove.finLast hq hfin hstate
          · rename_i hstate
            rw [answers_singleton, replyCause_of_isFin hfin]
            exact NetworkMove.finFirst hq hfin hstate
          · rename_i hstate₁ hstate₂
            exact NetworkMove.finIgnored hq hfin hstate₁ hstate₂

theorem sizeT_of_nonneg {i : Int} (h₀ : 0 ≤ i) (h₁ : i ≤ stcpMss) : sizeT i = i.toNat := by
  have hlt : i < 2 ^ 64 := lt_of_le_of_lt h₁ (by decide)
  rw [sizeT, Int.emod_eq_of_lt h₀ hlt]

/-- A window that is not negative bounds what one call takes. -/
theorem take_sizeT_le (node : List Byte) {wind : Int} (h : 0 ≤ wind) :
    ((node.take (sizeT (min wind stcpMss))).length : Int) ≤ min wind stcpMss := by
  have hmin : 0 ≤ min wind (stcpMss : Int) := le_min h (by decide)
  rw [sizeT_of_nonneg hmin (min_le_right _ _), List.length_take]
  omega

theorem dataHeader_payload (p : Party) (uninit : BitVec 32) (app : List Byte) :
    ((dataHeader p uninit).toBytes ++ app).drop headerLen = app :=
  List.drop_left' (STCPHeader.toBytes_length _)

/-- A completed application branch is one of the application moves. -/
theorem appMove_of_ok {p q : Party} {uninit : BitVec 32} {out : List Packet}
    (h : p.appData uninit = .ok (q, out)) : AppMove p uninit q out := by
  cases hq : p.appRecvQueue with
  | nil =>
      simp [Party.appData, controlLoopAppData, stcpAppRecv, mysockDequeueBuffer, hq, bind,
        Except.bind, Except.map] at h
  | cons node next =>
      obtain ⟨queue, hrecv, hflat⟩ := stcpAppRecv_cons p.toMysockContext node next
        (sizeT (min p.sendWind.toInt stcpMss)) hq
      rw [← hq] at hflat
      unfold Party.appData controlLoopAppData at h
      simp only [hrecv, bind, Except.bind] at h
      split at h
      · rename_i hzero
        rw [List.length_eq_zero_iff.mp hzero, List.nil_append] at hflat
        simp only [Except.map, pure, Except.pure, Except.ok.injEq, Prod.mk.injEq] at h
        obtain ⟨rfl, rfl⟩ := h
        have hmove : AppMove p uninit _ _ := .drain (by simp [hq]) hflat
        simpa [Party.noteByteSend, Party.noteSegments, unprompted] using hmove
      · split at h
        · cases h
        · rename_i hpos hdef
          -- The load is not negative, so neither is the window, and the load is all that was taken.
          have hwind : 0 ≤ p.sendWind.toInt := by omega
          have hle := take_sizeT_le node hwind
          have hhead : p.appRecvQueue.head? ≠ some [] := by
            rintro hnil
            simp only [hq, List.head?_cons, Option.some.injEq] at hnil
            simp [hnil] at hpos
          generalize node.take (sizeT (min p.sendWind.toInt stcpMss)) = app at *
          have hload : min (min p.sendWind.toInt (stcpMss : Int)) (app.length : Int) =
              app.length := min_eq_right hle
          simp only [Except.map, pure, Except.pure, Except.ok.injEq, Prod.mk.injEq, hload] at h
          obtain ⟨rfl, rfl⟩ := h
          have hmove : AppMove p uninit _ _ :=
            .send hhead hflat (by omega) (by omega) (by omega) rfl
          have hpay := dataHeader_payload p uninit app
          simpa [Party.noteByteSend, Party.noteSegments, unprompted, dataHeader] using hmove

theorem AppMove.queue_ne {p q : Party} {uninit : BitVec 32} {out : List Packet}
    (h : AppMove p uninit q out) : p.appRecvQueue ≠ [] := by
  cases h with
  | drain hne hqueue => exact hne
  | @send app queue _ hhead hqueue hpos =>
      intro hnil
      simp only [hnil, List.flatten_nil, List.append_eq_nil_iff] at hqueue
      simp [hqueue.1] at hpos

/-- With data queued and a window that is not negative, the branch completes. -/
theorem appData_defined {p : Party} (uninit : BitVec 32) (hq : p.appRecvQueue ≠ [])
    (hwind : 0 ≤ p.sendWind.toInt) : ∃ r, p.appData uninit = .ok r := by
  obtain ⟨node, next, hq⟩ := List.exists_cons_of_ne_nil hq
  obtain ⟨queue, hrecv, -⟩ := stcpAppRecv_cons p.toMysockContext node next
    (sizeT (min p.sendWind.toInt stcpMss)) hq
  have hle := take_sizeT_le node hwind
  unfold Party.appData controlLoopAppData
  simp only [hrecv, bind, Except.bind]
  split
  · exact ⟨_, rfl⟩
  · rw [if_neg (by omega)]
    exact ⟨_, rfl⟩

/-- A datagram is handled unless it is a data segment of an impossible length. -/
theorem networkData_defined {p : Party} {pk : Packet} {rest : List Packet}
    (uninit : BitVec 32) (hq : p.networkRecvQueue = pk :: rest)
    (hlen : pk.isData = true →
      headerLen ≤ pk.data.length ∧ pk.data.length ≤ headerLen + stcpMss) :
    ∃ r, p.networkData uninit = .ok r := by
  unfold Party.networkData
  rw [controlLoopNetworkData_cons _ uninit pk rest hq]
  split
  · rename_i hflags
    have hd := hlen (by simp [Packet.isData, Packet.isAck, Packet.isFin, hflags.1, hflags.2])
    rw [controlLoopData, if_neg (by omega)]
    exact ⟨_, rfl⟩
  · split <;> exact ⟨_, rfl⟩

end NetworkStack.Stcp
