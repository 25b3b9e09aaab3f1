import NetworkStack.Stcp.Coherent

/-!
# The stream, the acknowledgements and the FIN in every run

`Dir` relates a sender, its receiver and the two channels between them: the stream
of bytes, the bytes that are still to be acknowledged, and the place of the FIN. It
holds in both directions of every run, whatever the applications do.

`iterate_rule` is the rule by which further properties are carried through an
iteration: what the wait and each of its moves keep, the iteration keeps.
-/

namespace NetworkStack.Stcp

open Transition

/-- A segment that a loop has sent: a data segment carries between one byte and
the maximum, and an acknowledgement answers data or a FIN. -/
structure Packet.WellFormed (pk : Packet) : Prop where
  data : pk.isData = true → headerLen < pk.data.length ∧ pk.data.length ≤ headerLen + stcpMss
  ack : pk.isAck = true → pk.isFinAck = true ∨ 0 < pk.ackedBytes

/-- The bytes that a channel carries. -/
def payloads (pks : List Packet) : List Byte := pks.flatMap Packet.load

/-- What relates a sender, its receiver, the segments on their way to the receiver
and those on their way back. -/
structure Dir (snd rcv : Party) (fwd back : List Packet) : Prop where
  wellFormed : ∀ pk ∈ fwd, pk.WellFormed
  stream : snd.written = rcv.passedUp ++ payloads fwd ++ snd.pending
  account : snd.unacked = (back.map Packet.ackedBytes).sum + (payloads fwd).length
  fins : fwd.countP Packet.isFin + rcv.finReceived.toNat = snd.finSent.toNat
  afterFin : fwd.Pairwise fun a b => a.isFin = true → b.isAck = true
  drained : rcv.finReceived = true → ∀ pk ∈ fwd, pk.isAck = true
  answered : snd.finSent = false → ∀ pk ∈ back, pk.isFinAck = false
  closed : snd.finSent = true → snd.appRecvQueue = []

theorem payloads_cons (pk : Packet) (pks : List Packet) :
    payloads (pk :: pks) = pk.load ++ payloads pks := rfl

theorem payloads_append (pks pks' : List Packet) :
    payloads (pks ++ pks') = payloads pks ++ payloads pks' := List.flatMap_append

theorem payloads_of_acks {pks : List Packet} (h : ∀ pk ∈ pks, pk.isAck = true) :
    payloads pks = [] := by
  rw [payloads, List.flatMap_eq_nil_iff]
  exact fun pk hpk => Packet.load_of_not_isData (Packet.isData_of_isAck (h pk hpk))

theorem countP_isFin_of_acks {pks : List Packet} (h : ∀ pk ∈ pks, pk.isAck = true) :
    pks.countP Packet.isFin = 0 := by
  rw [List.countP_eq_zero]
  exact fun pk hpk => by simp [Packet.isFin_of_isAck (h pk hpk)]

/-- Answers to a well-formed segment are well formed. -/
theorem Handled.wellFormed {p q : Party} {pk r : Packet} {out : List Packet}
    (h : Handled p pk q out) (hpk : pk.WellFormed) (hr : r ∈ out) : r.WellFormed := by
  obtain ⟨hack, hcause, hnot⟩ := h.replies r hr
  refine ⟨fun hdata => ?_, fun _ => ?_⟩
  · simp [Packet.isData_of_isAck hack] at hdata
  · cases hfin : pk.isFin with
    | true => exact .inl (by simp [Packet.isFinAck, hack, hcause, replyCause_of_isFin hfin])
    | false =>
        have hdata : pk.isData = true := by simp [Packet.isData, hnot, hfin]
        have hlen := (hpk.data hdata).1
        refine .inr ?_
        simp only [Packet.ackedBytes, hack, if_true, hcause, replyCause_of_isData hdata,
          Packet.payload, List.length_drop]
        omega

namespace Dir

variable {snd rcv p q : Party} {fwd back out : List Packet} {pk : Packet} {uninit : BitVec 32}

/-- The sender handles a datagram. -/
theorem snd_network (hD : Dir p rcv fwd (pk :: back)) (hpk : pk.WellFormed)
    (h : Handled p pk q out) : Dir q rcv (fwd ++ out) back where
  wellFormed := by
    intro r hr
    rcases List.mem_append.mp hr with hr | hr
    · exact hD.wellFormed r hr
    · exact h.wellFormed hpk hr
  stream := by
    have hout : payloads out = [] := payloads_of_acks fun r hr => (h.replies r hr).1
    have hpend : q.pending = p.pending := by simp [MysockContext.pending, h.appRecvQueue]
    rw [h.written, hD.stream, payloads_append, hout, List.append_nil, hpend]
  account := by
    have hout : payloads out = [] := payloads_of_acks fun r hr => (h.replies r hr).1
    have hacc := hD.account
    simp only [List.map_cons, List.sum_cons] at hacc
    rw [h.unacked, payloads_append, hout, List.append_nil]
    omega
  fins := by
    have hout := countP_isFin_of_acks fun r hr => (h.replies r hr).1
    rw [List.countP_append, hout, h.finSent]
    exact hD.fins
  afterFin := by
    refine List.pairwise_append.mpr ⟨hD.afterFin, ?_, fun _ _ r hr _ => (h.replies r hr).1⟩
    exact List.pairwise_of_forall_mem_list fun _ _ r hr _ => (h.replies r hr).1
  drained := by
    intro hrec r hr
    rcases List.mem_append.mp hr with hr | hr
    · exact hD.drained hrec r hr
    · exact (h.replies r hr).1
  answered := by
    rw [h.finSent]
    exact fun hfin r hr => hD.answered hfin r (List.mem_cons_of_mem _ hr)
  closed := by
    rw [h.finSent, h.appRecvQueue]
    exact hD.closed

/-- The receiver handles a datagram. -/
theorem rcv_network (hD : Dir snd p (pk :: fwd) back) (h : Handled p pk q out) :
    Dir snd q fwd (back ++ out) where
  wellFormed := fun r hr => hD.wellFormed r (List.mem_cons_of_mem _ hr)
  stream := by
    rw [hD.stream, h.passedUp, payloads_cons]
    simp only [List.append_assoc]
  account := by
    have hacc := hD.account
    simp only [payloads_cons, List.length_append] at hacc
    rw [List.map_append, List.sum_append, h.acked]
    omega
  fins := by
    have hfins := hD.fins
    rw [h.finReceived]
    cases hfin : pk.isFin with
    | false => simpa [hfin] using hfins
    | true =>
        have hrec : p.finReceived = false := by
          by_contra hrec
          have hack := hD.drained (by simpa using hrec) pk (List.mem_cons_self)
          simp [Packet.isFin_of_isAck hack] at hfin
        simpa [hfin, hrec] using hfins
  afterFin := hD.afterFin.of_cons
  drained := by
    intro hrec r hr
    rw [h.finReceived, Bool.or_eq_true] at hrec
    rcases hrec with hrec | hfin
    · exact hD.drained hrec r (List.mem_cons_of_mem _ hr)
    · exact List.rel_of_pairwise_cons hD.afterFin hr hfin
  answered := by
    intro hfin r hr
    rcases List.mem_append.mp hr with hr | hr
    · exact hD.answered hfin r hr
    · -- An answer to a FIN means that a FIN was on its way, so the sender had sent it.
      obtain ⟨-, hcause, -⟩ := h.replies r hr
      have hnofin : pk.isFin = false := by
        have hfins := hD.fins
        rw [hfin] at hfins
        by_contra hpk
        simp [(by simpa using hpk : pk.isFin = true)] at hfins
      simp [Packet.isFinAck, hcause, replyCause, hnofin]
  closed := hD.closed

/-- A party with data to send has not sent its FIN. -/
theorem open_of_queue (hD : Dir p rcv fwd back) (hne : p.appRecvQueue ≠ []) :
    p.finSent = false := by
  by_contra hfin
  exact hne (hD.closed (by simpa using hfin))

/-- The sender takes application data. -/
theorem snd_app (hD : Dir p rcv fwd back) (h : AppMove p uninit q out) :
    Dir q rcv (fwd ++ out) back := by
  have hopen := hD.open_of_queue h.queue_ne
  have hnofin : fwd.countP Packet.isFin = 0 ∧ rcv.finReceived = false := by
    have hfins := hD.fins
    rw [hopen] at hfins
    cases hrec : rcv.finReceived <;> simp_all
  cases h with
  | @drain queue hne hqueue =>
      rw [List.append_nil]
      refine { hD with stream := ?_, closed := fun hfin => ?_ }
      · rw [hD.stream]
        simp only [MysockContext.pending, hqueue]
      · exact absurd (hopen.symm.trans hfin) (by decide)
  | @send app queue sendWind hhead hqueue hpos hmss hwind hsend =>
      have hdata := isData_dataHeader p uninit app .application
      have hload := Packet.load_of_isData hdata
      rw [Packet.payload_mk_append] at hload
      have hpay : payloads [⟨(dataHeader p uninit).toBytes ++ app, .application⟩] = app := by
        simpa [payloads] using hload
      refine ⟨?_, ?_, ?_, ?_, ?_, ?_, hD.answered, ?_⟩
      · intro r hr
        rcases List.mem_append.mp hr with hr | hr
        · exact hD.wellFormed r hr
        · obtain rfl := List.mem_singleton.mp hr
          refine ⟨fun _ => ?_, fun hack => ?_⟩
          · simp only [List.length_append, STCPHeader.toBytes_length]
            omega
          · simp [Packet.isAck_of_isData hdata] at hack
      · rw [hD.stream, payloads_append, hpay]
        simp only [MysockContext.pending, ← hqueue, List.append_assoc]
      · rw [payloads_append, hpay, List.length_append, ← Nat.add_assoc, ← hD.account]
      · simpa [Packet.isFin_of_isData hdata] using hD.fins
      · refine List.pairwise_append.mpr ⟨hD.afterFin, List.pairwise_singleton _ _, ?_⟩
        exact fun r hr _ _ hfin => absurd hfin (List.countP_eq_zero.mp hnofin.1 r hr)
      · exact fun hrec => absurd (hnofin.2.symm.trans hrec) (by decide)
      · exact fun hfin => absurd (hopen.symm.trans hfin) (by decide)

/-- The receiver takes application data of its own. -/
theorem rcv_app (hD : Dir snd p fwd back) (h : AppMove p uninit q out) :
    Dir snd q fwd (back ++ out) := by
  cases h with
  | drain =>
      rw [List.append_nil]
      exact { hD with }
  | @send app queue sendWind hhead hqueue hpos hmss hwind hsend =>
      have hnoack := Packet.isAck_of_isData (isData_dataHeader p uninit app .application)
      refine { hD with account := ?_, answered := ?_ }
      · simpa [Packet.ackedBytes_of_not_isAck hnoack] using hD.account
      · intro hfin r hr
        rcases List.mem_append.mp hr with hr | hr
        · exact hD.answered hfin r hr
        · obtain rfl := List.mem_singleton.mp hr
          simp [Packet.isFinAck, hnoack]

/-- The sender sends its FIN. -/
theorem snd_close (hD : Dir p rcv fwd back) (hfin : p.finSent = false)
    (hempty : p.appRecvQueue = []) :
    Dir (p.close uninit).1 rcv (fwd ++ (p.close uninit).2) back := by
  have hnofin : fwd.countP Packet.isFin = 0 ∧ rcv.finReceived = false := by
    have hfins := hD.fins
    rw [hfin] at hfins
    cases hrec : rcv.finReceived <;> simp_all
  rw [close_eq]
  have hisfin := isFin_finHeader p uninit .application
  have hload := Packet.load_of_not_isData (Packet.isData_of_isFin hisfin)
  have hpay : payloads [⟨(finHeader p uninit).toBytes, .application⟩] = [] := by
    simpa [payloads] using hload
  refine ⟨?_, ?_, ?_, ?_, ?_, ?_, nofun, fun _ => hempty⟩
  · intro r hr
    rcases List.mem_append.mp hr with hr | hr
    · exact hD.wellFormed r hr
    · obtain rfl := List.mem_singleton.mp hr
      refine ⟨fun hdata => ?_, fun hack => ?_⟩
      · simp [Packet.isData_of_isFin hisfin] at hdata
      · simp [Packet.isAck_of_isFin hisfin] at hack
  · rw [payloads_append, hpay, List.append_nil]
    exact hD.stream
  · rw [payloads_append, hpay, List.append_nil]
    exact hD.account
  · simp [hnofin]
  · refine List.pairwise_append.mpr ⟨hD.afterFin, List.pairwise_singleton _ _, ?_⟩
    exact fun r hr _ _ hfin => absurd hfin (List.countP_eq_zero.mp hnofin.1 r hr)
  · exact fun hrec => absurd (hnofin.2.symm.trans hrec) (by decide)

/-- The receiver sends a FIN of its own. -/
theorem rcv_close (hD : Dir snd p fwd back) :
    Dir snd (p.close uninit).1 fwd (back ++ (p.close uninit).2) := by
  rw [close_eq]
  have hnoack := Packet.isAck_of_isFin (isFin_finHeader p uninit .application)
  refine { hD with account := ?_, answered := ?_ }
  · simpa [Packet.ackedBytes_of_not_isAck hnoack] using hD.account
  · intro hfin r hr
    rcases List.mem_append.mp hr with hr | hr
    · exact hD.answered hfin r hr
    · obtain rfl := List.mem_singleton.mp hr
      simp [Packet.isFinAck, hnoack]

/-! ## Both directions in a run -/

variable {s t : Connection} {i : Side}

theorem both_wait (hs : s.Both Dir) (i : Side) : (s.put i (s.party i).waited []).Both Dir := by
  refine Connection.both_put_same rfl ?_ ?_
  · rw [List.append_nil]
    exact { hs i with }
  · rw [List.append_nil]
    exact { hs.peer i with }

theorem both_network (hs : s.Both Dir) (h : NetworkMove (s.party i) uninit q out) :
    (s.put i q out).Both Dir := by
  obtain ⟨pk, h⟩ := h.handled
  have hsnd := hs i
  have hrcv := hs.peer i
  rw [h.chan] at hsnd hrcv
  exact Connection.both_put (hsnd.snd_network (hrcv.wellFormed pk List.mem_cons_self) h)
    (hrcv.rcv_network h)

theorem both_app (hs : s.Both Dir) (h : AppMove (s.party i) uninit q out) :
    (s.put i q out).Both Dir :=
  Connection.both_put_same h.networkRecvQueue ((hs i).snd_app h) ((hs.peer i).rcv_app h)

theorem both_close (hs : s.Both Dir) (hfin : (s.party i).finSent = false)
    (hempty : (s.party i).appRecvQueue = []) :
    (s.put i ((s.party i).close uninit).1 ((s.party i).close uninit).2).Both Dir :=
  Connection.both_put_same (close_networkRecvQueue _ _) ((hs i).snd_close hfin hempty)
    (hs.peer i).rcv_close

theorem both_mywrite (hs : s.Both Dir) (hcoh : Coherent (s.party i)) {buf : List Byte}
    (h : s.step (.mywrite i buf) = some t) : t.Both Dir := by
  obtain ⟨hcalled, rfl⟩ := Connection.step_mywrite h
  refine Connection.both_put_same rfl ?_ ?_
  · rw [List.append_nil]
    refine { hs i with stream := ?_, closed := fun hfin => ?_ }
    · simp [(hs i).stream, MysockContext.pending]
    · simp [hcoh.called hfin] at hcalled
  · rw [List.append_nil]
    exact { hs.peer i with }

theorem both_myclose (hs : s.Both Dir) (h : s.step (.myclose i) = some t) : t.Both Dir := by
  obtain ⟨-, rfl⟩ := Connection.step_myclose h
  refine Connection.both_put_same rfl ?_ ?_
  · rw [List.append_nil]
    exact { hs i with }
  · rw [List.append_nil]
    exact { hs.peer i with }

theorem both_deliver (hs : s.Both Dir) (h : s.step (.deliver i) = some t) : t.Both Dir := by
  obtain ⟨queue, hchan, hpeer, hself⟩ := Connection.deliver_chan h
  intro k
  rw [hchan, hchan]
  rcases Side.eq_or_eq_peer i k with rfl | rfl
  · rw [hself, hpeer]
    exact { hs k with }
  · rw [Side.peer_peer, hself, hpeer]
    exact { hs.peer i with }

end Dir

/-- The invariant of every run. -/
structure Sound (s : Connection) : Prop where
  coherent : ∀ i, Coherent (s.party i)
  dir : s.Both Dir

/-- The connection inside an iteration of one side: after the wait, and after the
network branch if there was a datagram. -/
structure Inside (s : Connection) (i : Side) (uninit : BitVec 32) (s₁ : Connection) : Prop where
  dir : s₁.Both Dir
  settled : Settled (s₁.party i)
  network : ∃ out, Taken (s.party i).events.networkData
    (NetworkMove (s.party i).waited uninit) (s.party i).waited (s₁.party i) out

section Iterate

variable {s t : Connection} {i : Side} {uninit : BitVec 32} {P : Connection → Prop}

/-- What the wait and a network move keep holds when the network branch is over. -/
theorem inside_rule {p₁ : Party} {out₁ : List Packet} (hs : Sound s)
    (htaken : Taken (s.party i).events.networkData (NetworkMove (s.party i).waited uninit)
      (s.party i).waited p₁ out₁)
    (hwait : P (s.put i (s.party i).waited []))
    (hnet : ∀ s₁ q out, s₁.Both Dir → Settled (s₁.party i) → s₁.party i = (s.party i).waited →
      (s.party i).events.networkData = true → P s₁ → NetworkMove (s₁.party i) uninit q out →
      P (s₁.put i q out)) :
    Inside s i uninit (s.put i p₁ out₁) ∧ P (s.put i p₁ out₁) := by
  have hself : (s.put i (s.party i).waited []).party i = (s.party i).waited := by simp
  have hdir := Dir.both_wait hs.dir i
  have hset := (hs.coherent i).toSettled.waited
  have hput : (s.put i (s.party i).waited []).put i p₁ out₁ = s.put i p₁ out₁ := by
    rw [Connection.put_put, List.nil_append]
  have htaken' := htaken
  obtain ⟨hev, hmove⟩ | ⟨hev, rfl, rfl⟩ := htaken
  · rw [← hself] at hmove hset
    rw [← hput]
    refine ⟨⟨Dir.both_network hdir hmove, ?_, out₁, ?_⟩, hnet _ _ _ hdir hset hself hev hwait hmove⟩
    · simpa using hset.network hmove
    · simpa using htaken'
  · exact ⟨⟨hdir, by simpa using hset, [], by simpa using htaken'⟩, hwait⟩

/-- What the wait and each of the moves keep, an iteration keeps. -/
theorem iterate_rule (hs : Sound s) (h : s.step (.iterate i uninit) = some t)
    (hwait : P (s.put i (s.party i).waited []))
    (hnet : ∀ s₁ q out, s₁.Both Dir → Settled (s₁.party i) → s₁.party i = (s.party i).waited →
      (s.party i).events.networkData = true → P s₁ → NetworkMove (s₁.party i) uninit q out →
      P (s₁.put i q out))
    (happ : ∀ s₁ q out, Inside s i uninit s₁ → (s.party i).events.appData = true → P s₁ →
      AppMove (s₁.party i) uninit q out → P (s₁.put i q out))
    (hclose : ∀ s₁, Inside s i uninit s₁ → (s.party i).events.appCloseRequested = true → P s₁ →
      (s₁.party i).finSent = false → (s₁.party i).appRecvQueue = [] →
      P (s₁.put i ((s₁.party i).close uninit).1 ((s₁.party i).close uninit).2)) : P t := by
  obtain ⟨-, p₁, out₁, htaken, hrest⟩ := iterate_split h
  obtain ⟨hinside, hP⟩ := inside_rule hs htaken hwait hnet
  have hp₁ : (s.put i p₁ out₁).party i = p₁ := by simp
  obtain ⟨hev, hcl, rfl⟩ | ⟨-, -, p₂, out₂, ⟨hev, hmove⟩ | ⟨-, rfl, rfl⟩, rfl⟩ := hrest
  · have hfin : p₁.finSent = false :=
      hcl.finSent.trans ((hs.coherent i).closing.mp hcl.requested).2
    have hend := hclose _ hinside hev hP
    rw [hp₁] at hend
    exact hend hfin hcl.empty
  · rw [← hp₁] at hmove
    exact happ _ _ _ hinside hev hP hmove
  · rw [Connection.put_put, List.append_nil]
    exact hP

theorem Sound.step {a : Action} (hs : Sound s) (h : s.step a = some t) : Sound t := by
  refine ⟨Coherent.step hs.coherent h, ?_⟩
  cases a with
  | mywrite i buf => exact Dir.both_mywrite hs.dir (hs.coherent i) h
  | myclose i => exact Dir.both_myclose hs.dir h
  | deliver i => exact Dir.both_deliver hs.dir h
  | iterate i uninit =>
      exact iterate_rule hs h (Dir.both_wait hs.dir i)
        (fun _ _ _ hd _ _ _ _ hmove => Dir.both_network hd hmove)
        (fun _ _ _ hin _ _ hmove => Dir.both_app hin.dir hmove)
        (fun _ hin _ _ hfin hempty => Dir.both_close hin.dir hfin hempty)

end Iterate

/-- The invariant holds when both ends enter the loop. -/
theorem sound_start (isn : Side → BitVec 32) : Sound (Connection.start isn) where
  coherent := fun i => by
    refine ⟨⟨?_, ?_, ?_⟩, ?_⟩ <;>
      simp [Connection.start, Connection.startParty, controlLoopEntry, Phase]
  dir := fun i => by
    constructor <;>
      simp [Connection.start, Connection.startParty, controlLoopEntry, Connection.chan, payloads,
        MysockContext.passedUp, MysockContext.pending]

/-- Every run keeps the invariant. -/
theorem sound_exec {isn : Side → BitVec 32} {acts : List Action} {t : Connection}
    (h : exec Connection.step (Connection.start isn) acts = some t) : Sound t :=
  exec_keeps (fun _ _ _ hs hstep => hs.step hstep) (sound_start isn) h

end NetworkStack.Stcp
