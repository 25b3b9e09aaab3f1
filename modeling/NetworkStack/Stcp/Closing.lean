import NetworkStack.Stcp.Delivery

/-!
# No close gets stuck

A side that has sent its FIN waits for the answer, and one whose FIN was answered
first waits for the peer's FIN. What they wait for is on its way, as long as no FIN
reaches a side in `FIN_WAIT`: that state ignores it.
-/

namespace NetworkStack.Stcp

open Transition

/-- No side handles the peer's FIN in `FIN_WAIT`. -/
def FinAnswered (s : Connection) : Action → Prop
  | .iterate i _ =>
      ∀ pk ∈ (s.party i).next, pk.isFin = true → (s.party i).connectionState ≠ .finWait
  | _ => True

instance decidableFinAnswered (s : Connection) : ∀ a, Decidable (FinAnswered s a)
  | .iterate i _ => inferInstanceAs (Decidable
      (∀ pk ∈ (s.party i).next, pk.isFin = true → (s.party i).connectionState ≠ .finWait))
  | .mywrite .. | .myclose _ | .deliver _ => .isTrue trivial

/-- Both applications have closed and both requests have been consumed. -/
def Connection.Consumed (s : Connection) : Prop :=
  ∀ i, (s.party i).closeCalled = true ∧ (s.party i).closeRequested = false

instance (s : Connection) : Decidable s.Consumed := by
  unfold Connection.Consumed
  infer_instance

/-- A side that waits for the answer to its FIN will get one, and a side that waits
for the peer's FIN has not had it. -/
structure Awaits (snd _rcv : Party) (fwd back : List Packet) : Prop where
  answer : snd.connectionState = .finWait ∨ snd.connectionState = .lastAck →
    snd.done = false → (∃ pk ∈ fwd, pk.isFin = true) ∨ ∃ pk ∈ back, pk.isAck = true
  unseen : snd.connectionState = .finWait ∨ snd.connectionState = .finSentAckRecieved →
    snd.done = false → snd.finReceived = false

namespace Awaits

variable {snd rcv rcv' p q : Party} {fwd back fwd' back' out : List Packet} {pk : Packet} {uninit : BitVec 32}

/-- More in the channels takes nothing away. -/
theorem grow (hA : Awaits snd rcv fwd back) (hfwd : fwd ⊆ fwd') (hback : back ⊆ back') :
    Awaits snd rcv' fwd' back' where
  answer := fun hs hdone =>
    (hA.answer hs hdone).imp (fun ⟨r, hr, hfin⟩ => ⟨r, hfwd hr, hfin⟩)
      fun ⟨r, hr, hack⟩ => ⟨r, hback hr, hack⟩
  unseen := hA.unseen

/-- A datagram that is not an acknowledgement leaves the answer on its way. -/
theorem keep (h : (∃ r ∈ fwd, r.isFin = true) ∨ ∃ r ∈ pk :: back, r.isAck = true)
    (hpk : pk.isAck = false) :
    (∃ r ∈ fwd ++ out, r.isFin = true) ∨ ∃ r ∈ back, r.isAck = true := by
  obtain ⟨r, hr, hfin⟩ | ⟨r, hr, hack⟩ := h
  · exact .inl ⟨r, List.mem_append_left _ hr, hfin⟩
  · obtain rfl | hr := List.mem_cons.mp hr
    · exact absurd (hpk.symm.trans hack) (by decide)
    · exact .inr ⟨r, hr, hack⟩

/-- The sender handles a datagram. -/
theorem snd_network (hA : Awaits p rcv fwd (pk :: back))
    (hguard : pk.isFin = true → p.connectionState ≠ .finWait)
    (h : NetworkMove p uninit q out) (hpk : p.networkRecvQueue.head? = some pk) :
    Awaits q rcv (fwd ++ out) back := by
  obtain ⟨pk', hh⟩ := h.handled
  obtain rfl := Party.eq_head hpk hh.queue
  have hrec := hh.finReceived
  have hhead (r : Packet) (rest : List Packet) (hq : p.networkRecvQueue = r :: rest) : r = pk' :=
    (List.cons.inj (hq.symm.trans hh.queue)).1
  cases h with
  | @data pk rest hq hdata hmin hmax =>
      obtain rfl := hhead pk rest hq
      rw [Packet.isFin_of_isData hdata, Bool.or_false] at hrec
      exact ⟨fun hs hdone => keep (hA.answer hs hdone) (Packet.isAck_of_isData hdata),
        fun hs hdone => hrec.trans (hA.unseen hs hdone)⟩
  | @ackLast pk rest hq hack hstate => exact ⟨nofun, nofun⟩
  | @ackFin pk rest hq hack hstate =>
      obtain rfl := hhead pk rest hq
      rw [Packet.isFin_of_isAck hack, Bool.or_false] at hrec
      exact ⟨nofun, fun _ hdone => hrec.trans (hA.unseen (.inl hstate) hdone)⟩
  | @ackWindow pk rest hq hack hstate₁ hstate₂ =>
      obtain rfl := hhead pk rest hq
      rw [Packet.isFin_of_isAck hack, Bool.or_false] at hrec
      refine ⟨fun hs => ?_, fun hs hdone => hrec.trans (hA.unseen hs hdone)⟩
      exact absurd hs (by rintro (h | h); exacts [hstate₂ h, hstate₁ h])
  | @finLast pk rest hq hfin hstate => exact ⟨nofun, nofun⟩
  | @finFirst pk rest hq hfin hstate =>
      refine ⟨fun hs => ?_, fun hs => ?_⟩ <;> simp at hs
  | @finIgnored pk rest hq hfin hstate₁ hstate₂ =>
      obtain rfl := hhead pk rest hq
      refine ⟨fun hs hdone => keep (hA.answer hs hdone) (Packet.isAck_of_isFin hfin), fun hs => ?_⟩
      exact absurd hs (by rintro (h | h); exacts [hguard hfin h, hstate₁ h])

/-- Outside `FIN_WAIT` a first FIN is answered. -/
theorem answers_fin (h : NetworkMove p uninit q out) (hpk : p.networkRecvQueue.head? = some pk)
    (hfin : pk.isFin = true) (hset : Settled p) (hrec : p.finReceived = false)
    (hstate : p.connectionState ≠ .finWait) : ∃ r ∈ out, r.isAck = true := by
  have hphase := hset.phase
  cases h with
  | @data pk' rest hq hdata hmin hmax =>
      obtain rfl := Party.eq_head hpk hq
      simp [Packet.isFin_of_isData hdata] at hfin
  | @ackLast pk' rest hq hack _ =>
      obtain rfl := Party.eq_head hpk hq
      simp [Packet.isFin_of_isAck hack] at hfin
  | @ackFin pk' rest hq hack _ =>
      obtain rfl := Party.eq_head hpk hq
      simp [Packet.isFin_of_isAck hack] at hfin
  | @ackWindow pk' rest hq hack _ _ =>
      obtain rfl := Party.eq_head hpk hq
      simp [Packet.isFin_of_isAck hack] at hfin
  | @finLast pk' rest hq _ _ => exact ⟨_, List.mem_singleton_self _, isAck_finAck _ _ _⟩
  | @finFirst pk' rest hq _ _ => exact ⟨_, List.mem_singleton_self _, isAck_finAck _ _ _⟩
  | @finIgnored pk' rest hq _ hstate₁ hstate₂ =>
      cases hs : p.connectionState <;> simp_all [Phase]

/-- The receiver handles a datagram, and answers a FIN. -/
theorem rcv_network (hA : Awaits snd p (pk :: fwd) back) (hD : Dir snd p (pk :: fwd) back)
    (hset : Settled p) (hguard : pk.isFin = true → p.connectionState ≠ .finWait)
    (h : NetworkMove p uninit q out) (hpk : p.networkRecvQueue.head? = some pk) :
    Awaits snd q fwd (back ++ out) where
  answer := fun hs hdone => by
    obtain ⟨r, hr, hfin⟩ | ⟨r, hr, hack⟩ := hA.answer hs hdone
    · obtain rfl | hr := List.mem_cons.mp hr
      · refine .inr ?_
        -- The states that ignore a FIN have seen one, and a second one never comes.
        have hrec : p.finReceived = false := by
          by_contra hrec
          have hack := hD.drained (by simpa using hrec) r List.mem_cons_self
          simp [Packet.isFin_of_isAck hack] at hfin
        obtain ⟨ack, hmem, hack⟩ := answers_fin h hpk hfin hset hrec (hguard hfin)
        exact ⟨ack, List.mem_append_right _ hmem, hack⟩
      · exact .inl ⟨r, hr, hfin⟩
    · exact .inr ⟨r, List.mem_append_left _ hr, hack⟩
  unseen := hA.unseen

/-- A party that starts to close has its FIN on its way, and an active closer has not
had the peer's. -/
theorem snd_close (hset : Settled p) (hopen : p.finSent = false) :
    Awaits (p.close uninit).1 rcv (fwd ++ (p.close uninit).2) back := by
  have hphase := hset.phase
  rw [close_eq]
  refine ⟨fun _ _ => .inl ⟨_, List.mem_append_right _ (List.mem_singleton_self _),
    isFin_finHeader _ _ _⟩, fun hs _ => ?_⟩
  cases hstate : p.connectionState <;> simp_all [Phase]

end Awaits

section Runs

variable {s t : Connection} {i : Side} {uninit : BitVec 32} {q : Party} {out : List Packet}

/-- What the close does not read of a party may change. -/
theorem Awaits.both_frame (hA : s.Both Awaits)
    (hq : q.networkRecvQueue = (s.party i).networkRecvQueue)
    (hstate : q.connectionState = (s.party i).connectionState)
    (hdone : q.done = (s.party i).done) (hrec : q.finReceived = (s.party i).finReceived) :
    (s.put i q out).Both Awaits := by
  have hsnd : Awaits (s.party i) (s.party i.peer) (s.chan i.peer ++ out) (s.chan i) :=
    (hA i).grow (List.subset_append_left _ _) (List.Subset.refl _)
  refine Connection.both_put_same hq ⟨?_, ?_⟩ ?_
  · rw [hstate, hdone]
    exact hsnd.answer
  · rw [hstate, hdone, hrec]
    exact hsnd.unseen
  · exact (hA.peer i).grow (List.Subset.refl _) (List.subset_append_left _ _)

theorem Awaits.iterate (hs : Sound s) (hA : s.Both Awaits)
    (hg : FinAnswered s (.iterate i uninit)) (h : s.step (.iterate i uninit) = some t) :
    t.Both Awaits := by
  refine iterate_rule hs h (Awaits.both_frame hA rfl rfl rfl rfl) ?_ ?_ ?_
  · intro s₁ q out hdir hset hself hev hA₁ hmove
    obtain ⟨pk, hh⟩ := hmove.handled
    have hpk : (s₁.party i).networkRecvQueue.head? = some pk := by simp [hh.queue]
    have hguard : pk.isFin = true → (s₁.party i).connectionState ≠ .finWait := by
      rw [hself] at hpk ⊢
      exact hg pk ((if_pos hev).trans hpk)
    have hsnd := hA₁ i
    have hrcv := hA₁.peer i
    have hR := hdir.peer i
    rw [hh.chan] at hsnd hrcv hR
    exact Connection.both_put (hsnd.snd_network hguard hmove hpk)
      (hrcv.rcv_network hR hset hguard hmove hpk)
  · intro s₁ q out hin hev hA₁ hmove
    refine Awaits.both_frame hA₁ hmove.networkRecvQueue ?_ ?_ ?_ <;> cases hmove <;> rfl
  · intro s₁ hin hev hA₁ hopen hempty
    refine Connection.both_put_same (close_networkRecvQueue _ _)
      (Awaits.snd_close hin.settled hopen) ?_
    exact (hA₁.peer i).grow (List.Subset.refl _) (List.subset_append_left _ _)

theorem Awaits.step {a : Action} (hs : Sound s) (hA : s.Both Awaits) (hg : FinAnswered s a)
    (h : s.step a = some t) : t.Both Awaits := by
  cases a with
  | mywrite i buf =>
      obtain ⟨-, rfl⟩ := Connection.step_mywrite h
      exact Awaits.both_frame hA rfl rfl rfl rfl
  | myclose i =>
      obtain ⟨-, rfl⟩ := Connection.step_myclose h
      exact Awaits.both_frame hA rfl rfl rfl rfl
  | deliver i =>
      obtain ⟨queue, hchan, hpeer, hself⟩ := Connection.deliver_chan h
      intro k
      rw [hchan, hchan]
      rcases Side.eq_or_eq_peer i k with rfl | rfl
      · rw [hself, hpeer]
        exact { hA k with }
      · rw [hpeer]
        exact { hA i.peer with }
  | iterate i uninit => exact Awaits.iterate hs hA hg h

theorem awaits_start (isn : Side → BitVec 32) : (Connection.start isn).Both Awaits := by
  intro i
  constructor <;> simp [Connection.start, Connection.startParty, controlLoopEntry]

/-- With both requests consumed and nothing under way, no side is left waiting. -/
theorem Awaits.done (hs : Sound s) (hA : s.Both Awaits) (hconsumed : s.Consumed)
    (hquiet : s.Quiet) (k : Side) : (s.party k).done = true := by
  have hchan : ∀ k, s.chan k = [] := fun k => by simp [Connection.chan, hquiet k]
  have hsent : ∀ k, (s.party k).finSent = true := fun k => by
    by_contra hopen
    have hreq := (hs.coherent k).closing.mpr ⟨(hconsumed k).1, by simpa using hopen⟩
    simp [(hconsumed k).2] at hreq
  have hwait := hA k
  have hfins := (hs.dir.peer k).fins
  rw [hchan, hchan] at hwait
  rw [hchan, hsent] at hfins
  have hrec : (s.party k).finReceived = true := by
    cases hr : (s.party k).finReceived <;> simp_all
  by_contra hdone
  have hdone : (s.party k).done = false := by simpa using hdone
  have hphase := (hs.coherent k).phase
  have hnone : ¬((∃ r ∈ ([] : List Packet), r.isFin = true) ∨
      ∃ r ∈ ([] : List Packet), r.isAck = true) := by simp
  cases hstate : (s.party k).connectionState with
  | established => simp [Phase, hstate, hsent k] at hphase
  | closeWait => simp [Phase, hstate, hsent k] at hphase
  | finWait => exact hnone (hwait.answer (.inl hstate) hdone)
  | lastAck => exact hnone (hwait.answer (.inr hstate) hdone)
  | finSentAckRecieved =>
      have hunseen := hwait.unseen (.inr hstate) hdone
      exact absurd (hrec.symm.trans hunseen) (by decide)

end Runs

/-- A run in which no side handles a FIN in `FIN_WAIT` ends, if at all, with both
sides done. -/
theorem done_of_finAnswered {isn : Side → BitVec 32} {acts : List Action} {t : Connection}
    (h : exec Connection.step (Connection.start isn) acts = some t)
    (hg : Guarded Connection.step FinAnswered (Connection.start isn) acts)
    (hconsumed : t.Consumed) (hquiet : t.Quiet) (i : Side) : (t.party i).done = true := by
  have hinv : Sound t ∧ t.Both Awaits :=
    exec_invariant (P := fun s => Sound s ∧ s.Both Awaits)
      (fun _ _ _ hs hga hstep => ⟨hs.1.step hstep, Awaits.step hs.1 hs.2 hga hstep⟩)
      ⟨sound_start isn, awaits_start isn⟩ hg h
  exact Awaits.done hinv.1 hinv.2 hconsumed hquiet i

/-- One side closes, the other answers and closes in turn. -/
def orderlyClose : List Action :=
  [.myclose .active, .iterate .active 0, .deliver .passive, .iterate .passive 0,
    .deliver .active, .iterate .active 0, .myclose .passive, .iterate .passive 0,
    .deliver .active, .iterate .active 0, .deliver .passive, .iterate .passive 0]

theorem done_orderlyClose :
    ∃ t, exec Connection.step (Connection.start fun _ => 0) orderlyClose = some t ∧
      t.Consumed ∧ t.Quiet ∧ (t.party .active).done = true := by
  have hrun : (exec Connection.step (Connection.start fun _ => 0) orderlyClose).map
      (fun t => decide (t.Consumed ∧ t.Quiet)) = some true := by decide +kernel
  obtain ⟨t, ht, hend⟩ := Option.map_eq_some_iff.mp hrun
  obtain ⟨hconsumed, hquiet⟩ := of_decide_eq_true hend
  exact ⟨t, ht, hconsumed, hquiet,
    done_of_finAnswered ht (by decide +kernel) hconsumed hquiet .active⟩

/-- Both sides close before either FIN has arrived. -/
def simultaneousClose : List Action :=
  [.myclose .active, .myclose .passive, .iterate .active 0, .iterate .passive 0,
    .deliver .active, .deliver .passive, .iterate .active 0, .iterate .passive 0]

/-- Each FIN is ignored, and both sides wait for ever. -/
theorem stuck_simultaneousClose :
    ∃ t, exec Connection.step (Connection.start fun _ => 0) simultaneousClose = some t ∧
      t.Consumed ∧ t.Quiet ∧ ∀ i, (t.party i).done = false := by
  have hrun : (exec Connection.step (Connection.start fun _ => 0) simultaneousClose).map
      (fun t => (decide (t.Consumed ∧ t.Quiet), (t.party .active).done,
        (t.party .passive).done)) = some (true, false, false) := by decide +kernel
  obtain ⟨t, ht, hend⟩ := Option.map_eq_some_iff.mp hrun
  simp only [Prod.mk.injEq] at hend
  obtain ⟨hdec, hactive, hpassive⟩ := hend
  obtain ⟨hconsumed, hquiet⟩ := of_decide_eq_true hdec
  refine ⟨t, ht, hconsumed, hquiet, fun i => ?_⟩
  cases i
  · exact hactive
  · exact hpassive

end NetworkStack.Stcp
