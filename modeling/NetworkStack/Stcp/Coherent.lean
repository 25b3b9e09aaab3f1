import NetworkStack.Stcp.Iteration

/-!
# The state of a party and its FINs

`Settled` relates the connection state to the record of the FINs sent and handled;
every move keeps it. `Coherent` adds what holds between two iterations only: the
close request stands exactly from `myclose` to the FIN.
-/

namespace NetworkStack.Stcp

/-- What the connection state says about the FINs sent and handled. -/
def Phase (p : Party) : Prop :=
  match p.connectionState with
  | .established => p.finSent = false ∧ p.finReceived = false
  | .closeWait => p.finSent = false ∧ p.finReceived = true
  | .finWait => p.finSent = true
  | .finSentAckRecieved => p.finSent = true
  | .lastAck => p.finSent = true ∧ p.finReceived = true

/-- The state agrees with the record of the FINs. -/
structure Settled (p : Party) : Prop where
  phase : Phase p
  done : p.done = true → p.finSent = true ∧ p.finReceived = true
  called : p.finSent = true → p.closeCalled = true

/-- Between two iterations the close request agrees with the record too. -/
structure Coherent (p : Party) : Prop extends Settled p where
  closing : p.closeRequested = true ↔ p.closeCalled = true ∧ p.finSent = false

theorem Settled.waited {p : Party} (hp : Settled p) : Settled p.waited :=
  ⟨hp.phase, hp.done, hp.called⟩

/-- Past its own FIN a party has sent it. -/
theorem Settled.finSent_of_closing {p : Party} (hp : Settled p)
    (h : p.connectionState = .lastAck ∨ p.connectionState = .finWait ∨
      p.connectionState = .finSentAckRecieved) : p.finSent = true := by
  have hphase := hp.phase
  obtain hs | hs | hs := h
  · exact (by simpa [Phase, hs] using hphase : _ ∧ _).1
  · simpa [Phase, hs] using hphase
  · simpa [Phase, hs] using hphase

/-- An open party is established or has handled the peer's FIN. -/
theorem Settled.established_of_open {p : Party} (hp : Settled p) (hopen : p.finSent = false)
    (hrec : p.finReceived = false) : p.connectionState = .established := by
  have hphase := hp.phase
  cases hs : p.connectionState <;> simp_all [Phase]

theorem Settled.network {p q : Party} {uninit : BitVec 32} {out : List Packet}
    (hp : Settled p) (h : NetworkMove p uninit q out) : Settled q := by
  obtain ⟨hphase, hdone, hcalled⟩ := hp
  cases h with
  | @data pk rest hq hdata hmin hmax =>
      refine ⟨?_, ?_, hcalled⟩
      · simpa [Phase, Party.noteHandled, Packet.isFin_of_isData hdata] using hphase
      · simpa [Party.noteHandled, Packet.isFin_of_isData hdata] using hdone
  | @ackLast pk rest hq hack hstate =>
      have hlast : p.finSent = true ∧ p.finReceived = true := by simpa [Phase, hstate] using hphase
      refine ⟨?_, fun _ => ?_, hcalled⟩ <;> simp [Phase, Party.noteHandled, hstate, hlast]
  | @ackFin pk rest hq hack hstate =>
      refine ⟨?_, ?_, hcalled⟩
      · simpa [Phase, Party.noteHandled, hstate] using hphase
      · simpa [Party.noteHandled, Packet.isFin_of_isAck hack] using hdone
  | @ackWindow pk rest hq hack hstate₁ hstate₂ =>
      refine ⟨?_, ?_, hcalled⟩
      · simpa [Phase, Party.noteHandled, Packet.isFin_of_isAck hack] using hphase
      · simpa [Party.noteHandled, Packet.isFin_of_isAck hack] using hdone
  | @finLast pk rest hq hfin hstate =>
      refine ⟨?_, ?_, hcalled⟩ <;> simpa [Phase, Party.noteHandled, hfin, hstate] using hphase
  | @finFirst pk rest hq hfin hstate =>
      have hopen : p.finSent = false ∧ p.finReceived = false := by simpa [Phase, hstate] using hphase
      refine ⟨?_, ?_, hcalled⟩
      · simp [Phase, Party.noteHandled, hfin, hopen]
      · simpa [Party.noteHandled, hfin] using fun h => (hdone h).1
  | @finIgnored pk rest hq hfin hstate₁ hstate₂ =>
      refine ⟨?_, ?_, hcalled⟩
      · cases hs : p.connectionState with
        | established => exact absurd hs hstate₂
        | finSentAckRecieved => exact absurd hs hstate₁
        | closeWait => simpa [Phase, Party.noteHandled, hfin, hs] using (by simpa [Phase, hs] using hphase : _ ∧ _).1
        | finWait => simpa [Phase, Party.noteHandled, hs] using hphase
        | lastAck => simpa [Phase, Party.noteHandled, hfin, hs] using (by simpa [Phase, hs] using hphase : _ ∧ _).1
      · simpa [Party.noteHandled, hfin] using fun h => (hdone h).1

theorem Settled.app {p q : Party} {uninit : BitVec 32} {out : List Packet}
    (hp : Settled p) (h : AppMove p uninit q out) : Settled q := by
  cases h with
  | drain => exact ⟨hp.phase, hp.done, hp.called⟩
  | send => exact ⟨hp.phase, hp.done, hp.called⟩

theorem Settled.close {p : Party} (uninit : BitVec 32) (hp : Settled p)
    (hfin : p.finSent = false) (hcalled : p.closeCalled = true) :
    Settled (p.close uninit).1 := by
  rw [close_eq]
  refine ⟨?_, fun h => ⟨rfl, (hp.done h).2⟩, fun _ => hcalled⟩
  have hphase := hp.phase
  cases hs : p.connectionState <;> simp_all [Phase]

theorem forall_put {P : Party → Prop} {s : Connection} {i : Side} {p : Party}
    {out : List Packet} (hs : ∀ k, P (s.party k)) (hp : P p) (k : Side) :
    P ((s.put i p out).party k) := by
  rcases Side.eq_or_eq_peer i k with rfl | rfl
  · simpa using hp
  · simpa using hs _

theorem Coherent.app {p q : Party} {uninit : BitVec 32} {out : List Packet}
    (hp : Coherent p) (h : AppMove p uninit q out) : Coherent q :=
  { hp.toSettled.app h with
    closing := by
      have hclosing := hp.closing
      cases h <;> exact hclosing }

theorem Coherent.iterate {s t : Connection} {i : Side} {uninit : BitVec 32}
    (hs : ∀ k, Coherent (s.party k)) (h : s.step (.iterate i uninit) = some t) (k : Side) :
    Coherent (t.party k) := by
  obtain ⟨-, p₁, out₁, hnet, hrest⟩ := iterate_split h
  have hset : Settled p₁ := by
    obtain ⟨-, hmove⟩ | ⟨-, rfl, -⟩ := hnet
    · exact (hs i).toSettled.waited.network hmove
    · exact (hs i).toSettled.waited
  obtain ⟨-, hcl, rfl⟩ | ⟨-, hwait, p₂, out₂, happ, rfl⟩ := hrest
  · obtain ⟨hcalled, hfin⟩ := (hs i).closing.mp hcl.requested
    rw [← hcl.closeCalled] at hcalled
    rw [← hcl.finSent] at hfin
    rw [Connection.put_put]
    refine forall_put hs { hset.close uninit hfin hcalled with closing := ?_ } k
    simp [close_eq, hcl.cleared]
  · rw [Connection.put_put]
    refine forall_put hs ?_ k
    obtain ⟨-, hreq, hcalled, hfin⟩ := hnet.frame
    have hcoh : Coherent p₁ :=
      { hset with
        closing := by
          rw [hreq, hcalled, hfin, hwait]
          exact (hs i).closing }
    obtain ⟨-, hmove⟩ | ⟨-, rfl, -⟩ := happ
    · exact hcoh.app hmove
    · exact hcoh

theorem Coherent.step {s t : Connection} {a : Action} (hs : ∀ k, Coherent (s.party k))
    (h : s.step a = some t) : ∀ k, Coherent (t.party k) := by
  cases a with
  | mywrite i buf =>
      obtain ⟨-, rfl⟩ := Connection.step_mywrite h
      exact forall_put hs ⟨⟨(hs i).phase, (hs i).done, (hs i).called⟩, (hs i).closing⟩
  | myclose i =>
      obtain ⟨hcalled, rfl⟩ := Connection.step_myclose h
      have hfin : (s.party i).finSent = false := by
        by_contra hsent
        simp [(hs i).called (by simpa using hsent)] at hcalled
      refine forall_put hs ⟨⟨(hs i).phase, (hs i).done, fun _ => rfl⟩, ?_⟩
      simp [hfin]
  | deliver i => 
      obtain ⟨queue, -, hpeer, hself⟩ := Connection.deliver_chan h
      intro k
      rcases Side.eq_or_eq_peer i k with rfl | rfl
      · rw [hself]
        exact ⟨⟨(hs k).phase, (hs k).done, (hs k).called⟩, (hs k).closing⟩
      · rw [hpeer]
        exact hs _
  | iterate i uninit => exact Coherent.iterate hs h

end NetworkStack.Stcp
