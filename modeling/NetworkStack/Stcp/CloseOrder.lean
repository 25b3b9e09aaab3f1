import NetworkStack.Stcp.Closing

/-!
# Done only after the FIN was answered

The loop tells the acknowledgement of its FIN from that of data only by its state:
after the FIN it takes the next acknowledgement for the answer. That is right as
long as no side sends its FIN with data unacknowledged.
-/

namespace NetworkStack.Stcp

open Transition

/-- A side sends its FIN only when all its data has been acknowledged. -/
def Flushed (s : Connection) : Action → Prop
  | .iterate i _ =>
      (s.party i).events.appCloseRequested = true →
        ((s.party i).noteHandled (s.party i).next).unacked = 0
  | _ => True

instance decidableFlushed (s : Connection) : ∀ a, Decidable (Flushed s a)
  | .iterate i _ => inferInstanceAs (Decidable ((s.party i).events.appCloseRequested = true →
      ((s.party i).noteHandled (s.party i).next).unacked = 0))
  | .mywrite .. | .myclose _ | .deliver _ => .isTrue trivial

/-- The close of a connection goes through its stages in order. -/
structure ClosesInOrder (t : Connection) : Prop where
  /-- A side that is done has sent its FIN, had it answered, and had the peer's FIN. -/
  done : ∀ i, (t.party i).done = true → (t.party i).finSent = true ∧
    (t.party i).finAcked = true ∧ (t.party i).finReceived = true
  /-- Only the answer to its FIN takes a side out of `FIN_WAIT`. -/
  leaves : ∀ i uninit t', t.step (.iterate i uninit) = some t' →
    (t.party i).connectionState = .finWait →
    (t'.party i).connectionState = .finSentAckRecieved →
    ∃ pk, (t.party i).next = some pk ∧ pk.isFinAck = true

/-- After the FIN nothing but its answer is outstanding. -/
structure Answered (p : Party) : Prop where
  flushed : p.finSent = true → p.unacked = 0
  waiting : p.connectionState = .finSentAckRecieved → p.finAcked = true
  done : p.done = true → p.finAcked = true

namespace Answered

variable {rcv p q : Party} {fwd back out : List Packet} {pk : Packet} {uninit : BitVec 32}

/-- With nothing unacknowledged, an acknowledgement is that of the FIN. -/
theorem isFinAck_of_isAck (hD : Dir p rcv fwd (pk :: back)) (hpk : pk.WellFormed)
    (hzero : p.unacked = 0) (hack : pk.isAck = true) : pk.isFinAck = true := by
  obtain hfin | hpos := hpk.ack hack
  · exact hfin
  · have hacc := hD.account
    simp only [hzero, List.map_cons, List.sum_cons] at hacc
    omega

theorem network (hp : Answered p) (hset : Settled p) (hD : Dir p rcv fwd (pk :: back))
    (hwf : pk.WellFormed) (h : NetworkMove p uninit q out)
    (hpk : p.networkRecvQueue.head? = some pk) : Answered q := by
  obtain ⟨pk', hh⟩ := h.handled
  obtain rfl := Party.eq_head hpk hh.queue
  have hflushed : q.finSent = true → q.unacked = 0 := by
    rw [hh.finSent, hh.unacked]
    intro hsent
    simp [hp.flushed hsent]
  have hkeep : p.finAcked = true → q.finAcked = true := by
    rw [hh.finAcked]
    intro hacked
    simp [hacked]
  have hfinack : pk'.isAck = true → p.finSent = true → q.finAcked = true := by
    intro hack hsent
    rw [hh.finAcked, isFinAck_of_isAck hD hwf (hp.flushed hsent) hack, Bool.or_true]
  cases h with
  | @data pk rest hq hdata hmin hmax =>
      exact ⟨hflushed, fun hs => hkeep (hp.waiting hs), fun hd => hkeep (hp.done hd)⟩
  | @ackLast pk rest hq hack hstate =>
      obtain rfl := Party.eq_head hpk hq
      have hsent := hset.finSent_of_closing (.inl hstate)
      exact ⟨hflushed, fun hs => hkeep (hp.waiting hs), fun _ => hfinack hack hsent⟩
  | @ackFin pk rest hq hack hstate =>
      obtain rfl := Party.eq_head hpk hq
      have hsent := hset.finSent_of_closing (.inr (.inl hstate))
      exact ⟨hflushed, fun _ => hfinack hack hsent, fun hd => hkeep (hp.done hd)⟩
  | @ackWindow pk rest hq hack hstate₁ hstate₂ =>
      exact ⟨hflushed, fun hs => hkeep (hp.waiting hs), fun hd => hkeep (hp.done hd)⟩
  | @finLast pk rest hq hfin hstate =>
      exact ⟨hflushed, fun hs => hkeep (hp.waiting hs), fun _ => hkeep (hp.waiting hstate)⟩
  | @finFirst pk rest hq hfin hstate =>
      exact ⟨hflushed, fun hs => (by cases hs), fun hd => hkeep (hp.done hd)⟩
  | @finIgnored pk rest hq hfin hstate₁ hstate₂ =>
      exact ⟨hflushed, fun hs => hkeep (hp.waiting hs), fun hd => hkeep (hp.done hd)⟩

theorem app (hp : Answered p) (hopen : p.finSent = false) (h : AppMove p uninit q out) :
    Answered q := by
  cases h with
  | drain => exact { hp with }
  | send => exact ⟨fun hsent => absurd (hopen.symm.trans hsent) (by decide), hp.waiting, hp.done⟩

theorem close (hp : Answered p) (hzero : p.unacked = 0) : Answered (p.close uninit).1 := by
  rw [close_eq]
  refine ⟨fun _ => hzero, fun hs => ?_, hp.done⟩
  dsimp only at hs
  split at hs <;> cases hs

end Answered

section Runs

variable {s t : Connection} {i : Side} {uninit : BitVec 32}

theorem Answered.iterate (hs : Sound s) (hA : ∀ k, Answered (s.party k))
    (hg : Flushed s (.iterate i uninit)) (h : s.step (.iterate i uninit) = some t) :
    ∀ k, Answered (t.party k) := by
  refine iterate_rule (P := fun s₁ => ∀ k, Answered (s₁.party k)) hs h
    (forall_put hA { hA i with }) ?_ ?_ ?_
  · intro s₁ q out hdir hset hself hev hA₁ hmove
    obtain ⟨pk, hh⟩ := hmove.handled
    have hpk : (s₁.party i).networkRecvQueue.head? = some pk := by simp [hh.queue]
    have hD := hdir i
    have hwf := (hdir.peer i).wellFormed pk (by rw [hh.chan]; exact List.mem_cons_self)
    rw [hh.chan] at hD
    exact forall_put hA₁ ((hA₁ i).network hset hD hwf hmove hpk)
  · intro s₁ q out hin hev hA₁ hmove
    exact forall_put hA₁ ((hA₁ i).app ((hin.dir i).open_of_queue hmove.queue_ne) hmove)
  · intro s₁ hin hev hA₁ hopen hempty
    refine forall_put hA₁ ((hA₁ i).close ?_)
    have hzero := hg hev
    obtain ⟨out₁, ⟨hnet, hmove⟩ | ⟨hnet, hself, -⟩⟩ := hin.network
    · obtain ⟨pk, hh⟩ := hmove.handled
      have hq : (s.party i).networkRecvQueue = pk :: _ := hh.queue
      have hnext : (s.party i).next = some pk := by simp [Party.next, hnet, hq]
      rw [hnext] at hzero
      exact hh.unacked.trans hzero
    · have hnext : (s.party i).next = none := by simp [Party.next, hnet]
      rw [hnext] at hzero
      rw [hself]
      exact hzero

theorem Answered.step {a : Action} (hs : Sound s) (hA : ∀ k, Answered (s.party k))
    (hg : Flushed s a) (h : s.step a = some t) : ∀ k, Answered (t.party k) := by
  cases a with
  | mywrite i buf =>
      obtain ⟨-, rfl⟩ := Connection.step_mywrite h
      exact forall_put hA { hA i with }
  | myclose i =>
      obtain ⟨-, rfl⟩ := Connection.step_myclose h
      exact forall_put hA { hA i with }
  | deliver i =>
      obtain ⟨queue, -, hpeer, hself⟩ := Connection.deliver_chan h
      intro k
      rcases Side.eq_or_eq_peer i k with rfl | rfl
      · rw [hself]
        exact { hA k with }
      · rw [hpeer]
        exact hA _
  | iterate i uninit => exact Answered.iterate hs hA hg h

/-- Leaving `FIN_WAIT` takes an acknowledgement. -/
theorem isAck_of_leaves (h : s.step (.iterate i uninit) = some t)
    (hbefore : (s.party i).connectionState = .finWait)
    (hafter : (t.party i).connectionState = .finSentAckRecieved) :
    ∃ pk, (s.party i).next = some pk ∧ pk.isAck = true := by
  obtain ⟨-, p₁, out₁, hnet, hrest⟩ := iterate_split h
  have hp₁ : p₁.connectionState = .finSentAckRecieved := by
    obtain ⟨-, -, rfl⟩ | ⟨-, -, p₂, out₂, ⟨-, hmove⟩ | ⟨-, rfl, -⟩, rfl⟩ := hrest
    · rw [Connection.put_party_self, close_eq] at hafter
      dsimp only at hafter
      split at hafter <;> cases hafter
    · rw [Connection.put_party_self] at hafter
      cases hmove <;> exact hafter
    · simpa using hafter
  have hwait : (s.party i).waited.connectionState = .finWait := hbefore
  obtain ⟨hev, hmove⟩ | ⟨hev, rfl, -⟩ := hnet
  · obtain ⟨pk, hh⟩ := hmove.handled
    have hq : (s.party i).networkRecvQueue = pk :: _ := hh.queue
    refine ⟨pk, by simp [Party.next, hev, hq], ?_⟩
    cases hmove with
    | @ackFin pk' rest hq' hack hstate =>
        obtain rfl : pk' = pk := (List.cons.inj (hq'.symm.trans hh.queue)).1
        exact hack
    | finFirst _ _ hstate => exact absurd (hwait.symm.trans hstate) (by decide)
    | _ => exact absurd (hwait.symm.trans hp₁) (by decide)
  · exact absurd (hwait.symm.trans hp₁) (by decide)

end Runs

theorem answered_start (isn : Side → BitVec 32) (k : Side) :
    Answered ((Connection.start isn).party k) := by
  constructor <;> simp [Connection.start, Connection.startParty, controlLoopEntry]

/-- A run in which every FIN is sent with nothing unacknowledged closes in order. -/
theorem closesInOrder_of_flushed {isn : Side → BitVec 32} {acts : List Action} {t : Connection}
    (h : exec Connection.step (Connection.start isn) acts = some t)
    (hg : Guarded Connection.step Flushed (Connection.start isn) acts) : ClosesInOrder t := by
  have hinv : Sound t ∧ ∀ k, Answered (t.party k) :=
    exec_invariant (P := fun s => Sound s ∧ ∀ k, Answered (s.party k))
      (fun _ _ _ hs hga hstep => ⟨hs.1.step hstep, Answered.step hs.1 hs.2 hga hstep⟩)
      ⟨sound_start isn, answered_start isn⟩ hg h
  obtain ⟨hs, hA⟩ := hinv
  refine ⟨fun i hdone => ?_, fun i uninit t' hstep hbefore hafter => ?_⟩
  · obtain ⟨hsent, hrec⟩ := (hs.coherent i).done hdone
    exact ⟨hsent, (hA i).done hdone, hrec⟩
  · obtain ⟨pk, hnext, hack⟩ := isAck_of_leaves hstep hbefore hafter
    have hsent : (t.party i).finSent = true := by
      simpa [Phase, hbefore] using (hs.coherent i).phase
    have hD := hs.dir i
    have hwf := (hs.dir.peer i).wellFormed pk (by rw [chan_of_next hnext]; exact List.mem_cons_self)
    rw [chan_of_next hnext] at hD
    exact ⟨pk, hnext, Answered.isFinAck_of_isAck hD hwf ((hA i).flushed hsent) hack⟩

/-- A byte is acknowledged, and then one side closes and the other in turn. -/
def closeAfterData : List Action :=
  [.mywrite .active [1], .iterate .active 0, .deliver .passive, .iterate .passive 0,
    .deliver .active, .iterate .active 0] ++ orderlyClose

theorem closesInOrder_closeAfterData :
    ∃ t, exec Connection.step (Connection.start fun _ => 0) closeAfterData = some t ∧
      (t.party .active).done = true ∧ (t.party .passive).done = true ∧ ClosesInOrder t := by
  have hrun : (exec Connection.step (Connection.start fun _ => 0) closeAfterData).map
      (fun t => ((t.party .active).done, (t.party .passive).done)) = some (true, true) := by
    decide +kernel
  obtain ⟨t, ht, hdone⟩ := Option.map_eq_some_iff.mp hrun
  obtain ⟨hactive, hpassive⟩ := Prod.mk.inj hdone
  exact ⟨t, ht, hactive, hpassive, closesInOrder_of_flushed ht (by decide +kernel)⟩

/-- A side writes and closes at once, and gets the acknowledgement of its data. -/
def closeWithData : List Action :=
  [.mywrite .active [1], .iterate .active 0, .myclose .active, .iterate .active 0,
    .deliver .passive, .iterate .passive 0, .deliver .active]

/-- The acknowledgement of the data takes the side out of `FIN_WAIT`. -/
theorem not_closesInOrder_closeWithData :
    ∃ t, exec Connection.step (Connection.start fun _ => 0) closeWithData = some t ∧
      ¬ClosesInOrder t := by
  have hrun : (exec Connection.step (Connection.start fun _ => 0) closeWithData).map
      (fun t => ((t.party .active).connectionState, (t.party .active).next.map Packet.isFinAck,
        (t.step (.iterate .active 0)).map fun t' => (t'.party .active).connectionState)) =
      some (.finWait, some false, some .finSentAckRecieved) := by decide +kernel
  obtain ⟨t, ht, hvals⟩ := Option.map_eq_some_iff.mp hrun
  simp only [Prod.mk.injEq] at hvals
  obtain ⟨hbefore, hnext, hstep⟩ := hvals
  obtain ⟨t', ht', hafter⟩ := Option.map_eq_some_iff.mp hstep
  refine ⟨t, ht, fun hc => ?_⟩
  obtain ⟨pk, hpk, hfin⟩ := hc.leaves .active 0 t' ht' hbefore hafter
  simp [hpk, hfin] at hnext

end NetworkStack.Stcp
