import NetworkStack.Stcp.Window

/-!
# Half-duplex traffic is delivered

In a run in which no side handles data while it has data of its own unacknowledged,
each application's bytes arrive in order, the FIN arrives behind all of them, and a
side with data to send never waits for a window that nothing will open.
-/

namespace NetworkStack.Stcp

open Transition

/-- Both links are empty and every datagram that arrived has been handled. -/
def Connection.Quiet (s : Connection) : Prop :=
  ∀ i, s.link i = [] ∧ (s.party i).networkRecvQueue = []

instance (s : Connection) : Decidable s.Quiet := by
  unfold Connection.Quiet
  infer_instance

/-- What the applications may rely on. -/
structure Delivers (t : Connection) : Prop where
  /-- What was passed up is the beginning of what the peer's application wrote. -/
  ordered : ∀ i, (t.party i).passedUp <+: (t.party i.peer).written
  /-- An established side that handles the FIN has passed everything up. -/
  complete : ∀ i uninit t' pk, t.step (.iterate i uninit) = some t' →
    (t.party i).next = some pk → pk.isFin = true → (t.party i).connectionState = .established →
    (t'.party i).passedUp = (t'.party i.peer).written
  /-- With nothing under way, a side with data to send has a window and waits for data. -/
  ready : t.Quiet → ∀ i, (t.party i).done = false → (t.party i).appRecvQueue ≠ [] →
    0 < (t.party i).sendWind.toInt ∧ (t.party i).eventChosen.appData = true
  /-- A side that is woken completes its iteration. -/
  enabled : ∀ i uninit, HalfDuplex t (.iterate i uninit) → (t.party i).done = false →
    (t.party i).events.nonzero = true → ∃ t', t.step (.iterate i uninit) = some t'

section Parts

variable {s t : Connection} {i : Side} {uninit : BitVec 32}

theorem Dir.ordered {snd rcv : Party} {fwd back : List Packet}
    (hD : Dir snd rcv fwd back) : rcv.passedUp <+: snd.written := by
  rw [hD.stream, List.append_assoc]
  exact List.prefix_append _ _

/-- Behind a FIN there is no data, in the channel or at the sender. -/
theorem Dir.complete_of_fin {snd rcv : Party} {fwd back : List Packet} {pk : Packet}
    (hD : Dir snd rcv (pk :: fwd) back) (hfin : pk.isFin = true) :
    rcv.passedUp = snd.written := by
  have hsent : snd.finSent = true := by
    have hfins := hD.fins
    by_contra hopen
    simp [hfin, (by simpa using hopen : snd.finSent = false)] at hfins
  have hacks : ∀ r ∈ fwd, r.isAck = true :=
    fun r hr => List.rel_of_pairwise_cons hD.afterFin hr hfin
  rw [hD.stream, payloads_cons, Packet.load_of_not_isData (Packet.isData_of_isFin hfin),
    payloads_of_acks hacks]
  simp [MysockContext.pending, hD.closed hsent]

/-- The datagram to be handled next is at the head of the channel. -/
theorem chan_of_next {pk : Packet} (h : (s.party i).next = some pk) :
    s.chan i = pk :: ((s.party i).networkRecvQueue.tail ++ s.link i) := by
  have hhead : (s.party i).networkRecvQueue.head? = some pk := by
    unfold Party.next at h
    split at h
    · exact h
    · cases h
  obtain ⟨rest, hq⟩ := List.head?_eq_some_iff.mp hhead
  simp [Connection.chan, hq]

/-- An iteration that handles a FIN passes nothing up. -/
theorem passedUp_of_fin {pk : Packet} (h : s.step (.iterate i uninit) = some t)
    (hpk : (s.party i).next = some pk) (hfin : pk.isFin = true) :
    (t.party i).passedUp = (s.party i).passedUp ∧ t.party i.peer = s.party i.peer := by
  obtain ⟨-, p₁, out₁, hnet, hrest⟩ := iterate_split h
  have hp₁ : p₁.passedUp = (s.party i).passedUp := by
    obtain ⟨hev, hmove⟩ | ⟨hev, rfl, -⟩ := hnet
    · obtain ⟨pk', hh⟩ := hmove.handled
      have hhead : (s.party i).networkRecvQueue = pk' :: p₁.networkRecvQueue := hh.queue
      obtain rfl : pk' = pk := by simpa [Party.next, hev, hhead] using hpk
      rw [hh.passedUp, Packet.load_of_not_isData (Packet.isData_of_isFin hfin), List.append_nil]
      rfl
    · rfl
  rw [← hp₁]
  obtain ⟨-, -, rfl⟩ | ⟨-, -, p₂, out₂, ⟨-, hmove⟩ | ⟨-, rfl, -⟩, rfl⟩ := hrest
  · simp [Connection.put_put, close_eq, MysockContext.passedUp]
  · cases hmove <;> simp [Connection.put_put, MysockContext.passedUp]
  · simp [Connection.put_put]

/-- With nothing in flight the window is open. -/
theorem Flow.ready {snd rcv : Party} (hF : Flow snd rcv [] []) (hopen : snd.finSent = false) :
    0 < snd.sendWind.toInt ∧ snd.eventChosen.appData = true := by
  obtain ⟨incs, slack, hW⟩ := hF hopen
  obtain rfl : incs = [] := hW.ends_nil rfl
  have hslack := hW.slack_le
  constructor
  · rw [hW.sendWind, Flow.window_toInt]
    simp only [List.sum_nil, windowSize]
    omega
  · obtain hany | ⟨-, hne⟩ := hW.chosen
    · rw [hany]
      rfl
    · exact absurd rfl hne

/-- Every branch that an iteration takes is defined. -/
theorem iterate_defined (hs : Sound s) (hF : s.Both Flow)
    (hg : HalfDuplex s (.iterate i uninit)) (hdone : (s.party i).done = false)
    (hz : (s.party i).events.nonzero = true) : ∃ t, s.step (.iterate i uninit) = some t := by
  refine iterate_enabled uninit hdone hz (fun hev => ?_) (fun p₁ out₁ htaken hev => ?_)
  · have hne : (s.party i).networkRecvQueue ≠ [] := by
      intro hnil
      simp [Party.events, pendingEvents, hnil] at hev
    obtain ⟨pk, rest, hq⟩ := List.exists_cons_of_ne_nil hne
    refine networkData_defined uninit (p := (s.party i).waited) hq fun hdata => ?_
    have hmem : pk ∈ s.chan i := by simp [Connection.chan, hq]
    have hlen := ((hs.dir.peer i).wellFormed pk hmem).data hdata
    omega
  · obtain ⟨hin, hF₁⟩ := inside_rule (P := fun s₁ => s₁.Both Flow) hs htaken
      (Flow.both_wait hF i) fun _ _ _ hdir hset hself hev' hF₁ hmove =>
        Flow.both_network hg hdir hset hself hev' hF₁ hmove
    have hqueue : p₁.appRecvQueue ≠ [] := by
      rw [htaken.frame.1]
      intro hnil
      have hnil' : (s.party i).appRecvQueue = [] := hnil
      simp [Party.events, pendingEvents, hnil'] at hev
    have hopen : p₁.finSent = false := by
      have hD := hin.dir i
      rw [Connection.put_party_self] at hD
      exact hD.open_of_queue hqueue
    have hflow := hF₁ i
    rw [Connection.put_party_self] at hflow
    obtain ⟨incs, slack, hW⟩ := hflow hopen
    refine appData_defined uninit hqueue ?_
    rw [hW.sendWind, Flow.window_toInt]
    exact Int.natCast_nonneg _

end Parts

/-- In a half-duplex run each stream arrives in order and complete, and no window
stays closed. -/
theorem delivers_of_halfDuplex {isn : Side → BitVec 32} {acts : List Action} {t : Connection}
    (h : exec Connection.step (Connection.start isn) acts = some t)
    (hg : Guarded Connection.step HalfDuplex (Connection.start isn) acts) : Delivers t := by
  obtain ⟨hs, hF⟩ := flow_exec h hg
  refine ⟨fun i => (hs.dir.peer i).ordered, ?_, ?_, fun i uninit => iterate_defined hs hF⟩
  · intro i uninit t' pk hstep hpk hfin _
    obtain ⟨hup, hpeer⟩ := passedUp_of_fin hstep hpk hfin
    rw [hup, hpeer]
    have hR := hs.dir.peer i
    rw [chan_of_next hpk] at hR
    exact hR.complete_of_fin hfin
  · intro hquiet i _ hdata
    have hchan : ∀ k, t.chan k = [] := fun k => by simp [Connection.chan, hquiet k]
    have hopen := (hs.dir i).open_of_queue hdata
    have hflow := hF i
    rw [hchan, hchan] at hflow
    exact hflow.ready hopen

/-- A request, its acknowledgement, the answer, and the close of the requesting side. -/
def requestResponse : List Action :=
  [.mywrite .active [1, 2], .iterate .active 7, .deliver .passive, .iterate .passive 7,
    .deliver .active, .iterate .active 7, .mywrite .passive [3], .iterate .passive 7,
    .deliver .active, .iterate .active 7, .deliver .passive, .iterate .passive 7,
    .myclose .active, .iterate .active 7, .deliver .passive]

theorem delivers_requestResponse :
    ∃ t, exec Connection.step (Connection.start fun _ => 0) requestResponse = some t ∧
      Delivers t := by
  have hsome : (exec Connection.step (Connection.start fun _ => 0) requestResponse).isSome =
      true := by decide +kernel
  obtain ⟨t, ht⟩ := Option.isSome_iff_exists.mp hsome
  exact ⟨t, ht, delivers_of_halfDuplex ht (by decide +kernel)⟩

end NetworkStack.Stcp
