import NetworkStack.Stcp.Stream

/-!
# The send window while traffic is half duplex

The sequence variables of a sender are tied to what is in flight by a list of
increments: one for each acknowledgement on its way back and each data segment on
its way out, in the order in which they will advance `initial_sequence_num`. The
window is what the increments leave of `windowSize`. Handling a FIN moves
`initial_sequence_num` ahead of the acknowledgements to come, so afterwards the
increments may differ from the segment lengths by one.
-/

namespace NetworkStack.Stcp

open Transition

/-! ## Increments -/

/-- The numbers reached from `b` by one increment after the other. -/
def marks (b : BitVec 32) : List Nat → List (BitVec 32)
  | [] => []
  | n :: ns => (b + BitVec.ofNat 32 n) :: marks (b + BitVec.ofNat 32 n) ns

theorem marks_append (b : BitVec 32) (ns : List Nat) (n : Nat) :
    marks b (ns ++ [n]) = marks b ns ++ [b + BitVec.ofNat 32 (ns.sum + n)] := by
  induction ns generalizing b with
  | nil => simp [marks]
  | cons m ns ih =>
      simp [marks, ih, BitVec.ofNat_add, BitVec.add_assoc]

theorem marks_eq_nil {b : BitVec 32} {ns : List Nat} (h : marks b ns = []) : ns = [] := by
  cases ns with
  | nil => rfl
  | cons n ns => simp [marks] at h

/-- Moving the base by one takes one from the first increment. -/
theorem marks_succ (b : BitVec 32) (n : Nat) (ns : List Nat) :
    marks (b + 1) (n :: ns) = marks b ((n + 1) :: ns) := by
  have hb : b + 1 + BitVec.ofNat 32 n = b + BitVec.ofNat 32 (n + 1) := by
    rw [BitVec.ofNat_add, BitVec.add_assoc, BitVec.add_comm 1]
    rfl
  simp only [marks, hb]

/-! ## What is in flight -/

/-- The number that acknowledges a data segment. -/
def Packet.endSeq (pk : Packet) : BitVec 32 :=
  pk.header.thSeq + BitVec.ofNat 32 pk.data.length - 20

/-- The acknowledgements that the sender will see, in order: the number of each and
the payload bytes it stands for. -/
def flight (fwd back : List Packet) : List (BitVec 32 × Nat) :=
  (back.filter Packet.isAck).map (fun pk => (pk.header.thAck, pk.ackedBytes)) ++
    (fwd.filter Packet.isData).map fun pk => (pk.endSeq, pk.payload.length)

theorem flight_fwd_append {fwd back out : List Packet} (h : ∀ r ∈ out, r.isData = false) :
    flight (fwd ++ out) back = flight fwd back := by
  have hnil : out.filter Packet.isData = [] := by simpa [List.filter_eq_nil_iff] using h
  simp [flight, hnil]

theorem flight_back_append {fwd back out : List Packet} (h : ∀ r ∈ out, r.isAck = false) :
    flight fwd (back ++ out) = flight fwd back := by
  have hnil : out.filter Packet.isAck = [] := by simpa [List.filter_eq_nil_iff] using h
  simp [flight, hnil]

theorem flight_back_cons_of_not_isAck {fwd back : List Packet} {pk : Packet}
    (h : pk.isAck = false) : flight fwd (pk :: back) = flight fwd back := by
  simp [flight, h]

theorem flight_back_cons_of_isAck {fwd back : List Packet} {pk : Packet} (h : pk.isAck = true) :
    flight fwd (pk :: back) = (pk.header.thAck, pk.ackedBytes) :: flight fwd back := by
  simp [flight, h]

theorem flight_fwd_cons_of_not_isData {fwd back : List Packet} {pk : Packet}
    (h : pk.isData = false) : flight (pk :: fwd) back = flight fwd back := by
  simp [flight, h]

/-- Acknowledging a data segment moves it from one channel to the other and keeps
its place in the order. -/
theorem flight_answer {fwd back : List Packet} {pk r : Packet} (hpk : pk.isData = true)
    (hr : r.isAck = true) (hseq : r.header.thAck = pk.endSeq)
    (hlen : r.ackedBytes = pk.payload.length) :
    flight fwd (back ++ [r]) = flight (pk :: fwd) back := by
  simp [flight, hpk, hr, hseq, hlen]

theorem flight_send {fwd back : List Packet} {pk : Packet} (hpk : pk.isData = true) :
    flight (fwd ++ [pk]) back = flight fwd back ++ [(pk.endSeq, pk.payload.length)] := by
  simp [flight, hpk]

/-- The bytes in flight are those the sender waits to have acknowledged. -/
theorem flight_sum (fwd back : List Packet) :
    ((flight fwd back).map Prod.snd).sum =
      (back.map Packet.ackedBytes).sum + (payloads fwd).length := by
  have hback : ((back.filter Packet.isAck).map Packet.ackedBytes).sum =
      (back.map Packet.ackedBytes).sum := by
    induction back with
    | nil => rfl
    | cons pk back ih =>
        cases hack : pk.isAck with
        | false => simp [hack, ih, Packet.ackedBytes_of_not_isAck hack]
        | true => simp [hack, ih]
  have hfwd : ((fwd.filter Packet.isData).map fun pk => pk.payload.length).sum =
      (payloads fwd).length := by
    induction fwd with
    | nil => rfl
    | cons pk fwd ih =>
        cases hdata : pk.isData with
        | false => simp [hdata, ih, payloads_cons, Packet.load_of_not_isData hdata]
        | true => simp [hdata, ih, payloads_cons, Packet.load_of_isData hdata]
  simpa [flight, Function.comp_def] using congrArg₂ (· + ·) hback hfwd

theorem flight_pos {fwd back : List Packet} (hfwd : ∀ pk ∈ fwd, pk.WellFormed)
    (hback : ∀ pk ∈ back, pk.WellFormed) (hfin : ∀ pk ∈ back, pk.isFinAck = false) :
    ∀ n ∈ (flight fwd back).map Prod.snd, 0 < n := by
  simp only [flight, List.map_append, List.map_map, List.mem_append, List.mem_map,
    List.mem_filter]
  rintro n (⟨pk, ⟨hmem, hack⟩, rfl⟩ | ⟨pk, ⟨hmem, hdata⟩, rfl⟩)
  · have hor := (hback pk hmem).ack hack
    simpa [hfin pk hmem] using hor
  · have hlen := ((hfwd pk hmem).data hdata).1
    simp only [Function.comp_apply, Packet.payload, List.length_drop]
    omega

/-- The sequence variables agree with the increments `incs` and with the `slack`
that handling a FIN has left. -/
structure Window (p : Party) (fwd back : List Packet) (incs : List Nat) (slack : Nat) : Prop where
  ends : (flight fwd back).map Prod.fst = marks p.initialSequenceNum incs
  left : p.left = p.initialSequenceNum + BitVec.ofNat 32 (incs.sum + slack)
  sendWind : p.sendWind = BitVec.ofNat 32 (windowSize - (incs.sum + slack))
  fits : incs.sum + slack ≤ windowSize
  slack_le : slack ≤ 1
  exact : p.connectionState = .established →
    slack = 0 ∧ incs = (flight fwd back).map Prod.snd
  chosen : p.eventChosen = .any ∨ p.eventChosen = .network ∧ incs ≠ []

/-- A party that has not sent its FIN keeps its sequence variables in step with
what is in flight. -/
def Flow (snd _rcv : Party) (fwd back : List Packet) : Prop :=
  snd.finSent = false → ∃ incs slack, Window snd fwd back incs slack

theorem Window.ends_nil {p : Party} {fwd back : List Packet} {incs : List Nat} {slack : Nat}
    (h : Window p fwd back incs slack) (hnil : flight fwd back = []) : incs = [] := by
  have hends := h.ends
  rw [hnil] at hends
  exact marks_eq_nil hends.symm

/-- The window sees the channels only through what is in flight. -/
theorem Window.congr {p : Party} {fwd back fwd' back' : List Packet} {incs : List Nat}
    {slack : Nat} (hfl : flight fwd' back' = flight fwd back) (h : Window p fwd back incs slack) :
    Window p fwd' back' incs slack :=
  { h with
    ends := by
      rw [hfl]
      exact h.ends
    exact := by
      rw [hfl]
      exact h.exact }

/-! ## The moves -/

namespace Flow

variable {snd rcv p q : Party} {fwd back out : List Packet} {pk : Packet} {uninit : BitVec 32}

/-- An acknowledgement gives back to the window what it advances the base by. -/
theorem window_reopen {b : BitVec 32} {n m : Nat} (h : n + m ≤ windowSize) :
    BitVec.ofNat 32 (windowSize - (n + m)) + (b + BitVec.ofNat 32 n) - b =
      BitVec.ofNat 32 (windowSize - m) := by
  have hsplit : windowSize - m = windowSize - (n + m) + n := by omega
  rw [hsplit, BitVec.ofNat_add, BitVec.add_comm b, ← BitVec.add_assoc, BitVec.add_sub_cancel]

/-- The window is small enough to be read as a signed number. -/
theorem window_toInt (m : Nat) :
    (BitVec.ofNat 32 (windowSize - m)).toInt = ((windowSize - m : Nat) : Int) := by
  have hsmall : windowSize - m < 2 ^ 31 := lt_of_le_of_lt (Nat.sub_le _ _) (by decide)
  rw [BitVec.toInt_eq_toNat_of_lt, BitVec.toNat_ofNat, Nat.mod_eq_of_lt (by omega)]
  rw [BitVec.toNat_ofNat, Nat.mod_eq_of_lt (by omega)]
  omega

/-- Sending takes its length from the window. -/
theorem window_shrink {m n : Nat} (h : m + n ≤ windowSize) :
    BitVec.ofNat 32 (windowSize - m) - BitVec.ofNat 32 n =
      BitVec.ofNat 32 (windowSize - (m + n)) := by
  have hsplit : windowSize - m = windowSize - (m + n) + n := by omega
  rw [hsplit, BitVec.ofNat_add, BitVec.add_sub_cancel]

theorem endSeq_dataHeader (p : Party) (uninit : BitVec 32) (app : List Byte) (c : Cause) :
    Packet.endSeq ⟨(dataHeader p uninit).toBytes ++ app, c⟩ =
      p.left + BitVec.ofNat 32 app.length := by
  simp only [Packet.endSeq, Packet.header_mk_append, dataHeader, List.length_append,
    STCPHeader.toBytes_length, BitVec.ofNat_add]
  rw [BitVec.add_comm (BitVec.ofNat 32 headerLen), ← BitVec.add_assoc]
  exact BitVec.add_sub_cancel _ _

/-- A window that holds nothing in flight, established. -/
theorem idle {incs : List Nat} {slack : Nat} (h : Window p fwd back incs slack)
    (hD : Dir p rcv fwd back) (hback : ∀ pk ∈ back, pk.WellFormed) (hopen : p.finSent = false)
    (hzero : p.unacked = 0) : flight fwd back = [] ∧ incs = [] := by
  have hsum := flight_sum fwd back
  rw [← hD.account, hzero] at hsum
  have hnil : flight fwd back = [] := by
    have hpos := flight_pos hD.wellFormed hback (hD.answered hopen)
    cases hf : flight fwd back with
    | nil => rfl
    | cons e rest =>
        have hhead := hpos e.2 (by simp [hf])
        rw [hf] at hsum
        simp only [List.map_cons, List.sum_cons] at hsum
        omega
  exact ⟨hnil, h.ends_nil hnil⟩

/-- An acknowledgement moves the base to the end of the first segment in flight. -/
theorem window_acked {incs : List Nat} {slack : Nat} (h : Window p fwd (pk :: back) incs slack)
    (hack : pk.isAck = true) (hleft : q.left = p.left)
    (hisn : q.initialSequenceNum = pk.header.thAck)
    (hwind : q.sendWind = p.sendWind + pk.header.thAck - p.initialSequenceNum)
    (hstate : q.connectionState = p.connectionState)
    (hchosen : q.eventChosen = if p.eventChosen.networkData then .any else p.eventChosen) :
    ∃ incs' slack', Window q fwd back incs' slack' := by
  have hends := h.ends
  rw [flight_back_cons_of_isAck hack, List.map_cons] at hends
  cases incs with
  | nil => cases hends
  | cons n ns =>
      obtain ⟨hnum, hrest⟩ : pk.header.thAck = p.initialSequenceNum + BitVec.ofNat 32 n ∧ _ :=
        List.cons.inj hends
      have hfits := h.fits
      rw [List.sum_cons, Nat.add_assoc] at hfits
      refine ⟨ns, slack, ?_, ?_, ?_, by omega, h.slack_le, fun hest => ?_, .inl ?_⟩
      · rw [hisn, hnum]
        exact hrest
      · rw [hleft, h.left, hisn, hnum, List.sum_cons, Nat.add_assoc, BitVec.ofNat_add,
          BitVec.add_assoc]
      · rw [hwind, h.sendWind, hnum, List.sum_cons, Nat.add_assoc]
        exact window_reopen hfits
      · obtain ⟨hzero, hincs⟩ := h.exact (hstate.symm.trans hest)
        rw [flight_back_cons_of_isAck hack, List.map_cons] at hincs
        exact ⟨hzero, (List.cons.inj hincs).2⟩
      · rw [hchosen]
        obtain hany | ⟨hnet, -⟩ := h.chosen
        · rw [hany]
          rfl
        · rw [hnet]
          rfl

/-- Handling a FIN moves the base by one: the first increment loses one to the slack. -/
theorem window_fin {incs : List Nat} (h : Window p fwd back incs 0) (hpos : ∀ n ∈ incs, 0 < n)
    (hleft : q.left = p.left + 1) (hisn : q.initialSequenceNum = p.initialSequenceNum + 1)
    (hwind : q.sendWind = p.sendWind) (hstate : q.connectionState ≠ .established)
    (hchosen : q.eventChosen = p.eventChosen) :
    ∃ incs' slack, Window q fwd back incs' slack := by
  have hends := h.ends
  cases incs with
  | nil =>
      refine ⟨[], 0, hends, ?_, hwind.trans h.sendWind, h.fits, h.slack_le,
        fun hest => absurd hest hstate, ?_⟩
      · rw [hleft, hisn, h.left]
        simp
      · rw [hchosen]
        exact h.chosen
  | cons n ns =>
      -- The base has overtaken the acknowledgement to come by one.
      obtain ⟨m, rfl⟩ := Nat.exists_eq_succ_of_ne_zero (hpos n List.mem_cons_self).ne'
      have hsum : (m :: ns).sum + 1 = ((m + 1) :: ns).sum + 0 := by
        simp only [List.sum_cons]
        omega
      refine ⟨m :: ns, 1, ?_, ?_, ?_, ?_, le_rfl, fun hest => absurd hest hstate, ?_⟩
      · rw [hisn]
        exact hends.trans (marks_succ _ _ _).symm
      · rw [hleft, hisn, h.left, hsum, BitVec.add_assoc, BitVec.add_assoc, BitVec.add_comm 1]
      · rw [hwind, hsum]
        exact h.sendWind
      · rw [hsum]
        exact h.fits
      · rw [hchosen]
        exact h.chosen.imp_right fun hnet => ⟨hnet.1, by simp⟩

/-- The sender handles a datagram, with nothing of its own in flight if it is data. -/
theorem snd_network (hF : Flow p rcv fwd (pk :: back)) (hD : Dir p rcv fwd (pk :: back))
    (hR : Dir rcv p (pk :: back) fwd) (hset : Settled p)
    (hhalf : pk.isData = true → p.unacked = 0) (h : NetworkMove p uninit q out)
    (hpk : p.networkRecvQueue.head? = some pk) : Flow q rcv (fwd ++ out) back := by
  intro hopen
  have hout : ∀ r ∈ out, r.isData = false := by
    obtain ⟨pk', hh⟩ := h.handled
    exact fun r hr => Packet.isData_of_isAck (hh.replies r hr).1
  cases h with
  | @data pk' rest hq hdata hmin hmax =>
      obtain rfl := Party.eq_head hpk hq
      obtain ⟨incs, slack, hW⟩ := hF hopen
      obtain ⟨hnil, rfl⟩ := idle hW hD hR.wellFormed hopen (hhalf hdata)
      have hest : p.connectionState = .established := by
        refine hset.established_of_open hopen ?_
        by_contra hrec
        have hack := hR.drained (by simpa using hrec) _ List.mem_cons_self
        simp [Packet.isData_of_isAck hack] at hdata
      obtain ⟨rfl, -⟩ := hW.exact hest
      rw [flight_back_cons_of_not_isAck (Packet.isAck_of_isData hdata)] at hnil
      refine ⟨[], 0, ?_, ?_, ?_, hW.fits, hW.slack_le, fun _ => ⟨rfl, ?_⟩, ?_⟩
      · rw [flight_fwd_append hout, hnil]
        rfl
      · simp
      · exact hW.sendWind
      · rw [flight_fwd_append hout, hnil]
        rfl
      · exact hW.chosen
  | @ackLast pk' rest hq hack hstate =>
      have hsent := hset.finSent_of_closing (.inl hstate)
      exact absurd (hsent.symm.trans hopen) (by decide)
  | @ackFin pk' rest hq hack hstate =>
      have hsent := hset.finSent_of_closing (.inr (.inl hstate))
      exact absurd (hsent.symm.trans hopen) (by decide)
  | @ackWindow pk' rest hq hack hstate₁ hstate₂ =>
      obtain rfl := Party.eq_head hpk hq
      obtain ⟨incs, slack, hW⟩ := hF hopen
      rw [List.append_nil]
      exact window_acked hW hack rfl rfl rfl rfl rfl
  | @finLast pk' rest hq hfin hstate =>
      have hsent := hset.finSent_of_closing (.inr (.inr hstate))
      exact absurd (hsent.symm.trans hopen) (by decide)
  | @finFirst pk' rest hq hfin hstate =>
      obtain rfl := Party.eq_head hpk hq
      obtain ⟨incs, slack, hW⟩ := hF hopen
      obtain ⟨rfl, hincs⟩ := hW.exact hstate
      have hpos := flight_pos hD.wellFormed hR.wellFormed (hD.answered hopen)
      rw [← hincs] at hpos
      refine window_fin (hW.congr ?_) hpos rfl rfl rfl nofun rfl
      rw [flight_fwd_append hout, flight_back_cons_of_not_isAck (Packet.isAck_of_isFin hfin)]
  | @finIgnored pk' rest hq hfin hstate₁ hstate₂ =>
      obtain rfl := Party.eq_head hpk hq
      obtain ⟨incs, slack, hW⟩ := hF hopen
      rw [List.append_nil]
      refine ⟨incs, slack, { hW with ends := ?_, exact := fun hest => absurd hest hstate₂ }⟩
      rw [← flight_back_cons_of_not_isAck (Packet.isAck_of_isFin hfin)]
      exact hW.ends

/-- The receiver handles a datagram. -/
theorem rcv_network (hF : Flow snd p (pk :: fwd) back) (hD : Dir snd p (pk :: fwd) back)
    (h : NetworkMove p uninit q out) (hpk : p.networkRecvQueue.head? = some pk) :
    Flow snd q fwd (back ++ out) := by
  intro hopen
  obtain ⟨incs, slack, hW⟩ := hF hopen
  refine ⟨incs, slack, hW.congr ?_⟩
  have hnofin : pk.isFin = false := by
    have hfins := hD.fins
    rw [hopen] at hfins
    by_contra hfin
    simp [(by simpa using hfin : pk.isFin = true)] at hfins
  cases h with
  | @data pk' rest hq hdata hmin hmax =>
      obtain rfl := Party.eq_head hpk hq
      refine flight_answer hdata (isAck_dataAck _ _ _) ?_ (ackedBytes_dataAck _ _ _)
      rw [Packet.header_mk]
      rfl
  | @ackLast pk' rest hq hack hstate =>
      obtain rfl := Party.eq_head hpk hq
      rw [List.append_nil, flight_fwd_cons_of_not_isData (Packet.isData_of_isAck hack)]
  | @ackFin pk' rest hq hack hstate =>
      obtain rfl := Party.eq_head hpk hq
      rw [List.append_nil, flight_fwd_cons_of_not_isData (Packet.isData_of_isAck hack)]
  | @ackWindow pk' rest hq hack hstate₁ hstate₂ =>
      obtain rfl := Party.eq_head hpk hq
      rw [List.append_nil, flight_fwd_cons_of_not_isData (Packet.isData_of_isAck hack)]
  | @finLast pk' rest hq hfin hstate =>
      obtain rfl := Party.eq_head hpk hq
      exact absurd (hnofin.symm.trans hfin) (by decide)
  | @finFirst pk' rest hq hfin hstate =>
      obtain rfl := Party.eq_head hpk hq
      exact absurd (hnofin.symm.trans hfin) (by decide)
  | @finIgnored pk' rest hq hfin hstate₁ hstate₂ =>
      obtain rfl := Party.eq_head hpk hq
      exact absurd (hnofin.symm.trans hfin) (by decide)

/-- The sender takes application data: the new segment and the slack before it make
one increment. -/
theorem snd_app (hF : Flow p rcv fwd back) (h : AppMove p uninit q out) :
    Flow q rcv (fwd ++ out) back := by
  intro hopen
  cases h with
  | @drain queue hne hqueue =>
      obtain ⟨incs, slack, hW⟩ := hF hopen
      rw [List.append_nil]
      exact ⟨incs, slack, { hW with }⟩
  | @send app queue sendWind hhead hqueue hpos hmss hwind hsend =>
      obtain ⟨incs, slack, hW⟩ := hF hopen
      have hfl : flight (fwd ++ [⟨(dataHeader p uninit).toBytes ++ app, .application⟩]) back =
          flight fwd back ++ [(p.left + BitVec.ofNat 32 app.length, app.length)] := by
        rw [flight_send (isData_dataHeader p uninit app .application), endSeq_dataHeader,
          Packet.payload_mk_append]
      have hsum : (incs ++ [slack + app.length]).sum + 0 = incs.sum + slack + app.length := by
        simp only [List.sum_append, List.sum_singleton]
        omega
      have hfits : incs.sum + slack + app.length ≤ windowSize := by
        rw [hW.sendWind, window_toInt] at hwind
        omega
      have hleft : p.left + BitVec.ofNat 32 app.length =
          p.initialSequenceNum + BitVec.ofNat 32 (incs.sum + slack + app.length) := by
        rw [hW.left, BitVec.add_assoc, ← BitVec.ofNat_add]
      refine ⟨incs ++ [slack + app.length], 0, ?_, ?_, ?_, ?_, Nat.zero_le _, fun hest => ?_, ?_⟩
      · rw [hfl, List.map_append, hW.ends, marks_append, ← Nat.add_assoc, ← hleft]
        rfl
      · rw [hsum]
        exact hleft
      · rw [hsum, ← window_shrink hfits, ← hW.sendWind]
        exact hsend
      · rw [hsum]
        exact hfits
      · obtain ⟨rfl, hincs⟩ := hW.exact hest
        refine ⟨rfl, ?_⟩
        rw [hfl, List.map_append, hincs, Nat.zero_add]
        rfl
      · dsimp only
        split
        · exact .inr ⟨rfl, by simp⟩
        · exact hW.chosen.imp_right fun hnet => ⟨hnet.1, by simp⟩

/-- The receiver sends segments other than acknowledgements. -/
theorem rcv_sends (hF : Flow snd p fwd back) (hout : ∀ r ∈ out, r.isAck = false) :
    Flow snd q fwd (back ++ out) := by
  intro hopen
  obtain ⟨incs, slack, hW⟩ := hF hopen
  exact ⟨incs, slack, hW.congr (flight_back_append hout)⟩

end Flow

/-! ## Runs -/

/-- No side handles a data segment while it has data of its own unacknowledged. -/
def HalfDuplex (s : Connection) : Action → Prop
  | .iterate i _ => ∀ pk ∈ (s.party i).next, pk.isData = true → (s.party i).unacked = 0
  | _ => True

instance decidableHalfDuplex (s : Connection) : ∀ a, Decidable (HalfDuplex s a)
  | .iterate i _ => inferInstanceAs (Decidable
      (∀ pk ∈ (s.party i).next, pk.isData = true → (s.party i).unacked = 0))
  | .mywrite .. | .myclose _ | .deliver _ => .isTrue trivial

section Runs

variable {s t : Connection} {i : Side} {uninit : BitVec 32} {q : Party} {out : List Packet}

/-- What neither side reads of a party may change. -/
theorem Flow.both_frame (hF : s.Both Flow)
    (hq : q.networkRecvQueue = (s.party i).networkRecvQueue)
    (hsnd : ∀ fwd back, Flow (s.party i) (s.party i.peer) fwd back →
      Flow q (s.party i.peer) fwd back) : (s.put i q []).Both Flow := by
  refine Connection.both_put_same hq ?_ ?_
  · rw [List.append_nil]
    exact hsnd _ _ (hF i)
  · rw [List.append_nil]
    exact hF.peer i

theorem Flow.both_wait (hF : s.Both Flow) (i : Side) :
    (s.put i (s.party i).waited []).Both Flow := by
  refine Flow.both_frame hF rfl fun _ _ hflow hopen => ?_
  obtain ⟨incs, slack, hW⟩ := hflow hopen
  exact ⟨incs, slack, { hW with }⟩

/-- A network move, in an iteration that meets the guard. -/
theorem Flow.both_network (hg : HalfDuplex s (.iterate i uninit)) {s₁ : Connection}
    (hdir : s₁.Both Dir) (hset : Settled (s₁.party i)) (hself : s₁.party i = (s.party i).waited)
    (hev : (s.party i).events.networkData = true) (hF : s₁.Both Flow)
    (hmove : NetworkMove (s₁.party i) uninit q out) : (s₁.put i q out).Both Flow := by
  obtain ⟨pk, hh⟩ := hmove.handled
  have hpk : (s₁.party i).networkRecvQueue.head? = some pk := by simp [hh.queue]
  have hhalf : pk.isData = true → (s₁.party i).unacked = 0 := by
    rw [hself] at hpk ⊢
    exact hg pk ((if_pos hev).trans hpk)
  have hsnd := hF i
  have hrcv := hF.peer i
  have hD := hdir i
  have hR := hdir.peer i
  rw [hh.chan] at hsnd hrcv hD hR
  exact Connection.both_put (hsnd.snd_network hD hR hset hhalf hmove hpk)
    (hrcv.rcv_network hR hmove hpk)

theorem Flow.both_app (hF : s.Both Flow) (hmove : AppMove (s.party i) uninit q out) :
    (s.put i q out).Both Flow := by
  refine Connection.both_put_same hmove.networkRecvQueue ((hF i).snd_app hmove) ?_
  refine (hF.peer i).rcv_sends fun r hr => ?_
  cases hmove with
  | drain => cases hr
  | send =>
      obtain rfl := List.mem_singleton.mp hr
      exact Packet.isAck_of_isData (isData_dataHeader _ _ _ _)

theorem Flow.iterate (hs : Sound s) (hF : s.Both Flow) (hg : HalfDuplex s (.iterate i uninit))
    (h : s.step (.iterate i uninit) = some t) : t.Both Flow := by
  refine iterate_rule hs h (Flow.both_wait hF i)
    (fun _ _ _ hdir hset hself hev hF₁ hmove =>
      Flow.both_network hg hdir hset hself hev hF₁ hmove)
    (fun _ _ _ _ _ hF₁ hmove => Flow.both_app hF₁ hmove) ?_
  · intro s₁ hin hev hF₁ hfin hempty
    refine Connection.both_put_same (close_networkRecvQueue _ _) ?_ ?_
    · rw [close_eq]
      exact nofun
    · refine (hF₁.peer i).rcv_sends fun r hr => ?_
      rw [close_eq] at hr
      obtain rfl := List.mem_singleton.mp hr
      exact Packet.isAck_of_isFin (isFin_finHeader _ _ _)

theorem Flow.step {a : Action} (hs : Sound s) (hF : s.Both Flow) (hg : HalfDuplex s a)
    (h : s.step a = some t) : t.Both Flow := by
  cases a with
  | mywrite i buf =>
      obtain ⟨-, rfl⟩ := Connection.step_mywrite h
      refine Flow.both_frame hF rfl fun _ _ hflow hopen => ?_
      obtain ⟨incs, slack, hW⟩ := hflow hopen
      exact ⟨incs, slack, { hW with }⟩
  | myclose i =>
      obtain ⟨-, rfl⟩ := Connection.step_myclose h
      refine Flow.both_frame hF rfl fun _ _ hflow hopen => ?_
      obtain ⟨incs, slack, hW⟩ := hflow hopen
      exact ⟨incs, slack, { hW with }⟩
  | deliver i =>
      obtain ⟨queue, hchan, hpeer, hself⟩ := Connection.deliver_chan h
      intro k
      rw [hchan, hchan]
      rcases Side.eq_or_eq_peer i k with rfl | rfl
      · rw [hself, hpeer]
        intro hopen
        obtain ⟨incs, slack, hW⟩ := hF k hopen
        exact ⟨incs, slack, { hW with }⟩
      · rw [hpeer]
        exact hF i.peer
  | iterate i uninit => exact Flow.iterate hs hF hg h

theorem flow_start (isn : Side → BitVec 32) : (Connection.start isn).Both Flow := by
  intro i _
  refine ⟨[], 0, ?_⟩
  constructor <;> simp [Connection.start, Connection.startParty, controlLoopEntry,
    Connection.chan, flight, marks, windowSize]

/-- A half-duplex run keeps the sequence variables in step with what is in flight. -/
theorem flow_exec {isn : Side → BitVec 32} {acts : List Action}
    (h : exec Connection.step (Connection.start isn) acts = some t)
    (hg : Guarded Connection.step HalfDuplex (Connection.start isn) acts) :
    Sound t ∧ t.Both Flow :=
  exec_invariant (P := fun s => Sound s ∧ s.Both Flow)
    (fun _ _ _ hs hga hstep => ⟨hs.1.step hstep, Flow.step hs.1 hs.2 hga hstep⟩)
    ⟨sound_start isn, flow_start isn⟩ hg h

end Runs

end NetworkStack.Stcp
