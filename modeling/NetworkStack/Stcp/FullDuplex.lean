import Mathlib.Data.List.Chain
import NetworkStack.Stcp.Delivery

/-!
# Sequence variables under full-duplex traffic

`InSequence` is what the sequence variables are for: the distance between them is
the number of bytes in flight, the window is the rest, and data segments follow on
one another. Handling data moves `left` back onto the base, and sending a FIN moves
it ahead without payload, so a run keeps it as long as it avoids these: `InStep`.
-/

namespace NetworkStack.Stcp

open Transition

/-- No side handles data with data of its own in flight, sends data after handling
data since its last segment, or starts to close. -/
def InStep (s : Connection) : Action → Prop
  | .iterate i _ =>
      (∀ pk ∈ (s.party i).next, pk.isData = true → (s.party i).unacked = 0) ∧
      ((s.party i).events.appData = true → (s.party i).appRecvQueue.head? ≠ some [] →
        (s.party i).dataSent ≠ [] →
        (s.party i).dataSince = false ∧ ∀ pk ∈ (s.party i).next, pk.isData = false) ∧
      (s.party i).events.appCloseRequested = false
  | _ => True

instance decidableInStep (s : Connection) : ∀ a, Decidable (InStep s a)
  | .iterate i _ => inferInstanceAs (Decidable
      ((∀ pk ∈ (s.party i).next, pk.isData = true → (s.party i).unacked = 0) ∧
      ((s.party i).events.appData = true → (s.party i).appRecvQueue.head? ≠ some [] →
        (s.party i).dataSent ≠ [] →
        (s.party i).dataSince = false ∧ ∀ pk ∈ (s.party i).next, pk.isData = false) ∧
      (s.party i).events.appCloseRequested = false))
  | .mywrite .. | .myclose _ | .deliver _ => .isTrue trivial

/-- The sequence variables of a side account for its data. -/
structure InSequence (t : Connection) (i : Side) : Prop where
  /-- The distance is what was sent and not acknowledged. -/
  distance : (t.party i).left - (t.party i).initialSequenceNum =
    BitVec.ofNat 32 (t.party i).unacked
  window : (t.party i).sendWind.toInt = windowSize - (t.party i).unacked
  range : 0 ≤ (t.party i).sendWind.toInt ∧ (t.party i).sendWind.toInt ≤ windowSize
  /-- Each data segment starts where the one before it ended. -/
  contiguous : (t.party i).dataSent.IsChain fun a b => b.1 = a.1 + BitVec.ofNat 32 a.2
  lengths : ∀ seg ∈ (t.party i).dataSent, 0 < seg.2 ∧ seg.2 ≤ stcpMss
  byteSends : ∀ n ∈ (t.party i).byteSends, 0 ≤ n ∧ n ≤ stcpMss
  /-- A side that is woken completes its iteration. -/
  enabled : ∀ uninit, InStep t (.iterate i uninit) → (t.party i).done = false →
    (t.party i).events.nonzero = true → ∃ t', t.step (.iterate i uninit) = some t'

theorem InStep.halfDuplex {s : Connection} {a : Action} (h : InStep s a) : HalfDuplex s a := by
  cases a with
  | iterate i uninit => exact h.1
  | _ => trivial

/-- The record of the segments sent, up to `left`. -/
structure Contiguous (p : Party) : Prop where
  chain : p.dataSent.IsChain fun a b => b.1 = a.1 + BitVec.ofNat 32 a.2
  last : p.dataSince = false → ∀ seg ∈ p.dataSent.getLast?,
    p.left = seg.1 + BitVec.ofNat 32 seg.2
  lengths : ∀ seg ∈ p.dataSent, 0 < seg.2 ∧ seg.2 ≤ stcpMss
  byteSends : ∀ n ∈ p.byteSends, 0 ≤ n ∧ n ≤ stcpMss
  finSent : p.finSent = false

theorem Contiguous.app {p q : Party} {uninit : BitVec 32} {out : List Packet}
    (hp : Contiguous p) (hwind : 0 ≤ p.sendWind.toInt)
    (hsend : p.appRecvQueue.head? ≠ some [] → p.dataSent ≠ [] → p.dataSince = false)
    (h : AppMove p uninit q out) : Contiguous q := by
  have hbytes : ∀ n ∈ p.byteSends ++ [min p.sendWind.toInt (stcpMss : Int)],
      0 ≤ n ∧ n ≤ stcpMss := by
    intro n hn
    rcases List.mem_append.mp hn with hn | hn
    · exact hp.byteSends n hn
    · obtain rfl := List.mem_singleton.mp hn
      exact ⟨le_min hwind (by decide), min_le_right _ _⟩
  cases h with
  | drain => exact { hp with byteSends := hbytes }
  | @send app queue sendWind hhead hqueue hpos hmss hwind' hsend' =>
      refine { chain := ?_, last := ?_, lengths := ?_, byteSends := hbytes, finSent := hp.finSent }
      · refine List.isChain_append.mpr ⟨hp.chain, List.isChain_singleton _, ?_⟩
        intro a ha b hb
        obtain rfl : (p.left, app.length) = b := by simpa using hb
        have hne : p.dataSent ≠ [] := by
          intro hnil
          simp [hnil] at ha
        exact hp.last (hsend hhead hne) a ha
      · intro _ seg hseg
        obtain rfl : (p.left, app.length) = seg := by simpa using hseg
        rfl
      · intro seg hseg
        rcases List.mem_append.mp hseg with hseg | hseg
        · exact hp.lengths seg hseg
        · obtain rfl := List.mem_singleton.mp hseg
          exact ⟨hpos, hmss⟩

/-- Of the datagrams, an acknowledgement leaves `left` alone. -/
theorem NetworkMove.left_of_isAck {p q : Party} {uninit : BitVec 32} {out : List Packet}
    {pk : Packet} (h : NetworkMove p uninit q out) (hpk : p.networkRecvQueue.head? = some pk)
    (hack : pk.isAck = true) : q.left = p.left := by
  cases h with
  | @data pk' rest hq hdata hmin hmax =>
      obtain rfl := Party.eq_head hpk hq
      simp [Packet.isAck_of_isData hdata] at hack
  | @finFirst pk' rest hq hfin hstate =>
      obtain rfl := Party.eq_head hpk hq
      simp [Packet.isAck_of_isFin hfin] at hack
  | _ => rfl

/-- Handling data is on record, and handling an acknowledgement moves nothing. -/
theorem Contiguous.network {p q : Party} {uninit : BitVec 32} {out : List Packet}
    (hp : Contiguous p) (hfin : ∀ pk ∈ p.networkRecvQueue.head?, pk.isFin = false)
    (h : NetworkMove p uninit q out) : Contiguous q := by
  obtain ⟨pk, hh⟩ := h.handled
  have hpk : p.networkRecvQueue.head? = some pk := by simp [hh.queue]
  refine ⟨?_, fun hsince => ?_, ?_, ?_, ?_⟩
  · rw [hh.dataSent]
    exact hp.chain
  · rw [hh.dataSince, Bool.or_eq_false_iff] at hsince
    have hack : pk.isAck = true := by
      have hnofin := hfin pk hpk
      simpa [Packet.isData, hnofin] using hsince.2
    rw [hh.dataSent, h.left_of_isAck hpk hack]
    exact hp.last hsince.1
  · rw [hh.dataSent]
    exact hp.lengths
  · rw [hh.byteSends]
    exact hp.byteSends
  · rw [hh.finSent]
    exact hp.finSent

section Runs

variable {s t : Connection} {i : Side} {uninit : BitVec 32}

/-- While no side has sent a FIN, none is on its way and both are established. -/
theorem no_fin (hs : s.Both Dir) (hopen : ∀ k, (s.party k).finSent = false) (k : Side) :
    (∀ pk ∈ s.chan k, pk.isFin = false) ∧ (s.party k).finReceived = false := by
  have hfins := (hs.peer k).fins
  rw [hopen] at hfins
  simp only [Bool.toNat_false, Nat.add_eq_zero_iff, List.countP_eq_zero,
    Bool.toNat_eq_zero] at hfins
  simpa using hfins

theorem Contiguous.iterate (hs : Sound s) (hF : s.Both Flow)
    (hC : ∀ k, Contiguous (s.party k)) (hg : InStep s (.iterate i uninit))
    (h : s.step (.iterate i uninit) = some t) : ∀ k, Contiguous (t.party k) := by
  obtain ⟨hdata, hsend, hclose⟩ := hg
  have hrule := iterate_rule (P := fun s₁ => s₁.Both Flow ∧ ∀ k, Contiguous (s₁.party k)) hs h
    ⟨Flow.both_wait hF i, forall_put hC { hC i with }⟩
  refine (hrule ?_ ?_ ?_).2
  · rintro s₁ q out hdir hset hself hev ⟨hF₁, hC₁⟩ hmove
    refine ⟨Flow.both_network hdata hdir hset hself hev hF₁ hmove, forall_put hC₁ ?_⟩
    refine (hC₁ i).network (fun pk hpk => ?_) hmove
    refine (no_fin hdir (fun k => (hC₁ k).finSent) i).1 pk ?_
    exact List.mem_append_left _ (List.mem_of_head? hpk)
  · rintro s₁ q out hin hev ⟨hF₁, hC₁⟩ hmove
    have hflow : (s₁.put i q out).Both Flow := Flow.both_app hF₁ hmove
    refine ⟨hflow, forall_put hC₁ ((hC₁ i).app ?_ (fun hhead hne => ?_) hmove)⟩
    · obtain ⟨incs, slack, hW⟩ := hF₁ i (hC₁ i).finSent
      rw [hW.sendWind, Flow.window_toInt]
      exact Int.natCast_nonneg _
    · obtain ⟨out₁, ⟨hnet, hmove₁⟩ | ⟨-, hself, -⟩⟩ := hin.network
      · obtain ⟨pk, hh⟩ := hmove₁.handled
        rw [hh.appRecvQueue] at hhead
        rw [hh.dataSent] at hne
        have hnext : (s.party i).next = some pk := by
          have hq : (s.party i).networkRecvQueue = pk :: _ := hh.queue
          simp [Party.next, hnet, hq]
        obtain ⟨hsince, hnodata⟩ := hsend hev hhead hne
        rw [hh.dataSince, hnodata pk hnext, Bool.or_false]
        exact hsince
      · rw [hself] at hhead hne ⊢
        exact (hsend hev hhead hne).1
  · intro s₁ _ hev
    rw [hclose] at hev
    cases hev

theorem Contiguous.step {a : Action} (hs : Sound s) (hF : s.Both Flow)
    (hC : ∀ k, Contiguous (s.party k)) (hg : InStep s a) (h : s.step a = some t) :
    ∀ k, Contiguous (t.party k) := by
  cases a with
  | mywrite i buf =>
      obtain ⟨-, rfl⟩ := Connection.step_mywrite h
      exact forall_put hC { hC i with }
  | myclose i =>
      obtain ⟨-, rfl⟩ := Connection.step_myclose h
      exact forall_put hC { hC i with }
  | deliver i =>
      obtain ⟨queue, -, hpeer, hself⟩ := Connection.deliver_chan h
      intro k
      rcases Side.eq_or_eq_peer i k with rfl | rfl
      · rw [hself]
        exact { hC k with }
      · rw [hpeer]
        exact hC _
  | iterate i uninit => exact Contiguous.iterate hs hF hC hg h

/-- Established, with the window exact, a side is in sequence. -/
theorem inSequence_of_flow (hs : Sound s) (hF : s.Both Flow)
    (hC : ∀ k, Contiguous (s.party k)) (k : Side) : InSequence s k := by
  have hrec := (no_fin hs.dir (fun k => (hC k).finSent) k).2
  have hest := (hs.coherent k).toSettled.established_of_open (hC k).finSent hrec
  obtain ⟨incs, slack, hW⟩ := hF k (hC k).finSent
  obtain ⟨rfl, hincs⟩ := hW.exact hest
  have hsum : incs.sum + 0 = (s.party k).unacked := by
    rw [hincs, flight_sum, Nat.add_zero, ← (hs.dir k).account]
  have hwind : (s.party k).sendWind.toInt = ((windowSize - (s.party k).unacked : Nat) : Int) := by
    rw [hW.sendWind, hsum, Flow.window_toInt]
  have hfits := hW.fits
  rw [hsum] at hfits
  refine ⟨?_, by omega, by omega, (hC k).chain, (hC k).lengths, (hC k).byteSends,
    fun uninit hg => iterate_defined hs hF hg.halfDuplex⟩
  rw [hW.left, hsum, BitVec.add_comm, BitVec.add_sub_cancel]

end Runs

theorem contiguous_start (isn : Side → BitVec 32) (k : Side) :
    Contiguous ((Connection.start isn).party k) := by
  constructor <;> simp [Connection.start, Connection.startParty]

/-- A run whose steps avoid the three situations keeps both sides in sequence. -/
theorem inSequence_of_inStep {isn : Side → BitVec 32} {acts : List Action} {t : Connection}
    (h : exec Connection.step (Connection.start isn) acts = some t)
    (hg : Guarded Connection.step InStep (Connection.start isn) acts) (i : Side) :
    InSequence t i := by
  have hinv : (Sound t ∧ t.Both Flow) ∧ ∀ k, Contiguous (t.party k) :=
    exec_invariant (P := fun s => (Sound s ∧ s.Both Flow) ∧ ∀ k, Contiguous (s.party k))
      (fun s a u hs hga hstep =>
        ⟨⟨hs.1.1.step hstep, Flow.step hs.1.1 hs.1.2 hga.halfDuplex hstep⟩,
          Contiguous.step hs.1.1 hs.1.2 hs.2 hga hstep⟩)
      ⟨⟨sound_start isn, flow_start isn⟩, contiguous_start isn⟩ hg h
  exact inSequence_of_flow hinv.1.1 hinv.1.2 hinv.2 i

/-- Two bytes and their acknowledgement, and then a byte the other way, whose acknowledgement is
still under way. -/
def bothWays : List Action :=
  [.mywrite .active [1, 2], .iterate .active 0, .deliver .passive, .iterate .passive 0,
    .deliver .active, .iterate .active 0, .mywrite .passive [3], .iterate .passive 0,
    .deliver .active, .iterate .active 0]

theorem inSequence_bothWays :
    ∃ t, exec Connection.step (Connection.start fun _ => 0) bothWays = some t ∧
      ∀ i, InSequence t i := by
  have hsome : (exec Connection.step (Connection.start fun _ => 0) bothWays).isSome = true := by
    decide +kernel
  obtain ⟨t, ht⟩ := Option.isSome_iff_exists.mp hsome
  exact ⟨t, ht, inSequence_of_inStep ht (by decide +kernel)⟩

/-- Both sides write before either has heard from the other. -/
def crossingWrites : List Action :=
  [.mywrite .active [1, 2], .iterate .active 0, .mywrite .passive [1], .iterate .passive 0,
    .deliver .active, .iterate .active 0]

/-- Two bytes are in flight and the distance is zero. -/
theorem not_inSequence_crossingWrites :
    ∃ t, exec Connection.step (Connection.start fun _ => 0) crossingWrites = some t ∧
      ¬InSequence t .active := by
  have hrun : (exec Connection.step (Connection.start fun _ => 0) crossingWrites).map
      (fun t => ((t.party .active).left - (t.party .active).initialSequenceNum,
        (t.party .active).unacked)) = some (0, 2) := by decide +kernel
  obtain ⟨t, ht, hvals⟩ := Option.map_eq_some_iff.mp hrun
  obtain ⟨hdist, hunacked⟩ := Prod.mk.inj hvals
  refine ⟨t, ht, fun hseq => ?_⟩
  have hzero := hseq.distance
  rw [hdist, hunacked] at hzero
  exact absurd hzero (by decide)

end NetworkStack.Stcp
