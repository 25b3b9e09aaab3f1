import NetworkStack.NetworkIo.Tcp

/-!
# The receive thread of a mysocket that does not listen

The thread polls the socket and the exit pipe, reads one packet at a time into a buffer of 1500
bytes and enqueues it; a result that is not positive makes it enqueue the empty buffer and end.
The peer may send any bytes. Two kinds of lengths lead the thread astray: zero, which looks
like the end of the stream, and more than the buffer holds, which the caller asserts not to get.
-/

namespace NetworkStack.NetworkIo

open Listen Stcp Transition

/-- The thread, with the datagrams it has enqueued. -/
structure RecvThread where
  ctx : Receiver
  queue : List (List Byte)
  status : Status

namespace RecvThread

/-- A round of `network_recv_thread_func` with input on the socket. Of `packet_buf` as many bytes
are enqueued as were read. -/
def networkRecvThreadFunc (s : RecvThread) : RecvThread :=
  let ((bytesRead, packet), ctx) := networkRecvPacket s.ctx maxIpPayloadLen
  if bytesRead ≤ 0 then { ctx := ctx, queue := s.queue ++ [[]], status := .left false }
  else if (maxIpPayloadLen : Int) < bytesRead then { s with ctx := ctx, status := .aborted }
  else { s with ctx := ctx, queue := s.queue ++ [packet.take bytesRead.toNat] }

/-- What `poll` reports: input on the socket, its end included, or the exit pipe. -/
inductive Act where
  | readable
  | exitPipe
  deriving DecidableEq, Repr

def step (s : RecvThread) (a : Act) : Option RecvThread :=
  if s.status = .running then
    match a with
    | .readable => some s.networkRecvThreadFunc
    | .exitPipe => some { s with status := .left true }
  else none

/-- The thread when it starts. -/
def start (ctx : Receiver) : RecvThread where
  ctx := ctx
  queue := []
  status := .running

end RecvThread

/-! ## What the thread is for -/

/-- The datagrams of a stream: the packets that are complete, without the empty ones, and each
up to what the buffer holds. -/
def datagrams : List Byte → List (List Byte)
  | hi :: lo :: rest =>
      if packetLen [hi, lo] ≤ rest.length then
        (if packetLen [hi, lo] = 0 then []
          else [rest.take (min (packetLen [hi, lo]) maxIpPayloadLen)]) ++
          datagrams (rest.drop (packetLen [hi, lo]))
      else []
  | _ => []
termination_by bytes => bytes.length
decreasing_by
  rw [List.length_drop, List.length_cons, List.length_cons]
  omega

/-- No assertion has failed; the queue has the first of the datagrams, and once the thread has
enqueued the mark, all of them and then the mark, with nothing of the stream left. -/
structure Delivers (expected : List (List Byte)) (s : RecvThread) : Prop where
  noAbort : s.status ≠ .aborted
  initial : s.status ≠ .left false → s.queue <+: expected
  atEnd : s.status = .left false → s.queue = expected ++ [[]] ∧ stream s.ctx.chunks = []

/-- A length of zero is the last of the stream, and behind a length above 1500 are fewer bytes
than 1500. -/
def Tame : List Byte → Prop
  | hi :: lo :: rest =>
      if packetLen [hi, lo] = 0 then rest = []
      else if packetLen [hi, lo] ≤ maxIpPayloadLen then
        packetLen [hi, lo] ≤ rest.length → Tame (rest.drop (packetLen [hi, lo]))
      else rest.length < maxIpPayloadLen
  | _ => True
termination_by bytes => bytes.length
decreasing_by
  rw [List.length_drop, List.length_cons, List.length_cons]
  omega

theorem length_of_mem_datagrams {bytes d : List Byte} (h : d ∈ datagrams bytes) :
    1 ≤ d.length ∧ d.length ≤ maxIpPayloadLen := by
  fun_induction datagrams bytes with
  | case1 hi lo rest hle ih =>
      rcases List.mem_append.mp h with h | h
      · split at h
        · cases h
        · obtain rfl := List.mem_singleton.mp h
          rw [List.length_take]
          unfold maxIpPayloadLen
          omega
      · exact ih h
  | case2 => cases h
  | case3 => cases h

/-! ## One round -/

/-- The length in front of a packet that is longer than the buffer is what the call returns. -/
theorem recvBody_long {len maxLen : Nat} {chunks : List (List Byte)} (atEnd : Int)
    (hmax : 0 < maxLen) (hlong : maxLen < len) (h : maxLen ≤ (stream chunks).length) :
    ∃ dst rest, recvBody atEnd len maxLen chunks = ((len : Int), dst, rest) := by
  unfold recvBody
  rw [Nat.min_eq_right hlong.le]
  obtain ⟨-, hlt⟩ | ⟨rest, hread, -, -⟩ := tcpIo_eq chunks maxLen
  · omega
  · simp only [hread]
    rw [if_neg (by omega), if_pos hlong]
    exact ⟨_, _, rfl⟩

theorem recvBody_zero {maxLen : Nat} {chunks : List (List Byte)} (atEnd : Int) :
    recvBody atEnd 0 maxLen chunks = (0, [], chunks) := by
  unfold recvBody
  rw [Nat.zero_min]
  cases chunks <;> rfl

/-- The bytes in front of a packet have arrived. -/
theorem networkRecvPacket_header {ctx : Receiver} (hready : ctx.Ready) {hi lo : Byte}
    {rest : List Byte} (h : stream ctx.chunks = hi :: lo :: rest) (maxLen : Nat) :
    ∃ tcp chunks, (ctx.isActive = true → tcp.Succeeds) ∧ stream chunks = rest ∧
      networkRecvPacket ctx maxLen =
        let (rc, dst, chunks') := recvBody ctx.atEnd (packetLen [hi, lo]) maxLen chunks
        ((rc, dst), { ctx with tcp := tcp, chunks := chunks' }) := by
  obtain ⟨tcp, htcp, hrecv⟩ := networkRecvPacket_ready hready maxLen
  obtain ⟨-, hlt⟩ | ⟨chunks, hread, hrest, -⟩ := tcpIo_eq ctx.chunks 2
  · rw [h, List.length_cons, List.length_cons] at hlt
    omega
  · rw [h] at hread hrest
    refine ⟨tcp, chunks, htcp, hrest, ?_⟩
    rw [hrecv, hread]
    rfl

namespace RecvThread

variable {s : RecvThread} {hi lo : Byte} {rest : List Byte}

/-- The thread has enqueued the mark and ended. -/
def Ended (s t : RecvThread) : Prop := t.status = .left false ∧ t.queue = s.queue ++ [[]]

/-- What a round makes of the result of `_network_recv_packet`. -/
theorem round_ended {r : Int} {dst : List Byte} {ctx : Receiver}
    (h : networkRecvPacket s.ctx maxIpPayloadLen = ((r, dst), ctx)) (hr : r ≤ 0) :
    Ended s s.networkRecvThreadFunc ∧ s.networkRecvThreadFunc.ctx = ctx := by
  have hround : s.networkRecvThreadFunc =
      { ctx := ctx, queue := s.queue ++ [[]], status := .left false } := by
    simp only [networkRecvThreadFunc, h, if_pos hr]
  rw [hround]
  exact ⟨⟨rfl, rfl⟩, rfl⟩

theorem round_short (hready : s.ctx.Ready) (h : (stream s.ctx.chunks).length < 2) :
    Ended s s.networkRecvThreadFunc ∧ stream s.networkRecvThreadFunc.ctx.chunks = [] := by
  obtain ⟨tcp, -, hrecv⟩ := networkRecvPacket_ready hready maxIpPayloadLen
  obtain ⟨hnone, -⟩ | ⟨-, -, -, hle⟩ := tcpIo_eq s.ctx.chunks 2
  · rw [hnone] at hrecv
    obtain ⟨hend, hctx⟩ := round_ended hrecv s.ctx.atEnd_le
    exact ⟨hend, by rw [hctx]; rfl⟩
  · omega

section Header

variable (hready : s.ctx.Ready) (h : stream s.ctx.chunks = hi :: lo :: rest)

include hready h

/-- A length of zero ends the thread, with everything behind it unread. -/
theorem round_zero (hlen : packetLen [hi, lo] = 0) :
    Ended s s.networkRecvThreadFunc ∧ stream s.networkRecvThreadFunc.ctx.chunks = rest := by
  obtain ⟨tcp, chunks, -, hrest, hrecv⟩ := networkRecvPacket_header hready h maxIpPayloadLen
  rw [hlen, recvBody_zero] at hrecv
  obtain ⟨hend, hctx⟩ := round_ended hrecv le_rfl
  exact ⟨hend, by rw [hctx]; exact hrest⟩

/-- A packet that is cut off is the end. -/
theorem round_missing (hlen : rest.length < min (packetLen [hi, lo]) maxIpPayloadLen) :
    Ended s s.networkRecvThreadFunc ∧ stream s.networkRecvThreadFunc.ctx.chunks = [] := by
  obtain ⟨tcp, chunks, -, hrest, hrecv⟩ := networkRecvPacket_header hready h maxIpPayloadLen
  rw [recvBody_missing _ (by rw [hrest]; exact hlen)] at hrecv
  obtain ⟨hend, hctx⟩ := round_ended hrecv s.ctx.atEnd_le
  exact ⟨hend, by rw [hctx]; rfl⟩

/-- A packet that fits is enqueued. -/
theorem round_fits (hpos : 1 ≤ packetLen [hi, lo]) (hle : packetLen [hi, lo] ≤ maxIpPayloadLen)
    (hlen : packetLen [hi, lo] ≤ rest.length) :
    s.networkRecvThreadFunc.status = s.status ∧ s.networkRecvThreadFunc.ctx.Ready ∧
      s.networkRecvThreadFunc.queue = s.queue ++ [rest.take (packetLen [hi, lo])] ∧
      stream s.networkRecvThreadFunc.ctx.chunks = rest.drop (packetLen [hi, lo]) := by
  obtain ⟨tcp, chunks, htcp, hrest, hrecv⟩ := networkRecvPacket_header hready h maxIpPayloadLen
  obtain ⟨chunks', hbody, hmore⟩ := recvBody_eq s.ctx.atEnd hpos hle (by rw [hrest]; exact hlen)
  rw [hbody] at hrecv
  rw [hrest] at hrecv hmore
  simp only [networkRecvThreadFunc, hrecv]
  rw [if_neg (by omega), if_neg (by omega)]
  refine ⟨rfl, htcp, ?_, hmore⟩
  rw [Int.toNat_natCast, List.take_take, Nat.min_self]

/-- A longer packet fails the assertion. -/
theorem round_long (hlong : maxIpPayloadLen < packetLen [hi, lo])
    (hlen : maxIpPayloadLen ≤ rest.length) : s.networkRecvThreadFunc.status = .aborted := by
  obtain ⟨tcp, chunks, -, hrest, hrecv⟩ := networkRecvPacket_header hready h maxIpPayloadLen
  obtain ⟨dst, chunks', hbody⟩ :=
    recvBody_long s.ctx.atEnd (by decide) hlong (by rw [hrest]; exact hlen)
  rw [hbody] at hrecv
  simp only [networkRecvThreadFunc, hrecv]
  rw [if_neg (by omega), if_pos (by omega)]

end Header

/-! ## Every run -/

/-- Whatever happens the datagrams are delivered, and with enough input the thread comes to the
end of the stream. -/
def Correct (s : RecvThread) (expected : List (List Byte)) : Prop :=
  (∀ acts t, exec step s acts = some t → Delivers expected t) ∧
    ∃ n t, exec step s (List.replicate n .readable) = some t ∧ t.status = .left false

theorem step_readable (hrun : s.status = .running) :
    s.step .readable = some s.networkRecvThreadFunc := if_pos hrun

/-- A thread that was left takes no more steps. -/
theorem exec_stopped (hstop : s.status ≠ .running) {acts : List Act} {t : RecvThread}
    (h : exec step s acts = some t) : t = s := by
  cases acts with
  | nil => exact (Option.some.inj h).symm
  | cons a acts =>
      obtain ⟨u, hu, -⟩ := exec_cons.mp h
      rw [step.eq_def, if_neg hstop] at hu
      cases hu

/-- The runs of a thread are those of its next round, and those that the exit pipe ends. -/
theorem forall_exec_iff (hrun : s.status = .running) {P : RecvThread → Prop} :
    (∀ acts t, exec step s acts = some t → P t) ↔
      P s ∧ P { s with status := .left true } ∧
        ∀ acts t, exec step s.networkRecvThreadFunc acts = some t → P t := by
  have hexit : s.step .exitPipe = some { s with status := .left true } := if_pos hrun
  constructor
  · intro h
    refine ⟨h [] s rfl, h [.exitPipe] _ (exec_cons.mpr ⟨_, hexit, rfl⟩), fun acts t ht => ?_⟩
    exact h (.readable :: acts) t (exec_cons.mpr ⟨_, step_readable hrun, ht⟩)
  · rintro ⟨hs, hleft, hround⟩ acts t ht
    cases acts with
    | nil => exact Option.some.inj ht ▸ hs
    | cons a acts =>
        obtain ⟨u, hu, ht⟩ := exec_cons.mp ht
        cases a with
        | readable =>
            obtain rfl := Option.some.inj ((step_readable hrun).symm.trans hu)
            exact hround acts t ht
        | exitPipe =>
            obtain rfl := Option.some.inj (hexit.symm.trans hu)
            exact exec_stopped (by simp) ht ▸ hleft

variable {expected : List (List Byte)}

theorem delivers_running (hrun : s.status = .running) (h : s.queue <+: expected) :
    Delivers expected s ∧ Delivers expected { s with status := .left true } := by
  constructor
  · exact ⟨by simp [hrun], fun _ => h, by simp [hrun]⟩
  · exact ⟨by simp, fun _ => h, by simp⟩

/-- A thread does as well as it does from its next round on. -/
theorem correct_iff_round (hrun : s.status = .running) (h : s.queue <+: expected) :
    Correct s expected ↔ Correct s.networkRecvThreadFunc expected := by
  obtain ⟨hs, hleft⟩ := delivers_running hrun h
  unfold Correct
  rw [forall_exec_iff hrun, and_iff_right hs, and_iff_right hleft]
  refine and_congr_right fun _ => ?_
  constructor
  · rintro ⟨n, t, ht, hend⟩
    cases n with
    | zero =>
        obtain rfl := Option.some.inj ht
        rw [hrun] at hend
        cases hend
    | succ n =>
        obtain ⟨u, hu, ht⟩ := exec_cons.mp ht
        obtain rfl := Option.some.inj ((step_readable hrun).symm.trans hu)
        exact ⟨n, t, ht, hend⟩
  · rintro ⟨n, t, ht, hend⟩
    exact ⟨n + 1, t, exec_cons.mpr ⟨_, step_readable hrun, ht⟩, hend⟩

/-- A thread whose next round is the last is right if there is nothing more to deliver. -/
theorem correct_iff_ended (hrun : s.status = .running) (h : Ended s s.networkRecvThreadFunc)
    (more : List (List Byte)) :
    Correct s (s.queue ++ more) ↔ more = [] ∧ stream s.networkRecvThreadFunc.ctx.chunks = [] := by
  obtain ⟨hstatus, hqueue⟩ := h
  obtain ⟨hs, hleft⟩ := delivers_running hrun (List.prefix_append s.queue more)
  have hlive : ∃ n t, exec step s (List.replicate n .readable) = some t ∧ t.status = .left false :=
    ⟨1, _, exec_cons.mpr ⟨_, step_readable hrun, rfl⟩, hstatus⟩
  have hlast : (∀ acts t, exec step s.networkRecvThreadFunc acts = some t →
      Delivers (s.queue ++ more) t) ↔ Delivers (s.queue ++ more) s.networkRecvThreadFunc := by
    refine ⟨fun h => h [] _ rfl, fun h acts t ht => ?_⟩
    rw [exec_stopped (by simp [hstatus]) ht]
    exact h
  rw [Correct, and_iff_left hlive, forall_exec_iff hrun, and_iff_right hs, and_iff_right hleft,
    hlast]
  constructor
  · intro hdel
    obtain ⟨hall, hempty⟩ := hdel.atEnd hstatus
    rw [hqueue] at hall
    exact ⟨by simpa using hall, hempty⟩
  · rintro ⟨rfl, hempty⟩
    refine ⟨by simp [hstatus], fun hne => absurd hstatus hne, fun _ => ⟨?_, hempty⟩⟩
    rw [hqueue, List.append_nil]

theorem not_correct_of_aborted (hrun : s.status = .running)
    (h : s.networkRecvThreadFunc.status = .aborted) : ¬Correct s expected := by
  rintro ⟨hall, -⟩
  exact (((forall_exec_iff hrun).mp hall).2.2 [] _ rfl).noAbort h

/-- From any state in which the thread runs, all goes well exactly if what is left of the stream
is tame. -/
theorem correct_iff_tame (hrun : s.status = .running) (hready : s.ctx.Ready) :
    Correct s (s.queue ++ datagrams (stream s.ctx.chunks)) ↔ Tame (stream s.ctx.chunks) := by
  generalize hbytes : stream s.ctx.chunks = bytes
  induction bytes using Tame.induct generalizing s with
  | case1 hi lo rest hlen =>
      -- nothing may be left behind a length of zero
      obtain ⟨hend, hleft⟩ := round_zero hready hbytes hlen
      rw [correct_iff_ended hrun hend, hleft, Tame]
      simp only [if_pos hlen]
      refine ⟨fun h => h.2, ?_⟩
      rintro rfl
      refine ⟨?_, rfl⟩
      rw [datagrams]
      simp [hlen, datagrams]
  | case2 hi lo rest hpos hle ih =>
      have hexp : datagrams (hi :: lo :: rest) =
          if packetLen [hi, lo] ≤ rest.length then
            rest.take (packetLen [hi, lo]) :: datagrams (rest.drop (packetLen [hi, lo]))
          else [] := by
        rw [datagrams]
        simp only [if_neg hpos, min_eq_left hle, List.singleton_append]
      rw [Tame]
      simp only [if_neg hpos, if_pos hle]
      by_cases hlen : packetLen [hi, lo] ≤ rest.length
      · obtain ⟨hstatus, hready', hqueue, hrest⟩ :=
          round_fits hready hbytes (Nat.pos_of_ne_zero hpos) hle hlen
        have hnext := ih hlen (hstatus.trans hrun) hready' hrest
        rw [hqueue, List.append_assoc, List.singleton_append] at hnext
        rw [hexp, if_pos hlen, correct_iff_round hrun (List.prefix_append _ _), hnext]
        exact ⟨fun h _ => h, fun h => h hlen⟩
      · obtain ⟨hend, hleft⟩ := round_missing hready hbytes (by omega)
        rw [hexp, if_neg hlen, correct_iff_ended hrun hend]
        exact iff_of_true ⟨rfl, hleft⟩ fun h => absurd h hlen
  | case3 hi lo rest hpos hlong =>
      rw [Tame]
      simp only [if_neg hpos, if_neg hlong]
      by_cases hlen : rest.length < maxIpPayloadLen
      · obtain ⟨hend, hleft⟩ := round_missing hready hbytes (by omega)
        have hexp : datagrams (hi :: lo :: rest) = [] := by
          rw [datagrams]
          exact if_neg (by omega)
        rw [hexp, correct_iff_ended hrun hend]
        exact iff_of_true ⟨rfl, hleft⟩ hlen
      · refine iff_of_false (not_correct_of_aborted hrun ?_) hlen
        exact round_long hready hbytes (by omega) (by omega)
  | case4 bytes hshort =>
      have hlen : bytes.length < 2 := by
        match bytes, hshort with
        | [], _ => exact Nat.zero_lt_two
        | [b], _ => exact Nat.one_lt_two
        | hi :: lo :: rest, hshort => exact absurd rfl (hshort hi lo rest)
      obtain ⟨hend, hleft⟩ := round_short hready (by rw [hbytes]; exact hlen)
      rw [datagrams.eq_2 bytes hshort, Tame.eq_2 bytes hshort, correct_iff_ended hrun hend]
      exact iff_of_true ⟨rfl, hleft⟩ trivial

/-- On every stream that the peer may send, the thread enqueues the datagrams of the stream and
then the mark exactly if the stream is tame. -/
theorem recvThread_correct_iff {ctx : Receiver} (hready : ctx.Ready) :
    Correct (start ctx) (datagrams (stream ctx.chunks)) ∧
      (∀ d ∈ datagrams (stream ctx.chunks), 1 ≤ d.length ∧ d.length ≤ maxIpPayloadLen) ↔
        Tame (stream ctx.chunks) := by
  rw [and_iff_left fun d => length_of_mem_datagrams]
  exact @correct_iff_tame (start ctx) rfl hready

/-- A connection over which these chunks come. -/
def receiving (chunks : List (List Byte)) : Receiver where
  isActive := false
  tcp := { connected := true, connect := 0 }
  chunks := chunks
  reset := false

theorem recvThread_correct_cutOff :
    Correct (start (receiving [[0, 2, 7], [8, 0], [3, 9]])) [[7, 8]] := by
  have hdatagrams : datagrams (stream [[0, 2, 7], [8, 0], [3, 9]]) = [[7, 8]] := by
    simp [stream, datagrams, packetLen, maxIpPayloadLen]
  have htame : Tame (stream [[0, 2, 7], [8, 0], [3, 9]]) := by
    simp [stream, Tame, packetLen, maxIpPayloadLen]
  have hready : (receiving [[0, 2, 7], [8, 0], [3, 9]]).Ready := by simp [Receiver.Ready, receiving]
  have hiff := recvThread_correct_iff hready
  exact hdatagrams ▸ (hiff.mpr htame).1

/-- An empty packet in front of another one makes the thread end with the other one unread, and
a packet of 1501 bytes fails its assertion. -/
theorem recvThread_hostile :
    (∃ t, exec step (start (receiving [[0, 0], [0, 1, 7]])) [.readable] = some t ∧
      t.queue = [[]] ∧ t.status = .left false ∧ datagrams [0, 0, 0, 1, 7] = [[7]]) ∧
    ∃ t, exec step (start (receiving [[5, 221], List.replicate 1501 1])) [.readable] = some t ∧
      t.status = .aborted := by
  refine ⟨⟨_, rfl, by decide, by decide, ?_⟩, _, rfl, by decide +kernel⟩
  simp [datagrams, packetLen, maxIpPayloadLen]

end RecvThread

end NetworkStack.NetworkIo
