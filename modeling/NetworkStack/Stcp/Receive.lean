import NetworkStack.Stcp.Moves

/-!
# The buffer of the network branch

`control_loop` receives a datagram into a buffer of 556 bytes. `stcp_network_recv` stores no more
than that but returns the length of the whole datagram, and the branch for data takes 20 from it
without a test. So the branch keeps to the bytes that it has received only for datagrams of the
lengths that a well-behaved peer sends.
-/

namespace NetworkStack.Stcp

variable {e : Endpoint} {packet : Packet} {next : List Packet} {uninit : BitVec 32}

/-- `sizeof(buf)` in the network branch. -/
def recvBufLen : Nat := headerLen + stcpMss

/-- `n1-20`, the length that the branch for data passes to `memset`, `memcpy` and
`stcp_app_send`. -/
def payloadLen (n1 : Nat) : Int := n1 - headerLen

/-- `stcp_network_recv` returns what it has stored, and the length that is taken from it is not
negative and does not lead out of the buffer. -/
def Receives (e : Endpoint) (packet : Packet) : Prop :=
  ∃ n1 buf ctx, stcpNetworkRecv e.toMysockContext recvBufLen = .ok (n1, buf, ctx) ∧
    buf = packet.data.take recvBufLen ∧ n1 = buf.length ∧ n1 ≤ recvBufLen ∧
    (packet.isData = true → 0 ≤ payloadLen n1 ∧ headerLen + payloadLen n1 ≤ recvBufLen)

/-- The branch completes, and passes up the bytes behind the header if there is one, and nothing
if the datagram is too short or is not data; a FIN may leave its mark. -/
def PassesUp (e : Endpoint) (packet : Packet) (uninit : BitVec 32) : Prop :=
  ∃ e' replies, controlLoopNetworkData e uninit = .ok (e', replies) ∧
    (packet.isData = true → headerLen ≤ packet.data.length ∧
      e'.appSendQueue = (stcpAppSend e.toMysockContext packet.payload).appSendQueue) ∧
    (packet.isData = false → e'.appSendQueue = e.appSendQueue ∨
      e'.appSendQueue = (stcpFinReceived e.toMysockContext).appSendQueue)

/-- The datagram fits into the buffer. -/
theorem receives_iff (h : e.networkRecvQueue = packet :: next) :
    Receives e packet ↔ packet.data.length ≤ recvBufLen ∧
      (packet.isData = true → headerLen ≤ packet.data.length) := by
  have hrecv := stcpNetworkRecv_cons e.toMysockContext packet next recvBufLen h
  unfold Receives
  rw [hrecv]
  constructor
  · rintro ⟨n1, buf, ctx, hok, hbuf, hlen, hmax, hdata⟩
    obtain ⟨rfl, -⟩ := Prod.mk.inj (Except.ok.inj hok)
    refine ⟨hmax, fun hd => ?_⟩
    have hpos := (hdata hd).1
    unfold payloadLen at hpos
    omega
  · rintro ⟨hmax, hdata⟩
    refine ⟨_, _, _, rfl, rfl, ?_, hmax, fun hd => ?_⟩
    · rw [List.take_of_length_le hmax]
    · have hmin := hdata hd
      unfold payloadLen
      omega

theorem appSendQueue_controlLoopAck (e : Endpoint) (recv : STCPHeader) :
    (controlLoopAck e recv).appSendQueue = e.appSendQueue := by
  have hfin : (controlLoopAckFinWait e recv).appSendQueue = e.appSendQueue := by
    unfold controlLoopAckFinWait
    split <;> rfl
  unfold controlLoopAck
  simp only
  split <;> exact hfin

theorem appSendQueue_controlLoopFin (e : Endpoint) (uninit : BitVec 32) :
    (controlLoopFin e uninit).1.appSendQueue = e.appSendQueue ∨
      (controlLoopFin e uninit).1.appSendQueue =
        (stcpFinReceived e.toMysockContext).appSendQueue := by
  unfold controlLoopFin
  simp only
  split
  · exact .inl rfl
  · exact .inr rfl
  · exact .inl rfl

/-- A datagram that is taken for data has a length that the branch can handle. -/
theorem passesUp_iff (h : e.networkRecvQueue = packet :: next) (uninit : BitVec 32) :
    PassesUp e packet uninit ↔ (packet.isData = true →
      headerLen ≤ packet.data.length ∧ packet.data.length ≤ recvBufLen) := by
  have hkind : (packet.header.thFlags ≠ thACK ∧ packet.header.thFlags ≠ thFIN) ↔
      packet.isData = true := by
    simp [Packet.isData, Packet.isAck, Packet.isFin]
  unfold PassesUp
  rw [controlLoopNetworkData_cons e uninit packet next h]
  simp only [hkind]
  cases hdata : packet.isData with
  | true =>
      rw [if_pos rfl, controlLoopData]
      constructor
      · rintro ⟨e', replies, hok, -⟩ -
        split at hok
        · cases hok
        · rename_i hlen
          unfold recvBufLen
          omega
      · intro hlen
        obtain ⟨hmin, hmax⟩ := hlen rfl
        have hbounds : ¬(packet.data.length < headerLen ∨ headerLen + stcpMss < packet.data.length) := by
          unfold recvBufLen at hmax
          omega
        have happ : ((packet.data.take (headerLen + stcpMss)).drop headerLen).take
            (packet.data.length - headerLen) = packet.payload := by
          have hwhole : packet.data.take (headerLen + stcpMss) = packet.data :=
            List.take_of_length_le hmax
          rw [hwhole, Packet.payload, List.take_of_length_le]
          rw [List.length_drop]
        rw [if_neg hbounds, happ]
        refine ⟨_, _, rfl, fun _ => ⟨hmin, ?_⟩, by simp⟩
        unfold stcpAppSend
        split <;> rfl
  | false =>
      rw [if_neg Bool.false_ne_true]
      refine iff_of_true ?_ (by simp)
      split
      · exact ⟨_, _, rfl, by simp, fun _ => .inl (appSendQueue_controlLoopAck _ _)⟩
      · refine ⟨_, _, rfl, by simp, fun _ => ?_⟩
        exact appSendQueue_controlLoopFin { e with networkRecvQueue := next } uninit

/-- The network branch keeps to what it has received exactly if the datagram fits into its buffer
and is long enough for a header, unless it is taken for an acknowledgement or a FIN. -/
theorem networkBranch_safe_iff (h : e.networkRecvQueue = packet :: next) (uninit : BitVec 32) :
    Receives e packet ∧ PassesUp e packet uninit ↔
      packet.data.length ≤ recvBufLen ∧
        (packet.isAck = true ∨ packet.isFin = true ∨ headerLen ≤ packet.data.length) := by
  rw [receives_iff h, passesUp_iff h]
  have hdata : packet.isData = true ↔ ¬(packet.isAck = true ∨ packet.isFin = true) := by
    simp [Packet.isData]
  constructor
  · rintro ⟨⟨hmax, hmin⟩, -⟩
    refine ⟨hmax, or_assoc.mp ?_⟩
    by_cases hother : packet.isAck = true ∨ packet.isFin = true
    · exact .inl hother
    · exact .inr (hmin (hdata.mpr hother))
  · rintro ⟨hmax, hkind⟩
    have hmin : packet.isData = true → headerLen ≤ packet.data.length := by
      intro hd
      exact (or_assoc.mpr hkind).resolve_left (hdata.mp hd)
    exact ⟨⟨hmax, hmin⟩, fun hd => ⟨hmin hd, hmax⟩⟩

/-- An established connection that has received this datagram. -/
def receiver (data : List Byte) : Endpoint :=
  controlLoopEntry ⟨false, [⟨data, .application⟩], [], []⟩ 1

theorem networkBranch_safe_segment :
    Receives (receiver (List.replicate 30 7)) ⟨List.replicate 30 7, .application⟩ ∧
      PassesUp (receiver (List.replicate 30 7)) ⟨List.replicate 30 7, .application⟩ 0 := by
  apply (networkBranch_safe_iff rfl 0).mpr
  exact ⟨by decide, .inr (.inr (by decide))⟩

/-- The marker for the end of the connection is taken for data of length -20. -/
theorem not_networkBranch_safe_marker :
    ¬(Receives (receiver []) ⟨[], .application⟩ ∧ PassesUp (receiver []) ⟨[], .application⟩ 0) := by
  rintro ⟨-, e', replies, hok, -⟩
  cases hok

end NetworkStack.Stcp
