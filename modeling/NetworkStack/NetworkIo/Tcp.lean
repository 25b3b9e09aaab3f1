import NetworkStack.Lib.Transfer
import NetworkStack.Listen.RecvThread

/-!
# Datagrams over a TCP connection

The network layer below a mysocket sends each packet behind its length, in network byte
order, and writes and reads until all of it is moved. The sending end takes as much of each
write as it likes. The receiving end is read in the chunks in which the bytes arrive, as
for the connections of a listening mysocket; here the mysocket does not listen, so one
connection carries all its packets.

`_network_recv_packet` fails for good at the end of the stream: what had arrived of a packet
is in the caller's buffer then, but is not reported.
-/

namespace NetworkStack.NetworkIo

open Bytes Listen Stcp Transfer

/-- What `_tcp_connect` reads: whether the socket is connected, and what `connect` would
return. -/
structure Connect where
  connected : Bool
  connect : Int
  deriving DecidableEq, Repr

/-- The socket is connected, or will be at the first packet. -/
def Connect.Succeeds (c : Connect) : Prop := c.connected = true ∨ 0 ≤ c.connect

/-- `_tcp_connect`. -/
def tcpConnect (c : Connect) : Int × Connect :=
  if c.connected then (0, c)
  else if c.connect < 0 then (-1, c)
  else (0, { c with connected := true })

/-- `_tcp_io` with `write`. -/
def tcpIoWrite (socket : Sink Byte) (buf : List Byte) : Int × Sink Byte :=
  match socket.writeAll buf with
  | (some rc, socket) => (rc, socket)
  | (none, socket) => (buf.length, socket)

/-- The context of a sending mysocket. -/
structure Sender where
  tcp : Connect
  socket : Sink Byte

/-- `_network_send_packet`. The length is stored in two bytes; a `write` that returns zero
is no error here. -/
def networkSendPacket (ctx : Sender) (src : List Byte) : Int × Sender :=
  let (rc, tcp) := tcpConnect ctx.tcp
  if rc < 0 then (-1, { ctx with tcp := tcp })
  else
    let (rc, socket) := tcpIoWrite ctx.socket (le16 (swap16 (BitVec.ofNat 16 src.length)))
    if rc < 0 then (-1, ⟨tcp, socket⟩)
    else
      let (rc, socket) := tcpIoWrite socket src
      (if rc < 0 then -1 else src.length, ⟨tcp, socket⟩)

/-- The packets one after another, with what each call returned. -/
def sendPackets : Sender → List (List Byte) → List Int × Sender
  | ctx, [] => ([], ctx)
  | ctx, src :: rest =>
      let (rc, ctx) := networkSendPacket ctx src
      let (rcs, ctx) := sendPackets ctx rest
      (rc :: rcs, ctx)

/-- The context of a receiving mysocket that does not listen. -/
structure Receiver where
  isActive : Bool
  tcp : Connect
  chunks : List (List Byte)
  reset : Bool
  deriving DecidableEq, Repr

/-- What `read` returns at the end of the stream. -/
def Receiver.atEnd (ctx : Receiver) : Int := if ctx.reset then -1 else 0

/-- The packet itself, behind its length: what the call returns, the bytes stored and what is
left to read. -/
def recvBody (atEnd : Int) (len maxLen : Nat) (chunks : List (List Byte)) :
    Int × List Byte × List (List Byte) :=
  match tcpIo chunks (min len maxLen) with
  | none => (atEnd, [], [])
  | some (dst, rest) =>
      -- For an empty packet `_tcp_io` returns zero, and so does the function.
      if min len maxLen = 0 then (0, [], rest)
      else if maxLen < len then
        (len, dst, ((tcpIo rest (len - maxLen)).map Prod.snd).getD [])
      else (len, dst, rest)

/-- `_network_recv_packet` on a mysocket that does not listen: what it returns and the bytes
stored. -/
def networkRecvPacket (ctx : Receiver) (maxLen : Nat) : (Int × List Byte) × Receiver :=
  let (rc, tcp) := if ctx.isActive then tcpConnect ctx.tcp else (0, ctx.tcp)
  if rc < 0 then ((-1, []), { ctx with tcp := tcp })
  else
    match tcpIo ctx.chunks 2 with
    | none => ((ctx.atEnd, []), { ctx with tcp := tcp, chunks := [] })
    | some (len, rest) =>
        let (rc, dst, rest) := recvBody ctx.atEnd (packetLen len) maxLen rest
        ((rc, dst), { ctx with tcp := tcp, chunks := rest })

/-- The results of so many calls. -/
def recvPackets (maxLen : Nat) : Nat → Receiver → List (Int × List Byte)
  | 0, _ => []
  | n + 1, ctx =>
      let (r, ctx) := networkRecvPacket ctx maxLen
      r :: recvPackets maxLen n ctx

/-! ## What the calls are for -/

/-- A packet as it is sent. -/
def frame (packet : List Byte) : List Byte := be16 (BitVec.ofNat 16 packet.length) ++ packet

/-- What a call that returns a packet gives. -/
def received (packet : List Byte) : Int × List Byte := (packet.length, packet)

/-- The packets that are complete in the first `cut` bytes of the stream. -/
def complete : Nat → List (List Byte) → List (List Byte)
  | _, [] => []
  | cut, packet :: rest =>
      if (frame packet).length ≤ cut then packet :: complete (cut - (frame packet).length) rest
      else []

/-- The receiving mysocket is connected, or will be. -/
def Receiver.Ready (ctx : Receiver) : Prop := ctx.isActive = true → ctx.tcp.Succeeds

/-! ## Sending -/

theorem tcpConnect_eq {c : Connect} (h : c.Succeeds) :
    ∃ c' : Connect, tcpConnect c = (0, c') ∧ c'.Succeeds := by
  unfold tcpConnect
  by_cases hc : c.connected = true
  · exact ⟨c, if_pos hc, h⟩
  · have hpos : 0 ≤ c.connect := h.resolve_left hc
    refine ⟨{ c with connected := true }, ?_, .inl rfl⟩
    rw [if_neg hc, if_neg (Int.not_lt.mpr hpos)]

theorem tcpIoWrite_eq {socket : Sink Byte} (h : socket.Reliable) (buf : List Byte) :
    ∃ socket' : Sink Byte, tcpIoWrite socket buf = ((buf.length : Int), socket') ∧
      socket'.Reliable ∧ socket'.sent = socket.sent ++ buf := by
  obtain ⟨socket', hwrite, hreliable, hsent⟩ := Sink.writeAll_eq h buf
  refine ⟨socket', ?_, hreliable, hsent⟩
  rw [tcpIoWrite, hwrite]

/-- A packet is sent in its frame, whatever the writes take at a time. -/
theorem networkSendPacket_eq {ctx : Sender} (htcp : ctx.tcp.Succeeds) (hsocket : ctx.socket.Reliable)
    (src : List Byte) :
    ∃ ctx' : Sender, networkSendPacket ctx src = ((src.length : Int), ctx') ∧ ctx'.tcp.Succeeds ∧
      ctx'.socket.Reliable ∧ ctx'.socket.sent = ctx.socket.sent ++ frame src := by
  obtain ⟨tcp, hconnect, htcp'⟩ := tcpConnect_eq htcp
  obtain ⟨socket, hlen, hsocket', hsent⟩ :=
    tcpIoWrite_eq hsocket (le16 (swap16 (BitVec.ofNat 16 src.length)))
  obtain ⟨socket', hsrc, hsocket'', hsent'⟩ := tcpIoWrite_eq hsocket' src
  refine ⟨⟨tcp, socket'⟩, ?_, htcp', hsocket'', ?_⟩
  · simp only [networkSendPacket, hconnect, hlen, hsrc]
    rw [if_neg (by decide), if_neg (by omega), if_neg (by omega)]
  · calc socket'.sent
        = (ctx.socket.sent ++ le16 (swap16 (BitVec.ofNat 16 src.length))) ++ src := by
          rw [hsent', hsent]
      _ = ctx.socket.sent ++ frame src := by rw [le16_swap16, List.append_assoc, frame]

theorem sendPackets_eq {ctx : Sender} (htcp : ctx.tcp.Succeeds) (hsocket : ctx.socket.Reliable)
    (packets : List (List Byte)) :
    (sendPackets ctx packets).1 = packets.map (fun p => (p.length : Int)) ∧
      (sendPackets ctx packets).2.socket.sent =
        ctx.socket.sent ++ (packets.map frame).flatten := by
  induction packets generalizing ctx with
  | nil => exact ⟨rfl, (List.append_nil _).symm⟩
  | cons src rest ih =>
      obtain ⟨ctx', hsend, htcp', hsocket', hsent⟩ := networkSendPacket_eq htcp hsocket src
      obtain ⟨hrcs, hrest⟩ := ih htcp' hsocket'
      constructor
      · simp only [sendPackets, hsend, hrcs, List.map_cons]
      · simp only [sendPackets, hsend, hrest, hsent, List.map_cons, List.flatten_cons,
          List.append_assoc]

/-! ## Receiving -/

theorem packetLen_be16 (x : BitVec 16) : packetLen (be16 x) = x.toNat := by
  have hx := x.isLt
  simp only [packetLen, be16, BitVec.extractLsb'_toNat, Nat.shiftRight_eq_div_pow]
  omega

theorem length_frame (packet : List Byte) : (frame packet).length = packet.length + 2 := by
  rw [frame, List.length_append, Nat.add_comm]
  rfl

/-- The bytes stored are a packet that fits, as long as it is there. -/
theorem recvBody_eq {len maxLen : Nat} {chunks : List (List Byte)} (atEnd : Int) (hpos : 1 ≤ len)
    (hle : len ≤ maxLen) (h : len ≤ (stream chunks).length) :
    ∃ rest, recvBody atEnd len maxLen chunks = ((len : Int), (stream chunks).take len, rest) ∧
      stream rest = (stream chunks).drop len := by
  unfold recvBody
  rw [Nat.min_eq_left hle]
  obtain ⟨-, hlt⟩ | ⟨rest, hread, hrest, -⟩ := tcpIo_eq chunks len
  · omega
  · refine ⟨rest, ?_, hrest⟩
    simp only [hread]
    rw [if_neg (by omega), if_neg (by omega)]

/-- A packet that the stream does not have, up to what the buffer holds. -/
theorem recvBody_missing {len maxLen : Nat} {chunks : List (List Byte)} (atEnd : Int)
    (h : (stream chunks).length < min len maxLen) :
    recvBody atEnd len maxLen chunks = (atEnd, [], []) := by
  unfold recvBody
  obtain ⟨hnone, -⟩ | ⟨-, -, -, hlen⟩ := tcpIo_eq chunks (min len maxLen)
  · rw [hnone]
  · omega

theorem Receiver.atEnd_le (ctx : Receiver) : ctx.atEnd ≤ 0 := by
  unfold atEnd
  split <;> decide

/-- A mysocket that is connected goes on to read. -/
theorem networkRecvPacket_ready {ctx : Receiver} (h : ctx.Ready) (maxLen : Nat) :
    ∃ tcp : Connect, (ctx.isActive = true → tcp.Succeeds) ∧
      networkRecvPacket ctx maxLen =
        match tcpIo ctx.chunks 2 with
        | none => ((ctx.atEnd, []), { ctx with tcp := tcp, chunks := [] })
        | some (len, rest) =>
            let (rc, dst, rest) := recvBody ctx.atEnd (packetLen len) maxLen rest
            ((rc, dst), { ctx with tcp := tcp, chunks := rest }) := by
  by_cases hactive : ctx.isActive = true
  · obtain ⟨tcp, hconnect, htcp⟩ := tcpConnect_eq (h hactive)
    refine ⟨tcp, fun _ => htcp, ?_⟩
    simp only [networkRecvPacket, if_pos hactive, hconnect]
    rw [if_neg (by decide)]
  · refine ⟨ctx.tcp, fun ha => absurd ha hactive, ?_⟩
    simp only [networkRecvPacket, if_neg hactive]
    rw [if_neg (by decide)]

section Frames

variable {ctx : Receiver} {packet more : List Byte} {maxLen : Nat}
  (hpos : 1 ≤ packet.length) (hle : packet.length ≤ maxLen) (hmax : maxLen < 2 ^ 16)

include hpos hle hmax

/-- The packet at the front of the stream is returned, and what is behind it is left. -/
theorem networkRecvPacket_frame (hready : ctx.Ready)
    (h : stream ctx.chunks = frame packet ++ more) :
    ∃ ctx' : Receiver, networkRecvPacket ctx maxLen = (received packet, ctx') ∧ ctx'.Ready ∧
      stream ctx'.chunks = more := by
  have hlen : (BitVec.ofNat 16 packet.length).toNat = packet.length := by
    rw [BitVec.toNat_ofNat, Nat.mod_eq_of_lt (by omega)]
  have hstream : stream ctx.chunks = be16 (BitVec.ofNat 16 packet.length) ++ (packet ++ more) := by
    rw [h, frame, List.append_assoc]
  obtain ⟨tcp, htcp, hrecv⟩ := networkRecvPacket_ready hready maxLen
  obtain ⟨-, hlt⟩ | ⟨rest, hread, hrest, -⟩ := tcpIo_eq ctx.chunks 2
  · rw [hstream, List.length_append] at hlt
    simp [be16] at hlt
    omega
  · rw [hstream] at hread hrest
    have hbody : stream rest = packet ++ more := hrest
    have hfits : packet.length ≤ (stream rest).length := by
      rw [hbody, List.length_append]
      omega
    obtain ⟨rest', hrecv', hmore⟩ := recvBody_eq ctx.atEnd hpos hle hfits
    rw [hbody, List.take_left] at hrecv'
    rw [hbody, List.drop_left] at hmore
    refine ⟨{ ctx with tcp := tcp, chunks := rest' }, ?_, htcp, hmore⟩
    have hfield : (be16 (BitVec.ofNat 16 packet.length) ++ (packet ++ more)).take 2 =
        be16 (BitVec.ofNat 16 packet.length) := rfl
    rw [hrecv, hread]
    simp only [hfield, packetLen_be16, hlen, hrecv']
    rfl

omit hpos in
/-- Of a packet that is cut off nothing is returned, and nothing comes after it. -/
theorem networkRecvPacket_cut (hready : ctx.Ready) {cut : Nat}
    (hcut : cut < (frame packet).length) (h : stream ctx.chunks = (frame packet).take cut) :
    ∃ (dst : List Byte) (ctx' : Receiver),
      networkRecvPacket ctx maxLen = ((ctx.atEnd, dst), ctx') ∧ ctx'.Ready ∧
        stream ctx'.chunks = [] := by
  have hlen : (BitVec.ofNat 16 packet.length).toNat = packet.length := by
    rw [BitVec.toNat_ofNat, Nat.mod_eq_of_lt (by omega)]
  have hshort : (stream ctx.chunks).length = cut := by
    rw [h, List.length_take, Nat.min_eq_left hcut.le]
  rw [length_frame] at hcut
  obtain ⟨tcp, htcp, hrecv⟩ := networkRecvPacket_ready hready maxLen
  obtain ⟨hnone, -⟩ | ⟨rest, hread, hrest, htwo⟩ := tcpIo_eq ctx.chunks 2
  · refine ⟨[], { ctx with tcp := tcp, chunks := [] }, ?_, htcp, rfl⟩
    rw [hrecv, hnone]
  · -- The length has arrived, and the packet has not.
    have hfield : (stream ctx.chunks).take 2 = be16 (BitVec.ofNat 16 packet.length) := by
      rw [h, List.take_take, Nat.min_eq_left (by omega)]
      rfl
    have hend : recvBody ctx.atEnd packet.length maxLen rest = (ctx.atEnd, [], []) := by
      apply recvBody_missing
      rw [hrest, List.length_drop, Nat.min_eq_left hle]
      omega
    refine ⟨[], { ctx with tcp := tcp, chunks := [] }, ?_, htcp, rfl⟩
    rw [hrecv, hread]
    simp only [hfield, packetLen_be16, hlen, hend]

end Frames

/-! ## A whole stream -/

variable {ctx : Receiver} {maxLen : Nat} {packets : List (List Byte)}

theorem recvPackets_succ (calls : Nat) :
    recvPackets maxLen (calls + 1) ctx = (networkRecvPacket ctx maxLen).1 ::
      recvPackets maxLen calls (networkRecvPacket ctx maxLen).2 := rfl

/-- At the end of the stream every call fails. -/
theorem recvPackets_end (hmax : maxLen < 2 ^ 16) (hready : ctx.Ready)
    (h : stream ctx.chunks = []) (calls : Nat) :
    ∀ r ∈ recvPackets maxLen calls ctx, r.1 ≤ 0 := by
  induction calls generalizing ctx with
  | zero => nofun
  | succ calls ih =>
      have hcut : 0 < (frame []).length := by simp [length_frame]
      obtain ⟨dst, ctx', hrecv, hready', hend⟩ :=
        networkRecvPacket_cut (Nat.zero_le maxLen) hmax hready hcut h
      intro r hr
      rw [recvPackets_succ, hrecv] at hr
      obtain rfl | hr := List.mem_cons.mp hr
      · exact ctx.atEnd_le
      · exact ih hready' hend r hr

/-- Packets that have arrived are returned one by one. -/
theorem recvPackets_frames (hmax : maxLen < 2 ^ 16) (hready : ctx.Ready)
    (hlen : ∀ p ∈ packets, 1 ≤ p.length ∧ p.length ≤ maxLen) {more : List Byte}
    (h : stream ctx.chunks = (packets.map frame).flatten ++ more) :
    recvPackets maxLen packets.length ctx = packets.map received := by
  induction packets generalizing ctx with
  | nil => rfl
  | cons packet rest ih =>
      obtain ⟨hpos, hle⟩ := hlen packet List.mem_cons_self
      rw [List.map_cons, List.flatten_cons, List.append_assoc] at h
      obtain ⟨ctx', hrecv, hready', hrest⟩ := networkRecvPacket_frame hpos hle hmax hready h
      rw [List.length_cons, recvPackets_succ, hrecv, List.map_cons]
      rw [ih hready' (fun p hp => hlen p (List.mem_cons_of_mem packet hp)) hrest]

/-- Of a stream that is cut off, the packets before the cut are returned, and then every
call fails. -/
theorem recvPackets_cut (hmax : maxLen < 2 ^ 16) (hready : ctx.Ready)
    (hlen : ∀ p ∈ packets, 1 ≤ p.length ∧ p.length ≤ maxLen) {cut : Nat}
    (h : stream ctx.chunks = (packets.map frame).flatten.take cut) {calls : Nat}
    (hcalls : (complete cut packets).length < calls) :
    ∃ failures, recvPackets maxLen calls ctx = (complete cut packets).map received ++ failures ∧
      failures ≠ [] ∧ ∀ r ∈ failures, r.1 ≤ 0 := by
  induction packets generalizing ctx cut calls with
  | nil =>
      refine ⟨recvPackets maxLen calls ctx, rfl, ?_, ?_⟩
      · cases calls with
        | zero => exact absurd hcalls (Nat.lt_irrefl 0)
        | succ n => exact List.cons_ne_nil _ _
      · exact recvPackets_end hmax hready (h.trans List.take_nil) calls
  | cons packet rest ih =>
      obtain ⟨hpos, hle⟩ := hlen packet List.mem_cons_self
      rw [List.map_cons, List.flatten_cons] at h
      obtain ⟨n, rfl⟩ := Nat.exists_eq_add_one_of_ne_zero (Nat.ne_zero_of_lt hcalls)
      by_cases hcut : (frame packet).length ≤ cut
      · rw [complete, if_pos hcut] at hcalls ⊢
        rw [List.take_append, List.take_of_length_le hcut] at h
        obtain ⟨ctx', hrecv, hready', hrest⟩ := networkRecvPacket_frame hpos hle hmax hready h
        obtain ⟨failures, heq, hne, hfail⟩ := ih hready'
          (fun p hp => hlen p (List.mem_cons_of_mem packet hp)) hrest
          (Nat.lt_of_succ_lt_succ hcalls)
        refine ⟨failures, ?_, hne, hfail⟩
        rw [recvPackets_succ, hrecv, List.map_cons, List.cons_append, heq]
      · have hcut' : cut < (frame packet).length := Nat.lt_of_not_le hcut
        rw [complete, if_neg hcut]
        rw [List.take_append_of_le_length hcut'.le] at h
        obtain ⟨dst, ctx', hrecv, hready', hend⟩ := networkRecvPacket_cut hle hmax hready hcut' h
        refine ⟨recvPackets maxLen (n + 1) ctx, rfl, List.cons_ne_nil _ _, ?_⟩
        intro r hr
        rw [recvPackets_succ, hrecv] at hr
        obtain rfl | hr := List.mem_cons.mp hr
        · exact ctx.atEnd_le
        · exact recvPackets_end hmax hready' hend n r hr

/-- Packets cross the connection unchanged and in order, however the writes and the reads are
cut, and of a stream that ends early exactly the packets that are complete. -/
theorem recvPackets_sendPackets {s : Sender} (htcp : s.tcp.Succeeds)
    (hsocket : s.socket.Reliable) (hfresh : s.socket.sent = [])
    (hlen : ∀ p ∈ packets, 1 ≤ p.length ∧ p.length ≤ maxIpPayloadLen) (hready : ctx.Ready) :
    (sendPackets s packets).1 = packets.map (fun p => (p.length : Int)) ∧
      (∀ more, stream ctx.chunks = (sendPackets s packets).2.socket.sent ++ more →
        recvPackets maxIpPayloadLen packets.length ctx = packets.map received) ∧
      ∀ cut calls, stream ctx.chunks = (sendPackets s packets).2.socket.sent.take cut →
        (complete cut packets).length < calls →
        ∃ failures, recvPackets maxIpPayloadLen calls ctx =
            (complete cut packets).map received ++ failures ∧
          failures ≠ [] ∧ ∀ r ∈ failures, r.1 ≤ 0 := by
  obtain ⟨hrcs, hsent⟩ := sendPackets_eq htcp hsocket packets
  rw [hfresh, List.nil_append] at hsent
  refine ⟨hrcs, ?_, ?_⟩
  · intro more h
    rw [hsent] at h
    exact recvPackets_frames (by decide) hready hlen h
  · intro cut calls h hcalls
    rw [hsent] at h
    exact recvPackets_cut (by decide) hready hlen h hcalls

/-- A packet of three bytes and one of two, written a byte at a time. -/
def byteWise : Sender where
  tcp := { connected := false, connect := 0 }
  socket := .fresh fun _ => 1

/-- The second packet is cut off behind its length. -/
def cutOff : Receiver where
  isActive := false
  tcp := { connected := true, connect := 0 }
  chunks := [[0], [3, 7], [8, 9, 0], [2]]
  reset := false

theorem recvPackets_cutOff :
    ∃ failures, recvPackets maxIpPayloadLen 2 cutOff = [(3, [7, 8, 9])] ++ failures ∧
      failures ≠ [] ∧ ∀ r ∈ failures, r.1 ≤ 0 :=
  (@recvPackets_sendPackets cutOff [[7, 8, 9], [1, 2]] byteWise (.inr (by decide))
    (fun _ => Int.one_pos) rfl (by decide) nofun).2.2 7 2 (by decide) (by decide)

end NetworkStack.NetworkIo
