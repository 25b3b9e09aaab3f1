import NetworkStack.Lib.Buffer
import NetworkStack.Lib.Checksum
import NetworkStack.Lib.Computation
import NetworkStack.Stcp.Header

/-!
# The checksum of a segment

The sender puts the checksum of the segment and a pseudo-header into the segment, and the receiver
computes it again with the addresses exchanged. The sum is kept in an `int32_t`, whose overflow is
undefined, and its carries are brought back in twice.

## Implementation notes

A 16-bit word is read as the little-endian host reads it. The address of the segment is an argument
because the code asserts something about it.
-/

namespace NetworkStack.Stcp

open Buffer Bytes Checksum NetworkStack.Computation

namespace TcpSum

/-- Why a checksum is not computed. -/
inductive Fault where
  | assertion
  | overflow
  deriving DecidableEq, Repr

/-- An assertion. -/
def cassert (b : Bool) : Except Fault Unit := if b then .ok () else .error .assertion

/-- The result of an operation on `int32_t`. -/
def int32 (n : Int) : Except Fault Int :=
  if -2 ^ 31 ≤ n ∧ n < 2 ^ 31 then .ok n else .error .overflow

/-- A loop over the words of `data`, from the word `k` on, without the word `skipped`; and
the odd byte behind them. -/
def addWords (skipped : Option Nat) : Nat → Int → List Byte → Except Fault Int
  | k, sum, b₀ :: b₁ :: rest => do
      let sum ← if skipped = some k then pure sum else int32 (sum + (ofLe16 b₀ b₁).toNat)
      addWords skipped (k + 1) sum rest
  | _, sum, [b₀] => int32 (sum + (ofLe16 b₀ 0).toNat)
  | _, sum, [] => .ok sum

/-- `offsetof(struct tcphdr, th_sum)`. -/
def thSumOffset : Nat := 16

/-- The pseudo-header of a segment of `len` bytes. -/
def pseudoHeader (srcAddr dstAddr : BitVec 32) (len : Nat) : List Byte :=
  le32 srcAddr ++ le32 dstAddr ++ [0, 6] ++ le16 (swap16 (BitVec.ofNat 16 len))

/-- `_mysock_tcp_checksum` for a packet at the address `location`. -/
def mysockTcpChecksum (srcAddr dstAddr : BitVec 32) (location : Nat) (packet : List Byte) :
    Except Fault (BitVec 16) := do
  cassert (headerLen ≤ packet.length)
  cassert (srcAddr > 0)
  cassert (dstAddr > 0)
  let sum ← addWords none 0 0 (pseudoHeader srcAddr dstAddr packet.length)
  cassert (location &&& 2 = 0)
  let sum ← addWords (some (thSumOffset / 2)) 0 sum packet
  let sum ← int32 (sum / 65536 + sum % 65536)
  let sum ← int32 (sum + sum / 65536)
  return BitVec.ofInt 16 (-sum - 1)

/-- The part of `network_context_t` that the checksum needs, and the address that
`gethostbyname_r` finds for the host. -/
structure NetworkState where
  peerFamily : BitVec 16
  peerAddr : BitVec 32
  peerAddrLen : Nat
  peerAddrValid : Bool
  hostAddr : Option (BitVec 32)

/-- `AF_INET`. -/
def afInet : BitVec 16 := 2

/-- `_network_get_local_addr`. -/
def networkGetLocalAddr (ctx : NetworkState) : Except Fault (BitVec 32) := do
  cassert ctx.peerAddrValid
  cassert (ctx.peerAddrLen > 0)
  cassert (ctx.peerFamily = afInet)
  match ctx.hostAddr with
  | none => .error .assertion
  | some addr => .ok addr

/-- `_mysock_set_checksum`. -/
def mysockSetChecksum (ctx : NetworkState) (location : Nat) (packet : List Byte) :
    Except Fault (List Byte) := do
  cassert (headerLen ≤ packet.length)
  cassert (ctx.peerFamily = afInet)
  let localAddr ← networkGetLocalAddr ctx
  let sum ← mysockTcpChecksum localAddr ctx.peerAddr location packet
  match store16 packet thSumOffset sum with
  | none => .error .assertion
  | some packet => .ok packet

/-- `_mysock_verify_checksum`. -/
def mysockVerifyChecksum (ctx : NetworkState) (location : Nat) (packet : List Byte) :
    Except Fault Bool := do
  cassert (headerLen ≤ packet.length)
  cassert (ctx.peerFamily = afInet)
  let localAddr ← networkGetLocalAddr ctx
  let mySum ← mysockTcpChecksum ctx.peerAddr localAddr location packet
  return load16 packet thSumOffset = some mySum

/-! ## Sums -/

variable {srcAddr dstAddr : BitVec 32} {location : Nat} {packet : List Byte}

/-- What `addWords` adds. -/
def wordsFrom (skipped : Option Nat) : Nat → List Byte → Nat
  | k, b₀ :: b₁ :: rest =>
      (if skipped = some k then 0 else b₀.toNat + 256 * b₁.toNat) + wordsFrom skipped (k + 1) rest
  | _, [b₀] => b₀.toNat
  | _, [] => 0

theorem toNat_ofLe16 (b₀ b₁ : Byte) : (ofLe16 b₀ b₁).toNat = b₀.toNat + 256 * b₁.toNat := by
  have h₀ := b₀.isLt
  have hshift : b₁.toNat <<< 8 = 256 * b₁.toNat := by
    rw [Nat.shiftLeft_eq, Nat.mul_comm]
  rw [ofLe16, BitVec.toNat_append, Nat.shiftLeft_add_eq_or_of_lt h₀ b₁.toNat |>.symm, hshift]
  omega

theorem int32_eq {n : Nat} (h : n < 2 ^ 31) : int32 n = .ok (n : Int) :=
  if_pos ⟨by omega, by omega⟩

/-- A sum that fits in 31 bits is exact. -/
theorem addWords_eq {skipped : Option Nat} {k sum : Nat} {data : List Byte}
    (h : sum + wordsFrom skipped k data < 2 ^ 31) :
    addWords skipped k sum data = .ok ((sum + wordsFrom skipped k data : Nat) : Int) := by
  induction data using wordSum.induct generalizing k sum with
  | case1 b₀ b₁ rest ih =>
      rw [wordsFrom] at h ⊢
      rw [addWords]
      split
      · rename_i hskip
        rw [if_pos hskip, Nat.zero_add] at h
        rw [Nat.zero_add]
        exact ih h
      · rename_i hkeep
        rw [if_neg hkeep] at h
        have hword : (sum : Int) + ((ofLe16 b₀ b₁).toNat : Int) =
            ((sum + (b₀.toNat + 256 * b₁.toNat) : Nat) : Int) := by
          rw [toNat_ofLe16]
          omega
        have hrest := @ih (k + 1) (sum + (b₀.toNat + 256 * b₁.toNat)) (by omega)
        rw [Nat.add_assoc] at hrest
        rw [hword, int32_eq (by omega)]
        exact hrest
  | case2 b₀ =>
      rw [wordsFrom] at h ⊢
      have hword : (sum : Int) + ((ofLe16 b₀ 0).toNat : Int) = ((sum + b₀.toNat : Nat) : Int) := by
        rw [toNat_ofLe16]
        simp
      rw [addWords, hword, int32_eq h]
  | case3 => rfl

theorem wordsFrom_none (k : Nat) (data : List Byte) : wordsFrom none k data = hostSum data := by
  induction data using wordSum.induct generalizing k with
  | case1 b₀ b₁ rest ih =>
      rw [wordsFrom, ih, if_neg (by simp)]
      rfl
  | case2 b₀ => simp [wordsFrom, hostSum, pairSum]
  | case3 => rfl

/-- Nothing is left out behind the skipped word. -/
theorem wordsFrom_of_lt {s k : Nat} (h : s < k) (data : List Byte) :
    wordsFrom (some s) k data = hostSum data := by
  induction data using wordSum.induct generalizing k with
  | case1 b₀ b₁ rest ih =>
      have hne : ¬some s = some k := by
        rw [Option.some.injEq]
        omega
      rw [wordsFrom, ih (by omega), if_neg hne]
      rfl
  | case2 b₀ => simp [wordsFrom, hostSum, pairSum]
  | case3 => rfl

/-- Everything is added but the skipped word. -/
theorem wordsFrom_some {j k : Nat} {data : List Byte} (h : 2 * j + 2 ≤ data.length) :
    wordsFrom (some (k + j)) k data =
      hostSum (data.take (2 * j)) + hostSum (data.drop (2 * j + 2)) := by
  induction j generalizing k data with
  | zero =>
      obtain ⟨b₀, b₁, rest, rfl⟩ : ∃ b₀ b₁ rest, data = b₀ :: b₁ :: rest := by
        match data, h with
        | b₀ :: b₁ :: rest, _ => exact ⟨b₀, b₁, rest, rfl⟩
      rw [Nat.add_zero, wordsFrom, if_pos rfl, wordsFrom_of_lt (Nat.lt_succ_self _), Nat.zero_add]
      exact (Nat.zero_add _).symm
  | succ j ih =>
      obtain ⟨b₀, b₁, rest, rfl⟩ : ∃ b₀ b₁ rest, data = b₀ :: b₁ :: rest := by
        match data, h with
        | b₀ :: b₁ :: rest, _ => exact ⟨b₀, b₁, rest, rfl⟩
      have hne : ¬some (k + (j + 1)) = some k := by
        rw [Option.some.injEq]
        omega
      have hsucc : k + (j + 1) = k + 1 + j := by omega
      have hrest : 2 * j + 2 ≤ rest.length := by
        simp only [List.length_cons] at h
        omega
      rw [wordsFrom, if_neg hne, hsucc, ih hrest]
      simp only [Nat.mul_succ, List.take_succ_cons, List.drop_succ_cons, hostSum, pairSum]
      omega

/-! ## The checksum -/

/-- The sum of the pseudo-header and the segment without its checksum. -/
def segmentSum (srcAddr dstAddr : BitVec 32) (packet : List Byte) : Nat :=
  hostSum (pseudoHeader srcAddr dstAddr packet.length) + hostSum (packet.take thSumOffset) +
    hostSum (packet.drop (thSumOffset + 2))

theorem pseudoHeader_length (srcAddr dstAddr : BitVec 32) (len : Nat) :
    (pseudoHeader srcAddr dstAddr len).length = 12 := rfl

theorem segmentSum_lt (h : packet.length ≤ maxIpPayloadLen) :
    segmentSum srcAddr dstAddr packet < 2 ^ 31 := by
  have hpseudo := hostSum_le (pseudoHeader srcAddr dstAddr packet.length)
  have hfront := hostSum_le (packet.take thSumOffset)
  have hback := hostSum_le (packet.drop (thSumOffset + 2))
  rw [pseudoHeader_length] at hpseudo
  rw [List.length_take] at hfront
  rw [List.length_drop] at hback
  simp only [maxIpPayloadLen] at h
  simp only [segmentSum, thSumOffset] at hfront hback ⊢
  omega

/-- The pseudo-header is never all zeros: it has the number of the protocol in it. -/
theorem segmentSum_pos : 0 < segmentSum srcAddr dstAddr packet := by
  have hpseudo : hostSum (pseudoHeader srcAddr dstAddr packet.length) =
      hostSum (le32 srcAddr ++ le32 dstAddr) + (hostSum [0, 6] +
        hostSum (le16 (swap16 (BitVec.ofNat 16 packet.length)))) := by
    have haddrs : Even (le32 srcAddr ++ le32 dstAddr).length := ⟨4, rfl⟩
    have hprotocol : Even ([0, 6] : List Byte).length := ⟨1, rfl⟩
    rw [pseudoHeader, List.append_assoc, hostSum_append haddrs, hostSum_append hprotocol]
  have hprotocol : hostSum [0, 6] = 1536 := rfl
  rw [segmentSum, hpseudo, hprotocol]
  omega

/-- The checksum is the complement of the sum with all carries brought back in; nothing
overflows on the way. -/
theorem mysockTcpChecksum_eq (hmin : headerLen ≤ packet.length)
    (hmax : packet.length ≤ maxIpPayloadLen) (hsrc : srcAddr ≠ 0) (hdst : dstAddr ≠ 0)
    (hlocation : location &&& 2 = 0) :
    mysockTcpChecksum srcAddr dstAddr location packet =
      .ok (BitVec.ofNat 16 (65535 - fold (segmentSum srcAddr dstAddr packet)
        (segmentSum srcAddr dstAddr packet))) := by
  have hlt : segmentSum srcAddr dstAddr packet < 2 ^ 31 := segmentSum_lt hmax
  have hpseudo : addWords none 0 0 (pseudoHeader srcAddr dstAddr packet.length) =
      .ok ((hostSum (pseudoHeader srcAddr dstAddr packet.length) : Nat) : Int) := by
    have hsum := @addWords_eq none 0 0 (pseudoHeader srcAddr dstAddr packet.length)
    rw [wordsFrom_none, Nat.zero_add] at hsum
    apply hsum
    rw [segmentSum] at hlt
    omega
  have hwords : wordsFrom (some (thSumOffset / 2)) 0 packet =
      hostSum (packet.take thSumOffset) + hostSum (packet.drop (thSumOffset + 2)) := by
    have hskip := @wordsFrom_some 8 0 packet (by rw [headerLen] at hmin; omega)
    exact hskip
  have hpacket : addWords (some (thSumOffset / 2)) 0
      ((hostSum (pseudoHeader srcAddr dstAddr packet.length) : Nat) : Int) packet =
        .ok ((segmentSum srcAddr dstAddr packet : Nat) : Int) := by
    rw [addWords_eq (by rw [hwords, ← Nat.add_assoc]; exact hlt), hwords, ← Nat.add_assoc]
    rfl
  have hassert {p : Prop} [Decidable p] (hp : p) : cassert (decide p) = .ok () :=
    if_pos (decide_eq_true hp)
  have hsrc' : srcAddr > 0 := (BitVec.pos_iff_ne_zero srcAddr).mpr hsrc
  have hdst' : dstAddr > 0 := (BitVec.pos_iff_ne_zero dstAddr).mpr hdst
  generalize segmentSum srcAddr dstAddr packet = sum at hlt hpacket ⊢
  have hfold : fold sum sum =
      (sum / 65536 + sum % 65536 + (sum / 65536 + sum % 65536) / 65536) % 65536 :=
    fold_eq_two_rounds (by omega)
  have hfirst : int32 ((sum : Int) / 65536 + (sum : Int) % 65536) =
      .ok ((sum / 65536 + sum % 65536 : Nat) : Int) := by
    have hcast : (sum : Int) / 65536 + (sum : Int) % 65536 =
        ((sum / 65536 + sum % 65536 : Nat) : Int) := by omega
    rw [hcast, int32_eq (by omega)]
  have honce : sum / 65536 + sum % 65536 < 2 ^ 30 := by omega
  rw [hfold]
  generalize sum / 65536 + sum % 65536 = once at hfirst honce ⊢
  have hsecond : int32 ((once : Int) + (once : Int) / 65536) =
      .ok ((once + once / 65536 : Nat) : Int) := by
    have hcast : (once : Int) + (once : Int) / 65536 = ((once + once / 65536 : Nat) : Int) := by omega
    rw [hcast, int32_eq (by omega)]
  have hcomplement (n : Nat) : BitVec.ofInt 16 (-(n : Int) - 1) =
      BitVec.ofNat 16 (65535 - n % 65536) := by
    apply BitVec.eq_of_toNat_eq
    rw [BitVec.toNat_ofInt, BitVec.toNat_ofNat]
    omega
  rw [mysockTcpChecksum, hassert hmin, ok_bind, hassert hsrc', ok_bind, hassert hdst', ok_bind,
    hpseudo, ok_bind, hassert hlocation, ok_bind, hpacket, ok_bind, hfirst, ok_bind, hsecond,
    ok_bind, hcomplement]
  rfl

/-- The sum with the checksum in it, from the one without. -/
theorem segmentSum_add {t : BitVec 16} (h : load16 packet thSumOffset = some t) :
    segmentSum srcAddr dstAddr packet + t.toNat =
      hostSum (pseudoHeader srcAddr dstAddr packet.length ++ packet) := by
  have hword := le16_of_load16 h
  have hlen : thSumOffset + 2 ≤ packet.length := by
    have htwo := congrArg List.length hword
    rw [List.length_take, List.length_drop] at htwo
    have hle16 : (le16 t).length = 2 := rfl
    omega
  have hsplit : packet = packet.take thSumOffset ++ (le16 t ++ packet.drop (thSumOffset + 2)) := by
    rw [← hword, ← List.drop_drop, List.take_append_drop, List.take_append_drop]
  have hfront : Even (packet.take thSumOffset).length := by
    rw [List.length_take_of_le (by omega)]
    exact ⟨8, rfl⟩
  have hpacket : hostSum packet = hostSum (packet.take thSumOffset) +
      (t.toNat + hostSum (packet.drop (thSumOffset + 2))) := by
    conv_lhs => rw [hsplit]
    rw [hostSum_append hfront, hostSum_append ⟨1, rfl⟩, hostSum_le16]
  rw [hostSum_append ⟨6, rfl⟩, hpacket, segmentSum]
  omega

/-! ## Setting and verifying -/

/-- The connection has this address on this side and that one on the other. -/
structure NetworkState.Connects (ctx : NetworkState) (localAddr peerAddr : BitVec 32) : Prop where
  family : ctx.peerFamily = afInet
  peer : ctx.peerAddr = peerAddr
  known : ctx.peerAddrLen > 0
  valid : ctx.peerAddrValid = true
  host : ctx.hostAddr = some localAddr

theorem NetworkState.Connects.localAddr_eq {ctx : NetworkState} {localAddr peerAddr : BitVec 32}
    (h : ctx.Connects localAddr peerAddr) : networkGetLocalAddr ctx = .ok localAddr := by
  simp only [networkGetLocalAddr, h.valid, h.known, h.family, h.host, cassert, decide_true, if_true,
    ok_bind]

variable {ctx : NetworkState} {localAddr peerAddr : BitVec 32}

/-- The checksum that belongs into a segment. -/
def checksumOf (srcAddr dstAddr : BitVec 32) (packet : List Byte) : BitVec 16 :=
  BitVec.ofNat 16 (65535 - fold (segmentSum srcAddr dstAddr packet)
    (segmentSum srcAddr dstAddr packet))

theorem mysockSetChecksum_eq (h : ctx.Connects localAddr peerAddr)
    (hmin : headerLen ≤ packet.length) (hmax : packet.length ≤ maxIpPayloadLen)
    (hlocal : localAddr ≠ 0) (hpeer : peerAddr ≠ 0) (hlocation : location &&& 2 = 0) :
    mysockSetChecksum ctx location packet =
      .ok (packet.take thSumOffset ++ le16 (checksumOf localAddr peerAddr packet) ++
        packet.drop (thSumOffset + 2)) := by
  have hroom : thSumOffset + 2 ≤ packet.length := le_trans (by decide) hmin
  have hstore (x : BitVec 16) : store16 packet thSumOffset x =
      some (packet.take thSumOffset ++ le16 x ++ packet.drop (thSumOffset + 2)) := if_pos hroom
  simp only [mysockSetChecksum, hmin, h.family, cassert, decide_true, if_true, ok_bind,
    h.localAddr_eq, h.peer, mysockTcpChecksum_eq hmin hmax hlocal hpeer hlocation, hstore,
    checksumOf]

theorem mysockVerifyChecksum_eq (h : ctx.Connects localAddr peerAddr)
    (hmin : headerLen ≤ packet.length) (hmax : packet.length ≤ maxIpPayloadLen)
    (hlocal : localAddr ≠ 0) (hpeer : peerAddr ≠ 0) (hlocation : location &&& 2 = 0) :
    mysockVerifyChecksum ctx location packet =
      .ok (decide (load16 packet thSumOffset = some (checksumOf peerAddr localAddr packet))) := by
  simp only [mysockVerifyChecksum, hmin, h.family, cassert, decide_true, if_true, ok_bind,
    h.localAddr_eq, h.peer, mysockTcpChecksum_eq hmin hmax hpeer hlocal hlocation, checksumOf]
  rfl

/-- Two segments have the same checksum exactly if their sums are the same in one's complement. -/
theorem checksumOf_eq_iff {other : List Byte} :
    checksumOf srcAddr dstAddr packet = checksumOf srcAddr dstAddr other ↔
      segmentSum srcAddr dstAddr packet % 65535 = segmentSum srcAddr dstAddr other % 65535 := by
  have hle := fold_le (Nat.le_refl (segmentSum srcAddr dstAddr packet))
  have hle' := fold_le (Nat.le_refl (segmentSum srcAddr dstAddr other))
  rw [← fold_eq_iff segmentSum_pos segmentSum_pos, checksumOf, checksumOf, ← BitVec.toNat_inj,
    BitVec.toNat_ofNat, BitVec.toNat_ofNat]
  omega

/-- What the checksum is for: the segment is accepted by the peer, its sum is `0xffff`, and
another word in it is noticed unless the two are the two zeros of one's complement. -/
structure Protects (sender receiver : NetworkState) (location location' : Nat)
    (localAddr peerAddr : BitVec 32) (packet sent : List Byte) : Prop where
  set : mysockSetChecksum sender location packet = .ok sent
  accepted : mysockVerifyChecksum receiver location' sent = .ok true
  small : hostSum (pseudoHeader localAddr peerAddr packet.length ++ sent) < 2 ^ 31
  sum : fold (hostSum (pseudoHeader localAddr peerAddr packet.length ++ sent))
    (hostSum (pseudoHeader localAddr peerAddr packet.length ++ sent)) = 0xffff
  folded : mysockTcpChecksum localAddr peerAddr location packet =
    .ok (~~~BitVec.ofNat 16 (fold (segmentSum localAddr peerAddr packet)
      (segmentSum localAddr peerAddr packet)))
  word : ∀ pre x y post, sent = pre ++ le16 x ++ post → Even pre.length →
    pre.length ≠ thSumOffset → mysockVerifyChecksum receiver location' (pre ++ le16 y ++ post) =
      .ok (decide (x = y ∨ (x = 0 ∧ y = 0xffff) ∨ (x = 0xffff ∧ y = 0)))
  odd : ∀ pre b c, sent = pre ++ [b] → Even pre.length →
    mysockVerifyChecksum receiver location' (pre ++ [c]) = .ok (decide (b = c))

section Protects

variable {sent pre post : List Byte}

/-- A segment that is changed, but not in its checksum, is accepted exactly if what is exchanged
is the same in one's complement. -/
theorem verify_changed (changed : List Byte) {x y : Nat} (h : ctx.Connects peerAddr localAddr)
    (hmin : headerLen ≤ sent.length) (hmax : sent.length ≤ maxIpPayloadLen)
    (hlocal : localAddr ≠ 0) (hpeer : peerAddr ≠ 0) (hlocation : location &&& 2 = 0)
    (hlen : changed.length = sent.length)
    (hsent : load16 sent thSumOffset = some (checksumOf localAddr peerAddr sent))
    (hload : load16 changed thSumOffset = load16 sent thSumOffset)
    (hsum : hostSum sent + y = hostSum changed + x) (hx : x ≤ 65535) (hy : y ≤ 65535) :
    mysockVerifyChecksum ctx location changed =
      .ok (decide (x = y ∨ (x = 0 ∧ y = 65535) ∨ (x = 65535 ∧ y = 0))) := by
  have hadd := @segmentSum_add localAddr peerAddr _ _ hsent
  have hadd' := @segmentSum_add localAddr peerAddr _ _ (hload.trans hsent)
  rw [hostSum_append ⟨6, rfl⟩] at hadd hadd'
  rw [hlen] at hadd'
  have hexchange : segmentSum localAddr peerAddr sent + y =
      segmentSum localAddr peerAddr changed + x := by omega
  rw [mysockVerifyChecksum_eq h (hlen ▸ hmin) (hlen ▸ hmax) hpeer hlocal hlocation, hload, hsent]
  apply congrArg Except.ok
  rw [decide_eq_decide, Option.some.injEq, checksumOf_eq_iff]
  exact mod_eq_iff_of_exchange hexchange hx hy

/-- A word elsewhere is no part of the checksum field. -/
theorem load16_of_word (heven : Even pre.length) (hne : pre.length ≠ thSumOffset)
    (x y : BitVec 16) :
    load16 (pre ++ le16 y ++ post) thSumOffset = load16 (pre ++ le16 x ++ post) thSumOffset := by
  have hget (i : Nat) (hi : i ≠ pre.length) (hi' : i ≠ pre.length + 1) :
      (pre ++ le16 y ++ post)[i]? = (pre ++ le16 x ++ post)[i]? := by
    rcases Nat.lt_or_ge i pre.length with hlt | hge
    · rw [List.append_assoc, List.append_assoc, List.getElem?_append_left hlt,
        List.getElem?_append_left hlt]
    · have hlen (z : BitVec 16) : (pre ++ le16 z).length = pre.length + 2 := by simp [le16]
      rw [List.getElem?_append_right (by rw [hlen]; omega),
        List.getElem?_append_right (by rw [hlen]; omega), hlen, hlen]
  obtain ⟨k, hk⟩ := heven
  rw [thSumOffset] at hne ⊢
  simp only [load16]
  rw [hget 16 (by omega) (by omega), hget 17 (by omega) (by omega)]

/-- Another word elsewhere is noticed, but for the two zeros of one's complement. -/
theorem verify_word (x y : BitVec 16) (h : ctx.Connects peerAddr localAddr)
    (hmin : headerLen ≤ (pre ++ le16 x ++ post).length)
    (hmax : (pre ++ le16 x ++ post).length ≤ maxIpPayloadLen)
    (hlocal : localAddr ≠ 0) (hpeer : peerAddr ≠ 0) (hlocation : location &&& 2 = 0)
    (hsent : load16 (pre ++ le16 x ++ post) thSumOffset =
      some (checksumOf localAddr peerAddr (pre ++ le16 x ++ post)))
    (heven : Even pre.length) (hne : pre.length ≠ thSumOffset) :
    mysockVerifyChecksum ctx location (pre ++ le16 y ++ post) =
      .ok (decide (x = y ∨ (x = 0 ∧ y = 0xffff) ∨ (x = 0xffff ∧ y = 0))) := by
  have hx := x.isLt
  have hy := y.isLt
  have hzero (z : BitVec 16) : z.toNat = 0 ↔ z = 0 := BitVec.toNat_inj (y := 0)
  have hones (z : BitVec 16) : z.toNat = 65535 ↔ z = 0xffff := BitVec.toNat_inj (y := 0xffff)
  have hword (z : BitVec 16) : hostSum (pre ++ le16 z ++ post) =
      hostSum pre + z.toNat + hostSum post := by
    rw [List.append_assoc, hostSum_append heven, hostSum_append ⟨1, rfl⟩, hostSum_le16,
      Nat.add_assoc]
  have hsum : hostSum (pre ++ le16 x ++ post) + y.toNat =
      hostSum (pre ++ le16 y ++ post) + x.toNat := by
    rw [hword, hword]
    omega
  calc mysockVerifyChecksum ctx location (pre ++ le16 y ++ post)
      = .ok (decide (x.toNat = y.toNat ∨ (x.toNat = 0 ∧ y.toNat = 65535) ∨
          (x.toNat = 65535 ∧ y.toNat = 0))) :=
        verify_changed _ h hmin hmax hlocal hpeer hlocation (by simp [le16]) hsent
          (load16_of_word heven hne x y) hsum (by omega) (by omega)
    _ = .ok (decide (x = y ∨ (x = 0 ∧ y = 0xffff) ∨ (x = 0xffff ∧ y = 0))) := by
        apply congrArg Except.ok
        rw [decide_eq_decide, BitVec.toNat_inj, hzero, hzero, hones, hones]

/-- So is another last byte of a segment of odd length. -/
theorem verify_odd (b c : Byte) (h : ctx.Connects peerAddr localAddr)
    (hmin : headerLen ≤ (pre ++ [b]).length) (hmax : (pre ++ [b]).length ≤ maxIpPayloadLen)
    (hlocal : localAddr ≠ 0) (hpeer : peerAddr ≠ 0) (hlocation : location &&& 2 = 0)
    (hsent : load16 (pre ++ [b]) thSumOffset = some (checksumOf localAddr peerAddr (pre ++ [b])))
    (heven : Even pre.length) :
    mysockVerifyChecksum ctx location (pre ++ [c]) = .ok (decide (b = c)) := by
  have hb := b.isLt
  have hc := c.isLt
  have hbyte (d : Byte) : hostSum (pre ++ [d]) = hostSum pre + d.toNat := by
    rw [hostSum_append heven]
    simp [hostSum, pairSum]
  have hload (d : Byte) : load16 (pre ++ [d]) thSumOffset = load16 pre thSumOffset := by
    have hpre : thSumOffset + 2 ≤ pre.length := by
      rw [List.length_append, List.length_singleton, headerLen] at hmin
      rw [thSumOffset]
      omega
    simp only [load16]
    rw [List.getElem?_append_left (by omega), List.getElem?_append_left (by omega)]
  have hsum : hostSum (pre ++ [b]) + c.toNat = hostSum (pre ++ [c]) + b.toNat := by
    rw [hbyte, hbyte]
    omega
  calc mysockVerifyChecksum ctx location (pre ++ [c])
      = .ok (decide (b.toNat = c.toNat ∨ (b.toNat = 0 ∧ c.toNat = 65535) ∨
          (b.toNat = 65535 ∧ c.toNat = 0))) :=
        verify_changed _ h hmin hmax hlocal hpeer hlocation (by simp) hsent
          (by rw [hload, hload]) hsum (by omega) (by omega)
    _ = .ok (decide (b = c)) := by
        apply congrArg Except.ok
        rw [decide_eq_decide, ← BitVec.toNat_inj]
        omega

/-- The checksum of the segment that is sent is the one that was put in. -/
theorem segmentSum_sent (hroom : thSumOffset + 2 ≤ packet.length) (t : BitVec 16) :
    segmentSum srcAddr dstAddr
      (packet.take thSumOffset ++ le16 t ++ packet.drop (thSumOffset + 2)) =
        segmentSum srcAddr dstAddr packet := by
  have hfront : (packet.take thSumOffset).length = thSumOffset :=
    List.length_take_of_le (by omega)
  have hlen : (packet.take thSumOffset ++ le16 t ++ packet.drop (thSumOffset + 2)).length =
      packet.length := by
    rw [List.length_append, List.length_append, hfront, List.length_drop]
    simp only [le16, List.length_cons, List.length_nil]
    omega
  have htwo : (packet.take thSumOffset ++ le16 t).length = thSumOffset + 2 := by
    rw [List.length_append, hfront]
    rfl
  rw [segmentSum, hlen, List.drop_left' htwo, List.append_assoc, List.take_left' hfront, segmentSum]

end Protects

/-- A segment between two hosts that know their own address and that of the other is protected. -/
theorem protects {sender receiver : NetworkState} {location' : Nat}
    (hmin : headerLen ≤ packet.length) (hmax : packet.length ≤ maxIpPayloadLen)
    (hsender : sender.Connects localAddr peerAddr) (hreceiver : receiver.Connects peerAddr localAddr)
    (hlocal : localAddr ≠ 0) (hpeer : peerAddr ≠ 0) (hlocation : location &&& 2 = 0)
    (hlocation' : location' &&& 2 = 0) :
    ∃ sent, Protects sender receiver location location' localAddr peerAddr packet sent := by
  have hroom : thSumOffset + 2 ≤ packet.length := le_trans (by decide) hmin
  have hset := mysockSetChecksum_eq hsender hmin hmax hlocal hpeer hlocation
  have hsegment := @segmentSum_sent localAddr peerAddr packet hroom
    (checksumOf localAddr peerAddr packet)
  have hlen : (packet.take thSumOffset ++ le16 (checksumOf localAddr peerAddr packet) ++
      packet.drop (thSumOffset + 2)).length = packet.length := by
    rw [List.length_append, List.length_append, List.length_take_of_le (by omega),
      List.length_drop]
    simp only [le16, List.length_cons, List.length_nil]
    omega
  have hfield : load16 (packet.take thSumOffset ++ le16 (checksumOf localAddr peerAddr packet) ++
      packet.drop (thSumOffset + 2)) thSumOffset = some (checksumOf localAddr peerAddr packet) := by
    rw [List.append_assoc]
    exact load16_le16 _ _ (List.length_take_of_le (by omega))
  generalize packet.take thSumOffset ++ le16 (checksumOf localAddr peerAddr packet) ++
    packet.drop (thSumOffset + 2) = sent at hset hsegment hlen hfield
  have hown : checksumOf localAddr peerAddr sent = checksumOf localAddr peerAddr packet := by
    rw [checksumOf, hsegment, checksumOf]
  have hminSent : headerLen ≤ sent.length := hlen ▸ hmin
  have hmaxSent : sent.length ≤ maxIpPayloadLen := hlen ▸ hmax
  have hsent : load16 sent thSumOffset = some (checksumOf localAddr peerAddr sent) := by
    rw [hfield, hown]
  have hle := fold_le (Nat.le_refl (segmentSum localAddr peerAddr packet))
  -- the sum with the checksum in it
  have htotal : hostSum (pseudoHeader localAddr peerAddr packet.length ++ sent) =
      segmentSum localAddr peerAddr packet + (65535 - fold (segmentSum localAddr peerAddr packet)
        (segmentSum localAddr peerAddr packet)) := by
    have hadd := @segmentSum_add localAddr peerAddr _ _ hfield
    rw [hlen, hsegment, checksumOf, BitVec.toNat_ofNat, Nat.mod_eq_of_lt (by omega)] at hadd
    exact hadd.symm
  exists sent
  constructor
  case set => exact hset
  case accepted =>
    rw [mysockVerifyChecksum_eq hreceiver hminSent hmaxSent hpeer hlocal hlocation',
      decide_eq_true hsent]
  case small =>
    have hbound := hostSum_le (pseudoHeader localAddr peerAddr packet.length ++ sent)
    rw [List.length_append, pseudoHeader_length] at hbound
    rw [maxIpPayloadLen] at hmaxSent
    omega
  case sum =>
    rw [htotal]
    exact (fold_eq_max_iff (Nat.le_refl _)).mpr (add_complement (Nat.le_refl _))
  case folded =>
    rw [mysockTcpChecksum_eq hmin hmax hlocal hpeer hlocation]
    apply congrArg Except.ok
    apply BitVec.eq_of_toNat_eq
    rw [BitVec.toNat_not, BitVec.toNat_ofNat, BitVec.toNat_ofNat]
    omega
  case word =>
    intro pre x y post heq heven hne
    subst heq
    exact verify_word x y hreceiver hminSent hmaxSent hlocal hpeer hlocation' hsent heven hne
  case odd =>
    intro pre b c heq heven
    subst heq
    exact verify_odd b c hreceiver hminSent hmaxSent hlocal hpeer hlocation' hsent heven

/-- Two hosts and a segment of 21 bytes. -/
theorem protects_odd : ∃ sent, Protects ⟨afInet, 2, 16, true, some 1⟩ ⟨afInet, 1, 16, true, some 2⟩
    0 4 1 2 (List.replicate 21 7) sent :=
  protects (by decide) (by decide) ⟨rfl, rfl, by decide, rfl, rfl⟩ ⟨rfl, rfl, by decide, rfl, rfl⟩
    (by decide) (by decide) (by decide) (by decide)

end TcpSum

end NetworkStack.Stcp
