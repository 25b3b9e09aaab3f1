import NetworkStack.Router.Checksum
import NetworkStack.Router.IpBranch

/-!
# The ICMP errors of the router

`ICMP` copies the twenty bytes of the offending IP header that its struct has, the header
length among them, and leaves the options out. A receiver looks for the ICMP message where
the header length says it is.
-/

namespace NetworkStack.Router

open Bytes Buffer Checksum

variable {sr : SrInstance} {interface : IfName} {inter : SrIf}

/-- The length of the IP header as the frame has it, in bytes. -/
def headerLen (frame : List Byte) : Nat := 4 * ((frame.getD 14 0) &&& 0x0f).toNat

/-- `ip_len` of the frame. -/
def ipLenOf (frame : List Byte) : Nat := ((load16 frame 16).elim 0 swap16).toNat

/-- The IP header of a frame, with its options. -/
def headerOf (frame : List Byte) : List Byte := (frame.drop etherLen).take (headerLen frame)

/-- What a receiver takes for the ICMP message: the bytes of the IP packet behind its header. -/
def messageOf (frame : List Byte) : List Byte :=
  ((frame.drop etherLen).take (ipLenOf frame)).drop (headerLen frame)

/-- The frame is the ICMP error for the packet, from the interface. -/
structure WellFormedError (packet frame : List Byte) (inter : SrIf) (type code : Byte) : Prop where
  dhost : load48 frame 0 = load48 packet 6
  shost : load48 frame 6 = some inter.addr
  ipSrc : load32 frame 26 = some inter.ip
  ipDst : load32 frame 30 = load32 packet 26
  proto : load8 frame 23 = some ipProtocolIcmp
  ipLen : ipLenOf frame = frame.length - etherLen
  ipSum : Verifies (headerOf frame)
  icmpSum : Verifies (messageOf frame)
  kind : (messageOf frame).take 2 = [type, code]
  /-- The ICMP data, behind the eight bytes of the ICMP header. -/
  data : (messageOf frame).drop 8 = (packet.drop etherLen).take 28

theorem errorMessage_length (type code : Byte) (unused : BitVec 32) {quoted : List Byte}
    (h : quoted.length = 28) : (errorMessage type code unused quoted).length = 36 := by
  simp [errorMessage, le16, le32, h]

/-- The checksum of the whole message. -/
theorem verifies_errorMessage (type code : Byte) (unused : BitVec 32) {quoted : List Byte}
    (h : quoted.length = 28) : Verifies (errorMessage type code unused quoted) := by
  have hzero : [type, code, 0, 0] ++ le32 unused ++ quoted =
      [type, code] ++ le16 0 ++ (le32 unused ++ quoted) := rfl
  rw [errorMessage, hzero]
  apply verifies_cksum
  · simp
  · simp [le16, le32, h]

section Frame

variable (dhost shost : Mac) (ip : SrIpHdr) (payload : List Byte)

theorem headerLen_ipFrame :
    headerLen (ipFrame dhost shost ip payload) = 4 * (ip.ipVhl &&& 0x0f).toNat := rfl

theorem ipLenOf_ipFrame :
    ipLenOf (ipFrame dhost shost ip payload) = (swap16 ip.ipLen).toNat := by
  rw [ipLenOf, load_ipFrame_len]
  rfl

/-- What is behind the header of an error, wherever its header length puts that. -/
theorem messageOf_error (src : Addr) {message : List Byte} (h : message.length = 36) :
    messageOf (ipFrame dhost shost (ip.error src) message) =
      ((ip.error src).toBytes ++ message).drop (4 * (ip.ipVhl &&& 0x0f).toNat) := by
  have hlen : ipLenOf (ipFrame dhost shost (ip.error src) message) = 56 := by
    rw [ipLenOf_ipFrame]
    exact congrArg BitVec.toNat (swap16_swap16 56)
  have hhl : headerLen (ipFrame dhost shost (ip.error src) message) =
      4 * (ip.ipVhl &&& 0x0f).toNat := headerLen_ipFrame _ _ _ _
  rw [messageOf, hlen, hhl, ipFrame_drop, List.take_of_length_le]
  rw [List.length_append, SrIpHdr.toBytes_length, h]

end Frame

/-- The error for a packet is well formed exactly if the packet's IP header has no options. -/
theorem icmp_wellFormed_iff {packet : List Byte}
    (htype : load16 packet 12 = some (swap16 ethertypeIp)) (hlen : etherLen + 28 ≤ packet.length)
    (hinter : srGetInterface sr interface = some inter) (type code : Byte) (unused : BitVec 32) :
    ∃ call, icmp sr packet type code interface unused = some call ∧ call.iface = interface ∧
      (WellFormedError packet call.buf inter type code ↔ headerLen packet = 20) := by
  obtain ⟨dhost, shost, ip, payload, rfl⟩ := exists_ipFrame htype (le_trans (by decide) hlen)
  have hpayload : 8 ≤ payload.length := by
    rw [ipFrame_length, etherLen] at hlen
    omega
  rw [icmp_ipFrame hinter, if_pos hpayload]
  refine ⟨_, rfl, rfl, ?_⟩
  have hquoted : (ip.toBytes ++ payload.take 8).length = 28 := by
    rw [List.length_append, SrIpHdr.toBytes_length, List.length_take, min_eq_left hpayload]
  have hmessage := errorMessage_length type code unused hquoted
  have hbehind := messageOf_error shost inter.addr ip inter.ip hmessage
  have hdata : ((ipFrame dhost shost ip payload).drop etherLen).take 28 =
      ip.toBytes ++ payload.take 8 := by
    rw [ipFrame_drop, List.take_append, SrIpHdr.toBytes_length,
      List.take_of_length_le (by rw [SrIpHdr.toBytes_length]; omega)]
  rw [headerLen_ipFrame]
  constructor
  · -- with another header length the data are not 28 bytes
    intro h
    have hcount := congrArg List.length h.data
    rw [hbehind, hdata, hquoted, List.drop_drop, List.length_drop, List.length_append,
      SrIpHdr.toBytes_length, hmessage] at hcount
    omega
  · intro hhl
    have hbody : messageOf (ipFrame shost inter.addr (ip.error inter.ip)
        (errorMessage type code unused (ip.toBytes ++ payload.take 8))) =
        errorMessage type code unused (ip.toBytes ++ payload.take 8) := by
      rw [hbehind, hhl]
      exact List.drop_left' (SrIpHdr.toBytes_length _)
    have hheader : headerOf (ipFrame shost inter.addr (ip.error inter.ip)
        (errorMessage type code unused (ip.toBytes ++ payload.take 8))) =
        (ip.error inter.ip).toBytes := by
      have hhl' : 4 * ((ip.error inter.ip).ipVhl &&& 0x0f).toNat = 20 := hhl
      rw [headerOf, headerLen_ipFrame, hhl', ipFrame_drop]
      exact List.take_left' (SrIpHdr.toBytes_length _)
    refine ⟨?_, load_ipFrame_shost _ _ _ _, load_ipFrame_src _ _ _ _, ?_, load_ipFrame_p _ _ _ _,
      ?_, ?_, ?_, ?_, ?_⟩
    · rw [load_ipFrame_shost]
      exact congrArg some (ofLe48_extract shost)
    · rw [load_ipFrame_dst, load_ipFrame_src]
      rfl
    · rw [ipLenOf_ipFrame, ipFrame_length, hmessage]
      exact congrArg BitVec.toNat (swap16_swap16 56)
    · rw [hheader]
      exact verifies_header _
    · rw [hbody]
      exact verifies_errorMessage type code unused hquoted
    · rw [hbody]
      rfl
    · rw [hbody, hdata]
      rfl

/-- The IP header of a UDP packet from 10.0.1.100, with this version and header length. -/
def udpHdr (vhl : Byte) : SrIpHdr where
  ipVhl := vhl
  ipTos := 0
  ipLen := swap16 32
  ipId := 7
  ipOff := 0x0040
  ipTtl := 1
  ipP := 17
  ipSum := 0
  ipSrc := hostRoute.dest
  ipDst := eth3.ip

/-- Twelve bytes behind the twenty of the header. -/
def udpFrame (vhl : Byte) : List Byte :=
  ipFrame eth3.addr 9 (udpHdr vhl) [1, 1, 1, 0, 0, 53, 0, 53, 0, 8, 0, 0]

theorem icmp_wellFormed_noOptions :
    ∃ call, icmp twoRoutes (udpFrame 0x45) 11 0 eth3.name 0 = some call ∧
      WellFormedError (udpFrame 0x45) call.buf eth3 11 0 := by
  obtain ⟨call, hcall, -, hiff⟩ := @icmp_wellFormed_iff twoRoutes eth3.name eth3 (udpFrame 0x45)
    (by decide) (by decide) (by decide) 11 0 0
  exact ⟨call, hcall, hiff.mpr (by decide)⟩

/-- With four bytes of options, the checksum of the header that the error has does not verify,
and the data are 24 bytes. -/
theorem icmp_options_not_wellFormed :
    ∃ call, icmp twoRoutes (udpFrame 0x46) 11 0 eth3.name 0 = some call ∧
      ¬Verifies (headerOf call.buf) ∧ ((messageOf call.buf).drop 8).length = 24 ∧
      ¬WellFormedError (udpFrame 0x46) call.buf eth3 11 0 := by
  obtain ⟨call, hcall⟩ : ∃ call, icmp twoRoutes (udpFrame 0x46) 11 0 eth3.name 0 = some call :=
    Option.isSome_iff_exists.mp (by decide +kernel)
  have hbad : ((icmp twoRoutes (udpFrame 0x46) 11 0 eth3.name 0).all fun call =>
      ¬Verifies (headerOf call.buf) ∧ ((messageOf call.buf).drop 8).length = 24) = true := by
    decide +kernel
  rw [hcall] at hbad
  obtain ⟨hsum, hlen⟩ := of_decide_eq_true hbad
  exact ⟨call, hcall, hsum, hlen, fun h => hsum h.ipSum⟩

end NetworkStack.Router
