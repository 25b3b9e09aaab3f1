import NetworkStack.Router.VnsComm
import NetworkStack.Vns.Ltprotocol

/-!
# From the router to the controller

The router writes packed C structures, the controller reads them with `struct`. What the
router put into a message is what the controller gets out of it.
-/

namespace NetworkStack.Vns

open Bytes Decimal Framing Router

/-- What the router sends, and the message that it stands for. The lengths of a frame and of
the user's name are in 32-bit integers. -/
inductive Emitted : List Byte → VnsMessage → Prop
  | connect {topoId : BitVec 16} {template host user : List Byte} (htemplate : Fits 30 template)
      (hhost : Fits idSize host) (huser : Fits idSize user) :
      Emitted (connectMessage topoId template host user)
        (if 0 < template.length then .vnsOpenTemplate template host (setSrcFilters [])
        else .vnsOpen topoId.toNat host user [])
  | authReply {user digest : List Byte} (huser : user.length + 32 < 2 ^ 31)
      (hdigest : digest.length = 20) :
      Emitted (authReplyMessage user digest) (.vnsAuthReply user digest)
  | packet {sr : SrInstance} {call : SendCall} (hsent : srSendPacket sr call = true)
      (hname : Fits 16 call.iface) (hlen : call.buf.length + packetHeaderLen < 2 ^ 32) :
      Emitted (sendPacketBytes sr call) (.vnsPacket call.iface call.buf)

variable {bytes rest : List Byte} {msg : VnsMessage}

/-- A number that the router converts and the controller packs. -/
theorem packI_eq {n : Nat} (h : n < 2 ^ 32) : packI n = some (le32 (swap32 (BitVec.ofNat 32 n))) := by
  rw [packI, if_pos (by omega), le32_swap32, BitVec.ofInt_natCast]

theorem packH_eq (x : BitVec 16) : packH x.toNat = some (le16 (swap16 x)) := by
  have hx := x.isLt
  rw [packH, if_pos (by omega), le16_swap16, BitVec.ofInt_natCast, BitVec.ofNat_toNat,
    BitVec.setWidth_eq]

theorem fits_nil (n : Nat) : Fits n [] := ⟨List.not_mem_nil, Nat.zero_le n⟩

theorem strncpy_eq_packS (s : List Byte) (n : Nat) : strncpy s n = packS n s := rfl

theorem packWithHeader_eq {body : List Byte} (size : Nat) (command : BitVec 32)
    (hbody : msg.pack = some body) (hsize : 8 + body.length = size) (hlt : size < 2 ^ 32)
    (htype : msg.getType = command.toNat) :
    packWithHeader msg =
      some (le32 (swap32 (BitVec.ofNat 32 size)) ++ le32 (swap32 command) ++ body) := by
  have hcommand : packI msg.getType = some (le32 (swap32 command)) := by
    rw [htype, packI_eq command.isLt, BitVec.ofNat_toNat, BitVec.setWidth_eq]
  have hlen : packI (8 + body.length) = some (le32 (swap32 (BitVec.ofNat 32 size))) := by
    rw [← packI_eq hlt, show (8 + body.length : Int) = size by omega]
  rw [packWithHeader, hbody, Option.bind_eq_bind, Option.bind_some, hlen, Option.bind_some, hcommand,
    Option.bind_some, Option.pure_def]

theorem packWithHeader_open (topoId : BitVec 16) (host user : List Byte) :
    packWithHeader (.vnsOpen topoId.toNat host user []) = some (openMessage topoId host user) := by
  have hpack : (VnsMessage.vnsOpen topoId.toNat host user []).pack = some (le16 (swap16 topoId) ++
      be16 0 ++ packS idSize host ++ packS idSize user ++ packS idSize []) := by
    simp only [VnsMessage.pack, packH_eq, Option.bind_eq_bind, Option.bind_some, Option.pure_def]
  have hpad : be16 0 = le16 0 := by decide
  have hpass : packS idSize [] = List.replicate Router.idSize 0 := by decide
  rw [packWithHeader_eq 108 vnsOpen hpack _ (by decide) rfl]
  · simp only [openMessage, hpad, hpass, strncpy_eq_packS, List.append_assoc]
    rfl
  · simp only [List.length_append, packS_length]
    rfl

theorem packWithHeader_authReply {user digest : List Byte} (huser : user.length + 32 < 2 ^ 31)
    (hdigest : digest.length = 20) :
    packWithHeader (.vnsAuthReply user digest) = some (authReplyMessage user digest) := by
  have hpack : (VnsMessage.vnsAuthReply user digest).pack =
      some (le32 (swap32 (BitVec.ofNat 32 user.length)) ++ user ++ digest) := by
    rw [VnsMessage.pack, packI_eq (by omega)]
    rfl
  have hsize : 8 + (le32 (swap32 (BitVec.ofNat 32 user.length)) ++ user ++ digest).length =
      12 + user.length + 20 := by
    simp only [List.length_append, hdigest, le32, List.length_cons, List.length_nil]
    omega
  rw [packWithHeader_eq _ vnsAuthReply hpack hsize (by omega) rfl]
  simp only [authReplyMessage, List.append_assoc]

theorem packWithHeader_packet {call : SendCall}
    (hlen : call.buf.length + packetHeaderLen < 2 ^ 32) :
    packWithHeader (.vnsPacket call.iface call.buf) = some (packetMessage call) := by
  have hsize : 8 + (packS 16 call.iface ++ call.buf).length =
      call.buf.length + packetHeaderLen := by
    rw [List.length_append, packS_length, packetHeaderLen]
    omega
  rw [packWithHeader_eq _ vnsPacket rfl hsize hlen rfl]
  simp only [packetMessage, strncpy_eq_packS, List.append_assoc]

/-- The template message has no filters, which the controller takes for `NO_SRC_FILTERS`. -/
theorem nextMessage_openTemplate {template host : List Byte} (htemplate : Fits 30 template)
    (hhost : Fits idSize host) (rest : List Byte) :
    nextMessage (openTemplateMessage template host ++ rest) =
      .frame (some (.vnsOpenTemplate template host (setSrcFilters []))) rest := by
  have hsize : packI (8 + (packS 30 template ++ packS idSize host).length) =
      some (le32 (swap32 70)) := by
    rw [List.length_append, packS_length, packS_length]
    exact packI_eq (show 70 < 2 ^ 32 by decide)
  have htype : packI 64 = some (le32 (swap32 vnsOpenTemplate)) :=
    packI_eq (show 64 < 2 ^ 32 by decide)
  have hunpack := unpackOpenTemplate_append htemplate hhost
    (show filtersLoop [] (List.length [] / 5) 0 = some [] from rfl)
  rw [List.append_nil] at hunpack
  have hmsg : unpackReceivedMsg 64 (packS 30 template ++ packS idSize host) =
      some (some (.vnsOpenTemplate template host (setSrcFilters []))) :=
    congrArg (Option.map some) hunpack
  rw [← nextMessage_append hsize htype hmsg rest]
  simp only [openTemplateMessage, strncpy_eq_packS, List.append_assoc]
  rfl

theorem nextMessage_emitted (h : Emitted bytes msg) (rest : List Byte) :
    nextMessage (bytes ++ rest) = .frame (some msg) rest := by
  cases h with
  | connect htemplate hhost huser =>
      unfold connectMessage
      split
      · exact nextMessage_openTemplate htemplate hhost rest
      · apply nextMessage_packWithHeader _ (packWithHeader_open _ _ _)
        exact ⟨hhost, huser, fits_nil 32⟩
  | authReply huser hdigest =>
      apply nextMessage_packWithHeader _ (packWithHeader_authReply huser hdigest)
      trivial
  | packet hsent hname hlen =>
      rw [sendPacketBytes, if_pos hsent]
      apply nextMessage_packWithHeader _ (packWithHeader_packet hlen)
      exact hname

/-- Whatever the router sends, and however it is cut into chunks, the controller gets it. -/
theorem dataReceived_emitted {msgs : List VnsMessage} {sent chunks : List (List Byte)}
    (hsent : List.Forall₂ Emitted sent msgs) (hchunks : chunks.flatten = sent.flatten) :
    dataReceived chunks = some (msgs.map some, []) := by
  apply stable_nextMessage.feed_flatten _ hchunks
  rw [List.forall₂_map_left_iff]
  exact hsent.flip.imp fun _ _ h rest => nextMessage_emitted h rest

/-- The only interface of a router. -/
def oneInterface : SrInstance := ⟨[⟨text "eth0", 0, 0⟩], [], srArpcacheInit⟩

/-- A router that authenticates, opens a topology and sends a frame, of which the header
arrives in two pieces. -/
def routerSends : List (List Byte) :=
  let frame := sendPacketBytes oneInterface ⟨.forward, List.replicate 14 0, text "eth0"⟩
  [authReplyMessage (text "user") (List.replicate 20 7) ++
      connectMessage 5 [] (text "vrhost") (text "user") ++ frame.take 9,
    frame.drop 9]

theorem dataReceived_routerSends :
    dataReceived routerSends =
      some ([some (.vnsAuthReply (text "user") (List.replicate 20 7)),
        some (.vnsOpen 5 (text "vrhost") (text "user") []),
        some (.vnsPacket (text "eth0") (List.replicate 14 0))], []) := by
  have hauth : Emitted (authReplyMessage (text "user") (List.replicate 20 7)) _ :=
    .authReply (by decide) (by decide)
  have hconnect : Emitted (connectMessage 5 [] (text "vrhost") (text "user")) _ :=
    .connect (fits_nil 30) ⟨by decide, by decide⟩ ⟨by decide, by decide⟩
  have hpacket : Emitted
      (sendPacketBytes oneInterface ⟨.forward, List.replicate 14 0, text "eth0"⟩) _ :=
    .packet (by decide) ⟨by decide, by decide⟩ (by decide)
  refine dataReceived_emitted (.cons hauth (.cons hconnect (.cons hpacket .nil))) ?_
  simp [routerSends, List.append_assoc]

end NetworkStack.Vns
