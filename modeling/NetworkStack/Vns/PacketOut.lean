import NetworkStack.Vns.SrHandler

/-!
# Frames for a switch

`ofp_packet_out` of POX's OpenFlow library and the bytes it is packed to. `none` is an exception:
a number that does not fit its field, or a message that breaks its own assertion.
-/

namespace NetworkStack.Vns

open Bytes

/-- `OFP_VERSION`. -/
def ofpVersion : Int := 1

/-- `OFPT_PACKET_OUT`. -/
def ofptPacketOut : Int := 13

/-- `OFPAT_OUTPUT`. -/
def ofpatOutput : Int := 0

/-- `OFPP_CONTROLLER`. -/
def ofppController : Int := 0xfffd

/-- `OFPP_NONE`. -/
def ofppNone : Int := 0xffff

/-- `_nextXID`, which is at most `MAX_XID`. -/
abbrev Xid := BitVec 31

/-- `generateXID`: the number, and the counter after it, which moves on by two. -/
def generateXid (nextXid : Xid) : Xid × Xid := (nextXid, nextXid + 1 + 1)

/-- `b''.join`. -/
def join : List (Option (List Byte)) → Option (List Byte)
  | [] => some []
  | part :: rest => do return (← part) ++ (← join rest)

structure OfpActionOutput where
  port : Int
  maxLen : Int
  deriving DecidableEq, Repr

/-- `ofp_action_output.pack`. -/
def OfpActionOutput.pack (action : OfpActionOutput) : Option (List Byte) :=
  let maxLen := if action.port ≠ ofppController then 0 else action.maxLen
  join [packH ofpatOutput, packH 8, packH action.port, packH maxLen]

/-- `ofp_header.pack`. -/
def ofpHeaderPack (headerType length : Int) (xid : Xid) : Option (List Byte) :=
  join [packB ofpVersion, packB headerType, packH length, packI xid.toNat]

structure OfpPacketOut where
  bufferId : Int
  inPort : Int
  actions : List OfpActionOutput
  data : List Byte
  deriving DecidableEq, Repr

namespace OfpPacketOut

/-- `_assert`, and the actions. -/
def packActions (msg : OfpPacketOut) : Option (List Byte) :=
  if msg.bufferId ≠ -1 ∧ msg.data ≠ [] then none
  else join (msg.actions.map OfpActionOutput.pack)

/-- `pack`, and the next transaction id. One is used up when the header is packed. -/
def pack (msg : OfpPacketOut) (nextXid : Xid) : Option (List Byte) × Xid :=
  match msg.packActions with
  | none => (none, nextXid)
  | some actions =>
      let length := 16 + actions.length + msg.data.length
      let (xid, nextXid) := generateXid nextXid
      (join [ofpHeaderPack ofptPacketOut length xid, packI (msg.bufferId % 2 ^ 32),
        packH msg.inPort, packH actions.length, some actions, some msg.data], nextXid)

end OfpPacketOut

/-- The message of `_handle_SRPacketOut`. -/
def ofpPacketOut (event : SrPacketOut) : OfpPacketOut where
  bufferId := -1
  inPort := ofppNone
  actions := [{ port := event.port, maxLen := 0xffff }]
  data := event.pkt

/-! ## Frames that can be sent -/

/-- The numbers of the message fit their fields. -/
def SrPacketOut.Fits (event : SrPacketOut) : Prop :=
  event.port < 2 ^ 16 ∧ 24 + event.pkt.length < 2 ^ 16

theorem join_isSome_iff {parts : List (Option (List Byte))} :
    (join parts).isSome ↔ ∀ part ∈ parts, part.isSome := by
  induction parts with
  | nil => exact iff_of_true rfl (List.forall_mem_nil _)
  | cons part rest ih =>
      rw [List.forall_mem_cons, ← ih, join]
      cases part with
      | none => exact iff_of_false Bool.false_ne_true fun h => Bool.false_ne_true h.1
      | some bytes => cases join rest <;> simp

theorem packH_of_fits {x : Int} (h : 0 ≤ x ∧ x < 2 ^ 16) :
    packH x = some (be16 (BitVec.ofInt 16 x)) := if_pos h

theorem packI_xid (xid : Xid) : (packI xid.toNat).isSome := by
  have hlt := xid.isLt
  rw [packI_isSome_iff]
  omega

theorem packI_emod (x : Int) : (packI (x % 2 ^ 32)).isSome := by
  rw [packI_isSome_iff]
  exact ⟨Int.emod_nonneg x (by decide), Int.emod_lt_of_pos x (by decide)⟩

theorem ofpHeaderPack_isSome_iff {length : Int} {xid : Xid} :
    (ofpHeaderPack ofptPacketOut length xid).isSome ↔ 0 ≤ length ∧ length < 2 ^ 16 := by
  have hversion : (packB ofpVersion).isSome := rfl
  have htype : (packB ofptPacketOut).isSome := rfl
  rw [ofpHeaderPack, join_isSome_iff, ← packH_isSome_iff]
  simp [hversion, htype, packI_xid]

/-- The one action takes eight bytes. -/
theorem packActions_ofpPacketOut {event : SrPacketOut} (h : event.port < 2 ^ 16) :
    ∃ actions, (ofpPacketOut event).packActions = some actions ∧ actions.length = 8 := by
  let maxLen : Int := if (event.port : Int) ≠ ofppController then 0 else 0xffff
  have hmax : packH maxLen = some (be16 (BitVec.ofInt 16 maxLen)) := by
    refine packH_of_fits ?_
    by_cases hport : (event.port : Int) = ofppController <;> simp [maxLen, hport]
  have hport : packH (event.port : Int) = some (be16 (BitVec.ofInt 16 event.port)) :=
    packH_of_fits (by omega)
  have haction : OfpActionOutput.pack ⟨event.port, 0xffff⟩ =
      join [packH ofpatOutput, packH 8, packH event.port, packH maxLen] := rfl
  have hjoin : (ofpPacketOut event).packActions =
      join [OfpActionOutput.pack ⟨event.port, 0xffff⟩] := by
    rw [OfpPacketOut.packActions, if_neg fun h => h.1 rfl]
    rfl
  rw [hjoin, haction, hport, hmax]
  exact ⟨_, rfl, rfl⟩

theorem port_of_packActions {event : SrPacketOut} {actions : List Byte}
    (h : (ofpPacketOut event).packActions = some actions) : event.port < 2 ^ 16 := by
  have hsome : (join [OfpActionOutput.pack ⟨event.port, 0xffff⟩]).isSome := by
    rw [OfpPacketOut.packActions, if_neg fun h => h.1 rfl] at h
    exact Option.isSome_iff_exists.mpr ⟨_, h⟩
  have haction := join_isSome_iff.mp hsome _ (List.mem_singleton_self _)
  rw [OfpActionOutput.pack, join_isSome_iff] at haction
  have hport := haction (packH event.port) (by simp)
  rw [packH_isSome_iff] at hport
  omega

theorem OfpPacketOut.pack_of_actions {msg : OfpPacketOut} {actions : List Byte}
    (h : msg.packActions = some actions) (nextXid : Xid) :
    (msg.pack nextXid).1 = join [
      ofpHeaderPack ofptPacketOut (16 + actions.length + msg.data.length) nextXid,
      packI (msg.bufferId % 2 ^ 32), packH msg.inPort, packH actions.length, some actions,
      some msg.data] := by
  rw [OfpPacketOut.pack, h]
  rfl

/-- Only the header depends on the frame. -/
theorem OfpPacketOut.pack_isSome_iff {msg : OfpPacketOut} {actions : List Byte}
    (h : msg.packActions = some actions) (hin : (packH msg.inPort).isSome)
    (hcount : actions.length < 2 ^ 16) (nextXid : Xid) :
    (msg.pack nextXid).1.isSome ↔ 16 + actions.length + msg.data.length < 2 ^ 16 := by
  have hcount' : (packH (actions.length : Int)).isSome := by
    rw [packH_isSome_iff]
    omega
  have hheader : (ofpHeaderPack ofptPacketOut (16 + actions.length + msg.data.length)
      nextXid).isSome ↔ 16 + actions.length + msg.data.length < 2 ^ 16 := by
    rw [ofpHeaderPack_isSome_iff]
    omega
  rw [OfpPacketOut.pack_of_actions h, join_isSome_iff, ← hheader]
  simp only [List.forall_mem_cons, packI_emod, hin, hcount', Option.isSome_some, true_and]
  exact and_iff_left (List.forall_mem_nil _)

/-- A frame is packed exactly if its port and the length of its message have 16 bits. -/
theorem pack_isSome_iff_fits (event : SrPacketOut) (nextXid : Xid) :
    ((ofpPacketOut event).pack nextXid).1.isSome ↔ event.Fits := by
  cases hactions : (ofpPacketOut event).packActions with
  | none =>
      refine iff_of_false ?_ fun hfits => ?_
      · rw [OfpPacketOut.pack, hactions]
        exact Bool.false_ne_true
      · obtain ⟨actions, hsome, -⟩ := packActions_ofpPacketOut hfits.1
        rw [hactions] at hsome
        cases hsome
  | some actions =>
      have hport := port_of_packActions hactions
      obtain ⟨actions', hsome, hlen⟩ := packActions_ofpPacketOut hport
      obtain rfl := Option.some.inj (hactions.symm.trans hsome)
      have hdata : (ofpPacketOut event).data = event.pkt := rfl
      have hin : (packH (ofpPacketOut event).inPort).isSome := rfl
      rw [OfpPacketOut.pack_isSome_iff hactions hin (by omega), hlen, hdata, SrPacketOut.Fits]
      constructor
      · intro h
        exact ⟨hport, by omega⟩
      · rintro ⟨-, h⟩
        omega

end NetworkStack.Vns
