import Mathlib.Data.List.Find
import NetworkStack.Router.FrameAccess
import NetworkStack.Router.VnsComm

/-!
# The bytes of a command that are touched

`sr_read_from_server_expect` allocates as many bytes as the length field says, and every handler
takes the buffer for a structure of its own. Here the accesses to that buffer are watched, and so
are the assertions.

## Implementation notes

The length field holds the size of the buffer, so what a handler computes from `mLen` is computed
from the size. The offsets in faults of `sr_handlepacket` count from the start of the frame. What
`sr_log_packet` reads of a frame is inside the length it is given. A host name that does not fit
into `fn` is undefined behaviour, but not an access to the buffer.
-/

namespace NetworkStack.Router

open Bytes Buffer Access Bounded NetworkStack.Computation

def vnsBanner : BitVec 32 := 8

/-- `sizeof(c_packet_ethernet_header)`. -/
def packetEthernetHeaderLen : Nat := 38

/-- A command whose length is accepted, with what the second loop reads. -/
structure Message where
  len : Nat
  accepted : len ≤ 10000
  body : List Byte
  complete : body.length = len - 4

/-- The length of a frame as it is computed, in unsigned arithmetic. -/
def frameLen (len : Nat) : Nat := (len + 2 ^ 32 - packetEthernetHeaderLen + etherLen) % 2 ^ 32

namespace Checked

/-! ## Packets -/

/-- `sr_get_interface` with the name in the buffer. -/
def getInterface (buf : List Byte) : List SrIf → Except Fault (Option SrIf)
  | [] => .ok none
  | i :: rest => do
      if ← strncmpAt (buf.drop baseLen) baseLen (strncpy i.name srIfaceNamelen) then return some i
      else getInterface buf rest

/-- `sr_arp_req_not_for_us`. -/
def srArpReqNotForUs (sr : SrInstance) (buf : List Byte) : Except Fault Bool := do
  let iface ← getInterface buf sr.ifList
  if frameLen buf.length < 42 then return false
  else
    let iface ← asserted iface
    let etherType ← access 36 2 (load16 buf 36)
    if etherType ≠ swap16 ethertypeArp then return false
    else
      let op ← access 44 2 (load16 buf 44)
      if op ≠ swap16 arpOpRequest then return false
      else
        let tip ← access 62 4 (load32 buf 62)
        return tip ≠ iface.ip

/-- The length that `sr_handlepacket` is given, if it is called. -/
def frameToHandle (sr : SrInstance) (buf : List Byte) : Except Fault (Option Nat) := do
  if ← srArpReqNotForUs sr buf then return none else return some (frameLen buf.length)

/-- `sr_get_interface` while a frame is handled: the name is in front of the frame, and may run
into it. -/
def lookupIn (sr : SrInstance) (header frame : List Byte) : Except Fault SrIf := do
  defined (← getInterface (header ++ frame) sr.ifList)

/-- The case `VNSPACKET`. -/
def handleVnsPacket (sr : SrInstance) (buf : List Byte) (env : Env) : Except Fault Outcome := do
  match ← frameToHandle sr buf with
  | none => return .quiet sr 1
  | some n =>
      let packet := (buf.drop packetHeaderLen).take n
      let interface := cString (buf.drop baseLen)
      let (sr, calls) ←
        srHandlepacket sr (lookupIn sr (buf.take packetHeaderLen)) packet interface env
      return { ret := 1, sr := sr, handled := some (packet, interface), calls := calls, sent := [] }

/-! ## Other commands -/

/-- An entry of a `c_hwinfo`, which starts at this place. -/
def hwEntry (buf : List Byte) (start : Nat) (uninit : Mac × Addr) (sr : SrInstance) :
    Except Fault SrInstance := do
  let key ← access start 4 (load32 buf start)
  if swap32 key = hwInterface then
    let value ← access (start + 4) 32 (load buf (start + 4) 32)
    return srAddInterface sr (cString value) uninit
  else if swap32 key = hwEthip then
    let ip ← access (start + 4) 4 (load32 buf (start + 4))
    asserted (srSetEtherIp sr ip)
  else if swap32 key = hwEther then
    let addr ← access (start + 4) 6 (load48 buf (start + 4))
    asserted (srSetEtherAddr sr addr)
  else return sr

/-- The loop of `sr_handle_hwinfo`. -/
def hwinfoLoop (buf : List Byte) (uninit : Mac × Addr) :
    Nat → Nat → SrInstance → Except Fault SrInstance
  | 0, _, sr => .ok sr
  | entries + 1, i, sr => do
      let sr ← hwEntry buf (baseLen + i * hwEntryLen) uninit sr
      hwinfoLoop buf uninit entries (i + 1) sr

/-- `sr_handle_hwinfo`. -/
def srHandleHwinfo (sr : SrInstance) (buf : List Byte) (uninit : Mac × Addr) :
    Except Fault SrInstance :=
  hwinfoLoop buf uninit ((buf.length - baseLen) / hwEntryLen) 0 sr

/-- `sr_handle_rtable`. The length of the table is computed in unsigned arithmetic. -/
def srHandleRtable (session : Session) (buf : List Byte) : Except Fault Bool := do
  let name ← readString buf baseLen
  if idSize < name.length then .error .undefined
  else if session.rtableWritable then
    let n := (buf.length + 2 ^ 32 - 8 - idSize) % 2 ^ 32
    let _rtable ← access (baseLen + idSize) n (load buf (baseLen + idSize) n)
    return true
  else return false

/-- `sr_handle_auth_request` up to its result: the salt is what is behind the header. -/
def srHandleAuthRequest (session : Session) (buf : List Byte) :
    Except Fault (Option (List Byte)) := do
  let salt ← access baseLen (buf.length - baseLen) (load buf baseLen (buf.length - baseLen))
  return session.digest salt

/-- `sr_handle_auth_status`. Only the message of a failure is printed. -/
def srHandleAuthStatus (buf : List Byte) : Except Fault Bool := do
  let authOk ← access baseLen 1 (load8 buf baseLen)
  if authOk = 0 then
    let _msg ← readString buf (baseLen + 1)
    return false
  else return true

/-- The switch of `sr_read_from_server_expect`. -/
def dispatch (sr : SrInstance) (session : Session) (command : BitVec 32) (buf : List Byte)
    (env : Env) (uninit : Mac × Addr) : Except Fault Outcome := do
  if command = vnsPacket then handleVnsPacket sr buf env
  else if command = vnsClose then
    let _reason ← readString buf baseLen
    return .quiet sr 0
  else if command = vnsBanner then
    let _banner ← readString buf baseLen
    return .quiet sr 1
  else if command = vnsHwinfo then
    let sr ← srHandleHwinfo sr buf uninit
    return .quiet sr (if srVerifyRoutingTable sr ≠ 0 then -1 else 1)
  else if command = vnsRtable then
    return .quiet sr (if ← srHandleRtable session buf then 1 else -1)
  else if command = vnsAuthRequest then
    match ← srHandleAuthRequest session buf with
    | some digest => return { Outcome.quiet sr 1 with sent := authReplyMessage session.user digest }
    | none => return .quiet sr (-1)
  else if command = vnsAuthStatus then
    return .quiet sr (if ← srHandleAuthStatus buf then 1 else -1)
  else return .quiet sr 1

/-- `sr_read_from_server_expect` behind the check of the length. The length is stored in front,
the body is read behind it, and the type is turned into the order of the host in its place. -/
def readMessage (sr : SrInstance) (session : Session) (expectedCmd : BitVec 32) (m : Message)
    (env : Env) (uninit : Mac × Addr) : Except Fault Outcome := do
  let buf := List.replicate m.len 0
  let buf ← access 0 4 (store32 buf 0 (swap32 (BitVec.ofNat 32 m.len)))
  let buf ← access 4 (m.len - 4) (store buf 4 m.body)
  let type ← access 4 4 (load32 buf 4)
  let command := swap32 type
  let buf ← access 4 4 (store32 buf 4 command)
  if expectedCmd ≠ 0 ∧ command ≠ expectedCmd ∧ command ≠ vnsClose then return .quiet sr (-1)
  else dispatch sr session command buf env uninit

end Checked

/-- The name in the buffer is that of the interface. -/
def Names (buf : List Byte) (i : SrIf) : Prop :=
  ((buf.drop baseLen).takeWhile (· ≠ 0)).take srIfaceNamelen =
    (strncpy i.name srIfaceNamelen).takeWhile (· ≠ 0)

instance (buf : List Byte) (i : SrIf) : Decidable (Names buf i) :=
  inferInstanceAs (Decidable (_ = _))

variable {sr : SrInstance} {session : Session} {buf : List Byte} {env : Env} {uninit : Mac × Addr}

/-! ## The name of the interface -/

theorem strncpy_length (src : List Byte) (n : Nat) : (strncpy src n).length = n := by
  rw [strncpy, List.length_append, List.length_take, List.length_replicate]
  omega

/-- The name of an interface is compared, up to where the buffer ends. -/
theorem strncmpAt_name (buf : List Byte) (i : SrIf) :
    strncmpAt (buf.drop baseLen) baseLen (strncpy i.name srIfaceNamelen) =
      if buf.drop baseLen <+: strncpy i.name srIfaceNamelen ∧ 0 ∉ buf.drop baseLen ∧
          (buf.drop baseLen).length < srIfaceNamelen then
        .error (.outside (baseLen + (buf.drop baseLen).length) 1)
      else .ok (decide (Names buf i)) := by
  rw [strncmpAt_eq, strncpy_length]
  rfl

theorem getInterface_eq {ifs : List SrIf}
    (h : 0 ∈ buf.drop baseLen ∨ srIfaceNamelen ≤ (buf.drop baseLen).length ∨
      ∀ i ∈ ifs, ¬buf.drop baseLen <+: strncpy i.name srIfaceNamelen) :
    Checked.getInterface buf ifs = .ok (ifs.find? (Names buf ·)) := by
  induction ifs with
  | nil => rfl
  | cons j rest ih =>
      have hrest := ih (h.imp_right (Or.imp_right fun hall i hi => hall i (List.mem_cons_of_mem _ hi)))
      have hcond : ¬(buf.drop baseLen <+: strncpy j.name srIfaceNamelen ∧ 0 ∉ buf.drop baseLen ∧
          (buf.drop baseLen).length < srIfaceNamelen) := by
        rintro ⟨hpre, hzero, hlen⟩
        obtain h | h | h := h
        · exact hzero h
        · omega
        · exact h j List.mem_cons_self hpre
      rw [Checked.getInterface, strncmpAt_name, if_neg hcond, List.find?_cons]
      cases decide (Names buf j) with
      | true => rfl
      | false => exact hrest

theorem frameLen_eq {len : Nat} (h : packetHeaderLen ≤ len) (hmax : len ≤ 10000) :
    frameLen len = len - packetHeaderLen := by
  unfold frameLen packetEthernetHeaderLen etherLen
  unfold packetHeaderLen at *
  omega

/-! ## The functions without watching -/

/-- The name in front of a frame ends in its field, and the names of the interfaces are strings. -/
structure NameEnds (sr : SrInstance) (buf : List Byte) : Prop where
  field : 0 ∈ (buf.take packetHeaderLen).drop baseLen
  interfaces : ∀ i ∈ sr.ifList, 0 ∉ i.name

theorem takeWhile_strncpy {name : List Byte} (h : 0 ∉ name) (n : Nat) :
    (strncpy name n).takeWhile (· ≠ 0) = name.take n := by
  have htake : 0 ∉ name.take n := fun hmem => h (List.mem_of_mem_take hmem)
  rw [strncpy, CString.takeWhile_append_of_not_mem htake]
  cases n - name.length with
  | zero => exact List.append_nil _
  | succ k => rw [List.replicate_succ, takeWhile_cons_zero, List.append_nil]

/-- The interface that is found by comparing bytes. -/
theorem find?_names (h : ∀ i ∈ sr.ifList, 0 ∉ i.name) :
    sr.ifList.find? (Names buf ·) = srGetInterface sr (cString (buf.drop baseLen)) := by
  apply List.find?_congr
  intro i hi
  rw [decide_eq_decide, Names, takeWhile_strncpy (h i hi)]
  exact eq_comm

theorem cString_append {a b : List Byte} (h : 0 ∈ a) : cString (a ++ b) = cString a := by
  rw [cString, List.takeWhile_append, if_neg (Nat.ne_of_lt (CString.length_takeWhile_lt h)), cString]

/-- Whatever the frame is, the same interface is found. -/
theorem NameEnds.lookupIn (h : NameEnds sr buf) :
    Checked.lookupIn sr (buf.take packetHeaderLen) =
      fun _ => defined (srGetInterface sr (cString (buf.drop baseLen))) := by
  have hheader : baseLen ≤ (buf.take packetHeaderLen).length := by
    by_contra hshort
    have hfield := h.field
    rw [List.drop_of_length_le (by omega)] at hfield
    cases hfield
  have hname (rest : List Byte) : (buf.take packetHeaderLen ++ rest).drop baseLen =
      (buf.take packetHeaderLen).drop baseLen ++ rest :=
    List.drop_append_of_le_length hheader
  funext frame
  have hzero : 0 ∈ (buf.take packetHeaderLen ++ frame).drop baseLen := by
    rw [hname]
    exact List.mem_append_left _ h.field
  have hstring : cString ((buf.take packetHeaderLen ++ frame).drop baseLen) =
      cString (buf.drop baseLen) := by
    conv_rhs => rw [← List.take_append_drop packetHeaderLen buf]
    rw [hname, hname, cString_append h.field, cString_append h.field]
  rw [Checked.lookupIn, getInterface_eq (.inl hzero), ok_bind, find?_names h.interfaces, hstring]

theorem NameEnds.zero_mem (h : NameEnds sr buf) : 0 ∈ buf.drop baseLen := by
  have hfield := h.field
  rw [List.drop_take] at hfield
  exact List.mem_of_mem_take hfield

/-- The fields of a frame, in the buffer and in the frame. -/
theorem load_behindHeader (hlen : packetHeaderLen ≤ buf.length) (j : Nat) :
    load16 buf (packetHeaderLen + j) = load16 (buf.drop packetHeaderLen) j ∧
      load32 buf (packetHeaderLen + j) = load32 (buf.drop packetHeaderLen) j := by
  have hheader : (buf.take packetHeaderLen).length = packetHeaderLen := by
    rw [List.length_take]
    omega
  have h16 := load16_append_right (buf.take packetHeaderLen) (buf.drop packetHeaderLen) j
  have h32 := load32_append_right (buf.take packetHeaderLen) (buf.drop packetHeaderLen) j
  rw [List.take_append_drop, hheader] at h16 h32
  exact ⟨h16, h32⟩

theorem toOption_srArpReqNotForUs (h : NameEnds sr buf) (hlen : packetHeaderLen ≤ buf.length)
    (hmax : buf.length ≤ 10000) :
    (Checked.srArpReqNotForUs sr buf).toOption =
      srArpReqNotForUs sr (buf.drop packetHeaderLen) (cString (buf.drop baseLen)) := by
  rw [Checked.srArpReqNotForUs, getInterface_eq (.inl h.zero_mem), ok_bind,
    find?_names h.interfaces, frameLen_eq hlen hmax, srArpReqNotForUs, List.length_drop]
  split
  case isTrue => rfl
  case isFalse hlarge =>
    have hframe : 42 ≤ (buf.drop packetHeaderLen).length := by
      rw [List.length_drop]
      omega
    have h12 : load16 buf 36 = load16 (buf.drop packetHeaderLen) 12 := (load_behindHeader hlen 12).1
    have h20 : load16 buf 44 = load16 (buf.drop packetHeaderLen) 20 := (load_behindHeader hlen 20).1
    have h38 : load32 buf 62 = load32 (buf.drop packetHeaderLen) 38 := (load_behindHeader hlen 38).2
    obtain ⟨etherType, htype⟩ := exists_load16
      (show 12 + 2 ≤ (buf.drop packetHeaderLen).length by omega)
    obtain ⟨op, hop⟩ := exists_load16 (show 20 + 2 ≤ (buf.drop packetHeaderLen).length by omega)
    obtain ⟨tip, htip⟩ := exists_load32 (show 38 + 4 ≤ (buf.drop packetHeaderLen).length by omega)
    rw [h12, h20, h38, htype, hop, htip]
    cases srGetInterface sr (cString (buf.drop baseLen)) with
    | none => rfl
    | some iface =>
        simp only [asserted, access, ok_bind, Option.bind_eq_bind, Option.bind_some]
        by_cases harp : etherType = swap16 ethertypeArp
        · by_cases hrequest : op = swap16 arpOpRequest
          · rw [if_neg (not_not_intro harp), if_neg (not_not_intro hrequest)]
            exact congrArg some (by simp [harp, hrequest])
          · rw [if_neg (not_not_intro harp), if_pos hrequest]
            exact congrArg some (by simp [hrequest])
        · rw [if_pos harp]
          exact congrArg some (by simp [harp])

/-- Where the name of the interface is what it seems to be, watching a packet changes nothing. -/
theorem toOption_handleVnsPacket (h : NameEnds sr buf) (hlen : packetHeaderLen ≤ buf.length)
    (hmax : buf.length ≤ 10000) :
    (Checked.handleVnsPacket sr buf env).toOption =
      handleVnsPacket sr (buf.drop packetHeaderLen) (cString (buf.drop baseLen)) env := by
  have hframe : (buf.drop packetHeaderLen).take (frameLen buf.length) = buf.drop packetHeaderLen := by
    rw [frameLen_eq hlen hmax]
    exact List.take_of_length_le (by rw [List.length_drop])
  simp only [Checked.handleVnsPacket, Checked.frameToHandle, handleVnsPacket, toOption_bind,
    toOption_srArpReqNotForUs h hlen hmax, h.lookupIn, Option.bind_eq_bind]
  rw [Option.bind_assoc]
  refine Option.bind_congr fun drop _ => ?_
  cases drop with
  | true => rfl
  | false =>
      rw [if_neg Bool.false_ne_true, if_neg Bool.false_ne_true, toOption_pure, Option.bind_some]
      simp only [hframe, toOption_bind, toOption_srHandlepacket]
      rfl

theorem toOption_hwEntry (start : Nat) :
    (Checked.hwEntry buf start uninit sr).toOption = hwEntry buf start uninit sr := by
  simp only [Checked.hwEntry, hwEntry, toOption_bind, toOption_access, Option.bind_eq_bind]
  refine Option.bind_congr fun key _ => ?_
  split
  · simp only [toOption_bind, toOption_access]
    rfl
  · split
    · simp only [toOption_bind, toOption_access, toOption_asserted]
    · split
      · simp only [toOption_bind, toOption_access, toOption_asserted]
      · rfl

theorem toOption_hwinfoLoop (entries i : Nat) :
    (Checked.hwinfoLoop buf uninit entries i sr).toOption = hwinfoLoop buf uninit entries i sr := by
  induction entries generalizing i sr with
  | zero => rfl
  | succ entries ih =>
      rw [Checked.hwinfoLoop, toOption_bind, toOption_hwEntry]
      exact Option.bind_congr fun t _ => ih (i + 1)

theorem srHandleHwinfo_of_ok {t : SrInstance}
    (h : Checked.srHandleHwinfo sr buf uninit = .ok t) : srHandleHwinfo sr buf uninit = some t := by
  rw [srHandleHwinfo, ← toOption_hwinfoLoop]
  exact congrArg Except.toOption h

/-- A frame whose interface is named in the message is handled with that name. -/
theorem handleVnsPacket_of_ok {outcome : Outcome} (hends : NameEnds sr buf)
    (hlen : packetHeaderLen ≤ buf.length) (hmax : buf.length ≤ 10000)
    (h : Checked.handleVnsPacket sr buf env = .ok outcome) :
    vnsInterface buf = some (cString (buf.drop baseLen)) ∧
      handleVnsPacket sr (buf.drop packetHeaderLen) (cString (buf.drop baseLen)) env =
        some outcome := by
  refine ⟨if_pos (.inl (CString.length_takeWhile_lt hends.zero_mem)), ?_⟩
  rw [← toOption_handleVnsPacket hends hlen hmax, h]
  rfl

theorem srHandleRtable_of_ok {b : Bool} (hlen : baseLen + idSize ≤ buf.length)
    (h : Checked.srHandleRtable session buf = .ok b) : srHandleRtable session buf = some b := by
  obtain ⟨name, hname, h⟩ := ok_of_bind h
  have hzero : 0 ∈ buf.drop baseLen := by
    by_contra hzero
    have hviolates := violates_readString.mpr hzero
    rw [hname] at hviolates
    exact not_violates_ok _ hviolates
  rw [readString_eq hzero] at hname
  obtain rfl := Except.ok.inj hname
  split at h
  case isTrue => cases h
  case isFalse hfits =>
    have hroom : ¬(buf.length < baseLen + idSize ∨ idSize < (cString (buf.drop baseLen)).length) :=
      not_or.mpr ⟨Nat.not_lt.mpr hlen, hfits⟩
    rw [srHandleRtable, if_neg hroom]
    split at h
    case isTrue hwritable =>
      obtain ⟨rtable, -, h⟩ := ok_of_bind h
      rw [hwritable, ← Except.ok.inj h]
    case isFalse hwritable =>
      rw [Bool.eq_false_iff.mpr hwritable, ← Except.ok.inj h]

theorem srHandleAuthRequest_of_ok {digest : Option (List Byte)}
    (h : Checked.srHandleAuthRequest session buf = .ok digest) :
    digest = session.digest (buf.drop baseLen) := by
  obtain ⟨salt, hsalt, h⟩ := ok_of_bind h
  have hload := ok_of_access hsalt
  unfold load at hload
  split at hload
  · rw [List.take_of_length_le (by rw [List.length_drop])] at hload
    rw [← Except.ok.inj h, Option.some.inj hload]
  · cases hload

theorem srHandleAuthStatus_of_ok {b : Bool} (h : Checked.srHandleAuthStatus buf = .ok b) :
    ∃ authOk, buf[baseLen]? = some authOk ∧ b = decide (authOk ≠ 0) := by
  obtain ⟨authOk, hauth, h⟩ := ok_of_bind h
  refine ⟨authOk, ok_of_access hauth, ?_⟩
  split at h
  case isTrue hzero =>
    obtain ⟨msg, -, h⟩ := ok_of_bind h
    rw [decide_eq_false (not_not_intro hzero), ← Except.ok.inj h]
  case isFalse hzero => rw [decide_eq_true hzero, ← Except.ok.inj h]

/-- A command that is handled without a fault is handled as in `VnsComm`. -/
theorem dispatch_of_ok {command : BitVec 32} {outcome : Outcome} (hmax : buf.length ≤ 10000)
    (hpacket : command = vnsPacket → packetHeaderLen ≤ buf.length ∧ NameEnds sr buf)
    (hrtable : command = vnsRtable → baseLen + idSize ≤ buf.length)
    (h : Checked.dispatch sr session command buf env uninit = .ok outcome) :
    dispatch sr session command buf env uninit = some outcome := by
  unfold Checked.dispatch at h
  unfold dispatch
  split at h
  case isTrue hcommand =>
    obtain ⟨hlen, hends⟩ := hpacket hcommand
    obtain ⟨hname, hhandle⟩ := handleVnsPacket_of_ok hends hlen hmax h
    rw [if_pos hcommand, if_neg (Nat.not_lt.mpr hlen), hname, Option.bind_eq_bind, Option.bind_some,
      hhandle]
  case isFalse hcommand =>
    rw [if_neg hcommand]
    split at h
    case isTrue hclose =>
      obtain ⟨reason, -, h⟩ := ok_of_bind h
      rw [if_pos hclose]
      exact congrArg some (Except.ok.inj h)
    case isFalse hclose =>
      rw [if_neg hclose]
      split at h
      case isTrue hbanner =>
        obtain ⟨banner, -, h⟩ := ok_of_bind h
        subst hbanner
        exact congrArg some (Except.ok.inj h)
      case isFalse =>
        split at h
        case isTrue hhwinfo =>
          obtain ⟨t, ht, h⟩ := ok_of_bind h
          rw [if_pos hhwinfo, srHandleHwinfo_of_ok ht]
          exact congrArg some (Except.ok.inj h)
        case isFalse hhwinfo =>
          rw [if_neg hhwinfo]
          split at h
          case isTrue hcase =>
            obtain ⟨b, hb, h⟩ := ok_of_bind h
            rw [if_pos hcase, srHandleRtable_of_ok (hrtable hcase) hb]
            exact congrArg some (Except.ok.inj h)
          case isFalse hcase =>
            rw [if_neg hcase]
            split at h
            case isTrue hrequest =>
              obtain ⟨digest, hdigest, h⟩ := ok_of_bind h
              rw [if_pos hrequest, ← srHandleAuthRequest_of_ok hdigest]
              cases digest with
              | none => exact congrArg some (Except.ok.inj h)
              | some digest => exact congrArg some (Except.ok.inj h)
            case isFalse hrequest =>
              rw [if_neg hrequest]
              split at h
              case isTrue hstatus =>
                obtain ⟨b, hb, h⟩ := ok_of_bind h
                obtain ⟨authOk, hauth, rfl⟩ := srHandleAuthStatus_of_ok hb
                rw [if_pos hstatus, ← Except.ok.inj h, hauth]
                simp
              case isFalse hstatus =>
                rw [if_neg hstatus]
                exact congrArg some (Except.ok.inj h)

end NetworkStack.Router
