import NetworkStack.Router.FrameBounds
import NetworkStack.Router.MessageAccess

/-!
# Commands that are too short

No handler compares the length of a command with the structure it takes it for. `MessageFits`
says exactly which commands are handled without an access beyond the end of the buffer and
without a failed assertion.
-/

namespace NetworkStack.Router

open Bytes Buffer Access NetworkStack.Computation

/-- The command, as the switch sees it. -/
def Message.command (m : Message) : BitVec 32 := swap32 ((load32 m.body 0).getD 0)

/-- The buffer, as the switch finds it. -/
def Message.buffer (m : Message) : List Byte :=
  le32 (swap32 (BitVec.ofNat 32 m.len)) ++ (le32 m.command ++ m.body.drop 4)

/-- Another command was expected. -/
def Refused (expectedCmd command : BitVec 32) : Prop :=
  expectedCmd ≠ 0 ∧ command ≠ expectedCmd ∧ command ≠ vnsClose

instance (expectedCmd command : BitVec 32) : Decidable (Refused expectedCmd command) :=
  inferInstanceAs (Decidable (_ ∧ _))

/-- The name of an interface starts with all that is left of the buffer. -/
def RunsOff (sr : SrInstance) (buf : List Byte) : Prop :=
  buf.length < baseLen + srIfaceNamelen ∧ 0 ∉ buf.drop baseLen ∧
    ∃ i ∈ sr.ifList, buf.drop baseLen <+: strncpy i.name srIfaceNamelen

/-- A packet whose header and frame are in the buffer. -/
def PacketFits (sr : SrInstance) (buf : List Byte) : Prop :=
  packetHeaderLen ≤ buf.length ∧ ¬RunsOff sr buf ∧
    if 42 ≤ buf.length - packetHeaderLen then ∃ i ∈ sr.ifList, Names buf i
    else ¬Overrun sr (Checked.lookupIn sr (buf.take packetHeaderLen)) (buf.drop packetHeaderLen)

/-- The keys of the entries of a `c_hwinfo`, from the entry `i` on. -/
def hwKeys (buf : List Byte) : Nat → Nat → List (BitVec 32)
  | 0, _ => []
  | entries + 1, i =>
      swap32 ((load32 buf (baseLen + i * hwEntryLen)).getD 0) :: hwKeys buf entries (i + 1)

/-- There is an interface before the first address. -/
def interfaceFirst : List (BitVec 32) → Prop
  | [] => True
  | key :: rest => key = hwInterface ∨ key ≠ hwEthip ∧ key ≠ hwEther ∧ interfaceFirst rest

/-- A command whose handler finds all that it reads. -/
def CommandFits (sr : SrInstance) (session : Session) (command : BitVec 32) (buf : List Byte) :
    Prop :=
  if command = vnsPacket then PacketFits sr buf
  else if command = vnsClose ∨ command = vnsBanner then 0 ∈ buf.drop baseLen
  else if command = vnsHwinfo then
    sr.ifList ≠ [] ∨ interfaceFirst (hwKeys buf ((buf.length - baseLen) / hwEntryLen) 0)
  else if command = vnsRtable then
    0 ∈ buf.drop baseLen ∧ (session.rtableWritable → baseLen + idSize ≤ buf.length)
  else if command = vnsAuthStatus then
    ∃ authOk, load8 buf baseLen = some authOk ∧ (authOk = 0 → 0 ∈ buf.drop (baseLen + 1))
  else True

/-- A message that is handled as it should be. -/
def MessageFits (sr : SrInstance) (session : Session) (expectedCmd : BitVec 32) (m : Message) :
    Prop :=
  baseLen ≤ m.len ∧
    (Refused expectedCmd m.command ∨ CommandFits sr session m.command m.buffer)

/-- What a message must not do: reach beyond the end of the buffer, make an assertion fail, or
pass on a frame that is longer than what is there. -/
structure MessageSafe (sr : SrInstance) (session : Session) (expectedCmd : BitVec 32) (m : Message)
    (env : Env) (uninit : Mac × Addr) : Prop where
  inBuffer : ¬Outside (Checked.readMessage sr session expectedCmd m env uninit)
  asserts : Checked.readMessage sr session expectedCmd m env uninit ≠ .error .assertion
  frame : ∀ n, Checked.frameToHandle sr m.buffer = .ok (some n) → n ≤ m.len - packetHeaderLen

variable {sr : SrInstance} {session : Session} {buf : List Byte} {env : Env} {uninit : Mac × Addr}

/-! ## The name of the interface -/

/-- The name runs off the buffer if the buffer ends in the middle of it. -/
theorem violates_getInterface {ifs : List SrIf} (hzero : 0 ∉ buf.drop baseLen)
    (hlen : (buf.drop baseLen).length < srIfaceNamelen)
    (h : ∃ i ∈ ifs, buf.drop baseLen <+: strncpy i.name srIfaceNamelen) :
    Violates (Checked.getInterface buf ifs) := by
  induction ifs with
  | nil =>
      obtain ⟨i, hi, -⟩ := h
      cases hi
  | cons j rest ih =>
      rw [Checked.getInterface, strncmpAt_name]
      by_cases hj : buf.drop baseLen <+: strncpy j.name srIfaceNamelen
      · rw [if_pos ⟨hj, hzero, hlen⟩]
        exact violates_outside _ _
      · rw [if_neg fun hcond => hj hcond.1]
        -- A name without an end cannot be the same as that of an interface.
        have hnames : ¬Names buf j := by
          intro hnames
          rw [Names, CString.takeWhile_of_not_mem hzero, List.take_of_length_le (by omega)] at hnames
          rw [hnames] at hj
          exact hj (List.takeWhile_prefix _)
        rw [decide_eq_false hnames]
        obtain ⟨i, hi, hpre⟩ := h
        obtain rfl | hi := List.mem_cons.mp hi
        · exact absurd hpre hj
        · exact ih ⟨i, hi, hpre⟩

theorem violates_of_runsOff (h : RunsOff sr buf) : Violates (Checked.getInterface buf sr.ifList) := by
  obtain ⟨hlen, hzero, hname⟩ := h
  refine violates_getInterface hzero ?_ hname
  rw [List.length_drop]
  unfold baseLen srIfaceNamelen at *
  omega

theorem getInterface_of_not_runsOff (h : ¬RunsOff sr buf) :
    Checked.getInterface buf sr.ifList = .ok (sr.ifList.find? (Names buf ·)) := by
  apply getInterface_eq
  by_contra hcond
  obtain ⟨hzero, hcond⟩ := not_or.mp hcond
  obtain ⟨hlen, hall⟩ := not_or.mp hcond
  simp only [not_forall, not_not] at hall
  obtain ⟨i, hi, hpre⟩ := hall
  rw [List.length_drop] at hlen
  exact h ⟨by omega, hzero, i, hi, hpre⟩

/-! ## Packets -/

/-- A command that is shorter than the header of a packet gives a huge frame. -/
theorem le_frameLen {len : Nat} (h : len < packetHeaderLen) : 42 ≤ frameLen len := by
  unfold frameLen packetEthernetHeaderLen etherLen
  unfold packetHeaderLen at h
  omega

/-- The test for ARP requests reads the type of the frame, once the interface is there. -/
theorem violates_srArpReqNotForUs_short (h : buf.length < packetHeaderLen) :
    Violates (Checked.srArpReqNotForUs sr buf) := by
  unfold Checked.srArpReqNotForUs
  by_cases hoff : RunsOff sr buf
  · exact violates_bind.mpr (.inl (violates_of_runsOff hoff))
  · refine violates_bind.mpr (.inr ⟨_, getInterface_of_not_runsOff hoff, ?_⟩)
    rw [if_neg (Nat.not_lt.mpr (le_frameLen h)), violates_asserted_bind]
    rw [or_iff_not_imp_left]
    intro hsome
    obtain ⟨iface, hiface⟩ := Option.ne_none_iff_exists'.mp hsome
    refine ⟨iface, hiface, violates_access_none fun htype => ?_⟩
    have hbound := isSome_load16.mp htype
    unfold packetHeaderLen at h
    omega

theorem srArpReqNotForUs_small (h : packetHeaderLen ≤ buf.length) (hmax : buf.length ≤ 10000)
    (hsmall : buf.length - packetHeaderLen < 42) (hoff : ¬RunsOff sr buf) :
    Checked.srArpReqNotForUs sr buf = .ok false := by
  rw [Checked.srArpReqNotForUs, getInterface_of_not_runsOff hoff, ok_bind, frameLen_eq h hmax,
    if_pos hsmall]
  rfl

/-- The interface of a frame of at least 42 bytes is asserted to exist. -/
theorem violates_srArpReqNotForUs_large (hmax : buf.length ≤ 10000)
    (hlarge : 42 ≤ buf.length - packetHeaderLen) (hoff : ¬RunsOff sr buf) :
    Violates (Checked.srArpReqNotForUs sr buf) ↔ ¬∃ i ∈ sr.ifList, Names buf i := by
  unfold Checked.srArpReqNotForUs
  have hlen : packetHeaderLen ≤ buf.length := by
    unfold packetHeaderLen at *
    omega
  rw [getInterface_of_not_runsOff hoff, ok_bind, frameLen_eq hlen hmax,
    if_neg (Nat.not_lt.mpr hlarge), violates_asserted_bind]
  unfold packetHeaderLen at hlarge
  have hfind : sr.ifList.find? (Names buf ·) = none ↔ ¬∃ i ∈ sr.ifList, Names buf i := by
    simp [List.find?_eq_none]
  rw [hfind]
  refine or_iff_left ?_
  rintro ⟨iface, -, hviolates⟩
  revert hviolates
  refine mt (violates_access (isSome_load16.mpr (by omega)) fun etherType _ => ?_).mp id
  split
  · exact iff_of_false (not_violates_ok _) id
  · refine violates_access (isSome_load16.mpr (by omega)) fun op _ => ?_
    split
    · exact iff_of_false (not_violates_ok _) id
    · refine violates_access (isSome_load32.mpr (by omega)) fun tip _ => ?_
      exact iff_of_false (not_violates_ok _) id

/-- While a frame with an ARP operation is handled, its name does not run off the buffer. -/
theorem not_violates_lookupIn {header frame : List Byte} (hheader : header.length = packetHeaderLen)
    (h : 22 ≤ frame.length) : ¬Violates (Checked.lookupIn sr header frame) := by
  unfold Checked.lookupIn
  rw [getInterface_eq (.inr (.inl ?_))]
  · exact not_violates_defined _
  · rw [List.length_drop, List.length_append, hheader]
    unfold packetHeaderLen srIfaceNamelen baseLen
    omega

theorem neededLen_le (sr : SrInstance) (frame : List Byte) : neededLen sr frame ≤ 42 := by
  have hip (sendRouter : Bool) : neededIp frame sendRouter ≤ 42 := by
    unfold neededIp
    split
    · omega
    · split
      · omega
      · omega
  unfold neededLen
  split
  · decide
  · split
    · cases routed sr frame with
      | none => exact (by decide : 34 ≤ 42)
      | some route => exact hip route.1
    · split
      · omega
      · decide

theorem frameToHandle_of_ok {b : Bool} (h : Checked.srArpReqNotForUs sr buf = .ok b) :
    Checked.frameToHandle sr buf = .ok (if b then none else some (frameLen buf.length)) := by
  rw [Checked.frameToHandle, h, ok_bind]
  cases b <;> rfl

theorem violates_frameToHandle :
    Violates (Checked.frameToHandle sr buf) ↔ Violates (Checked.srArpReqNotForUs sr buf) := by
  unfold Checked.frameToHandle
  rw [violates_bind]
  refine or_iff_left ?_
  rintro ⟨b, -, hviolates⟩
  cases b
  · exact not_violates_ok _ hviolates
  · exact not_violates_ok _ hviolates

/-- The length that is passed on is that of the rest of the buffer. -/
theorem frameToHandle_some {n : Nat} (hmax : buf.length ≤ 10000)
    (h : Checked.frameToHandle sr buf = .ok (some n)) :
    packetHeaderLen ≤ buf.length ∧ n = buf.length - packetHeaderLen := by
  obtain ⟨b, hb, -⟩ := ok_of_bind h
  rw [frameToHandle_of_ok hb] at h
  have hlen : packetHeaderLen ≤ buf.length := by
    by_contra hshort
    have hviolates : Violates (Checked.srArpReqNotForUs sr buf) :=
      violates_srArpReqNotForUs_short (Nat.not_le.mp hshort)
    rw [hb] at hviolates
    exact not_violates_ok b hviolates
  cases b with
  | true => cases h
  | false =>
      obtain rfl := Option.some.inj (Except.ok.inj h)
      exact ⟨hlen, frameLen_eq hlen hmax⟩

/-- A frame that is passed on is read beyond its end if it is too short. -/
theorem violates_passed (hlen : packetHeaderLen ≤ buf.length) {interface : IfName}
    {g : SrInstance × List SendCall → Outcome} :
    Violates (Checked.srHandlepacket sr (Checked.lookupIn sr (buf.take packetHeaderLen))
        ((buf.drop packetHeaderLen).take (buf.length - packetHeaderLen)) interface env >>=
          fun r => pure (g r)) ↔
      Overrun sr (Checked.lookupIn sr (buf.take packetHeaderLen)) (buf.drop packetHeaderLen) := by
  have hheader : (buf.take packetHeaderLen).length = packetHeaderLen := by
    rw [List.length_take]
    omega
  have hframe : (buf.drop packetHeaderLen).take (buf.length - packetHeaderLen) =
      buf.drop packetHeaderLen :=
    List.take_of_length_le (by rw [List.length_drop])
  have hlookup (p : List Byte) (hp : 22 ≤ p.length) :
      ¬Violates (Checked.lookupIn sr (buf.take packetHeaderLen) p) :=
    not_violates_lookupIn hheader hp
  rw [hframe, violates_bind_pure, violates_srHandlepacket hlookup]

theorem violates_handleVnsPacket (hmax : buf.length ≤ 10000) :
    Violates (Checked.handleVnsPacket sr buf env) ↔ ¬PacketFits sr buf := by
  unfold Checked.handleVnsPacket
  by_cases hlen : packetHeaderLen ≤ buf.length
  case neg =>
    refine iff_of_true ?_ fun hfits => hlen hfits.1
    refine violates_bind.mpr (.inl (violates_frameToHandle.mpr ?_))
    exact violates_srArpReqNotForUs_short (Nat.not_le.mp hlen)
  by_cases hoff : RunsOff sr buf
  case pos =>
    refine iff_of_true ?_ fun hfits => hfits.2.1 hoff
    refine violates_bind.mpr (.inl (violates_frameToHandle.mpr ?_))
    exact violates_bind.mpr (.inl (violates_of_runsOff hoff))
  rw [PacketFits, and_iff_right hlen, and_iff_right hoff]
  split
  case isTrue hlarge =>
    rw [violates_bind, violates_frameToHandle, violates_srArpReqNotForUs_large hmax hlarge hoff]
    refine or_iff_left ?_
    rintro ⟨r, hr, hviolates⟩
    cases r with
    | none => exact not_violates_ok _ hviolates
    | some n =>
        obtain ⟨-, rfl⟩ := frameToHandle_some hmax hr
        -- A frame of at least 42 bytes has all that can be read of it.
        have hover := lt_neededLen_of_overrun ((violates_passed hlen).mp hviolates)
        have hneeded := neededLen_le sr (buf.drop packetHeaderLen)
        rw [List.length_drop] at hover
        omega
  case isFalse hsmall =>
    rw [not_not, frameToHandle_of_ok (srArpReqNotForUs_small hlen hmax (Nat.not_le.mp hsmall) hoff),
      ok_bind, frameLen_eq hlen hmax]
    exact violates_passed hlen

/-! ## Hardware information -/

theorem setLast_eq_none_iff {f : SrIf → SrIf} : setLast sr f = none ↔ sr.ifList = [] := by
  unfold setLast
  cases h : sr.ifList.getLast? with
  | none => exact iff_of_true rfl (List.getLast?_eq_none_iff.mp h)
  | some last =>
      refine iff_of_false (fun heq => by cases heq) fun hnil => ?_
      rw [hnil] at h
      cases h

theorem ifList_ne_nil_of_setLast {f : SrIf → SrIf} {t : SrInstance} (h : setLast sr f = some t) :
    t.ifList ≠ [] := by
  unfold setLast at h
  split at h
  · cases h
  · obtain rfl := Option.some.inj h
    exact List.append_ne_nil_of_right_ne_nil _ (List.cons_ne_nil _ _)

/-- What an entry does to the list of interfaces: an interface is added, an address is set in the
last one, and anything else is ignored. -/
theorem hwEntry_cases {start : Nat} {key : BitVec 32} (sr : SrInstance) (uninit : Mac × Addr)
    (hlen : start + hwEntryLen ≤ buf.length)
    (hkey : swap32 ((load32 buf start).getD 0) = key) :
    (key = hwInterface ∧ ∃ t, Checked.hwEntry buf start uninit sr = .ok t ∧ t.ifList ≠ []) ∨
      (key ≠ hwInterface ∧ (key = hwEthip ∨ key = hwEther) ∧
        ∃ f, Checked.hwEntry buf start uninit sr = asserted (setLast sr f)) ∨
      (key ≠ hwInterface ∧ key ≠ hwEthip ∧ key ≠ hwEther ∧
        Checked.hwEntry buf start uninit sr = .ok sr) := by
  unfold hwEntryLen at hlen
  obtain ⟨word, hword⟩ := exists_load32 (show start + 4 ≤ buf.length by omega)
  obtain ⟨value, hvalue, -⟩ := exists_load (show start + 4 + 32 ≤ buf.length by omega)
  obtain ⟨ip, hip⟩ := exists_load32 (show start + 4 + 4 ≤ buf.length by omega)
  obtain ⟨addr, haddr⟩ := exists_load48 (show start + 4 + 6 ≤ buf.length by omega)
  rw [hword, Option.getD_some] at hkey
  simp only [Checked.hwEntry, hword, hvalue, hip, haddr, access, ok_bind, hkey]
  by_cases hinterface : key = hwInterface
  · refine .inl ⟨hinterface, _, if_pos hinterface, ?_⟩
    exact List.append_ne_nil_of_right_ne_nil _ (List.cons_ne_nil _ _)
  · right
    rw [if_neg hinterface]
    by_cases hethip : key = hwEthip
    · exact .inl ⟨hinterface, .inl hethip, _, if_pos hethip⟩
    · rw [if_neg hethip]
      by_cases hether : key = hwEther
      · exact .inl ⟨hinterface, .inr hether, _, if_pos hether⟩
      · exact .inr ⟨hinterface, hethip, hether, if_neg hether⟩

/-- Addresses that come before any interface fail an assertion. -/
theorem violates_hwinfoLoop {entries i : Nat}
    (hlen : baseLen + (i + entries) * hwEntryLen ≤ buf.length) :
    Violates (Checked.hwinfoLoop buf uninit entries i sr) ↔
      ¬(sr.ifList ≠ [] ∨ interfaceFirst (hwKeys buf entries i)) := by
  induction entries generalizing i sr with
  | zero => exact iff_of_false (not_violates_ok _) (not_not_intro (.inr trivial))
  | succ entries ih =>
      have hrest : baseLen + (i + 1 + entries) * hwEntryLen ≤ buf.length := by
        rwa [Nat.add_assoc, Nat.add_comm 1 entries]
      have hentry : baseLen + i * hwEntryLen + hwEntryLen ≤ buf.length := by
        unfold hwEntryLen at *
        omega
      rw [Checked.hwinfoLoop, hwKeys, interfaceFirst]
      generalize hkey : swap32 ((load32 buf (baseLen + i * hwEntryLen)).getD 0) = key
      obtain ⟨hinterface, t, ht, hne⟩ | ⟨hinterface, haddress, f, hf⟩ |
        ⟨hinterface, hethip, hether, hok⟩ := hwEntry_cases sr uninit hentry hkey
      · rw [ht, ok_bind, ih hrest]
        exact iff_of_false (not_not_intro (.inl hne)) (not_not_intro (.inr (.inl hinterface)))
      · rw [hf, violates_asserted_bind, setLast_eq_none_iff]
        by_cases hnil : sr.ifList = []
        · refine iff_of_true (.inl hnil) ?_
          rintro (hne | hkeys | ⟨hethip, hether, -⟩)
          · exact hne hnil
          · exact hinterface hkeys
          · exact haddress.elim hethip hether
        · refine iff_of_false ?_ (not_not_intro (.inl hnil))
          rintro (h | ⟨t, ht, hviolates⟩)
          · exact hnil h
          · exact (ih hrest).mp hviolates (.inl (ifList_ne_nil_of_setLast ht))
      · rw [hok, ok_bind, ih hrest]
        simp only [hinterface, false_or, ne_eq, hethip, hether, not_false_eq_true, true_and]

/-! ## The other commands -/

/-- The name of the file has to end in the buffer, and the table has to be behind its field. -/
theorem violates_srHandleRtable (hmax : buf.length ≤ 10000) :
    Violates (Checked.srHandleRtable session buf) ↔
      ¬(0 ∈ buf.drop baseLen ∧ (session.rtableWritable → baseLen + idSize ≤ buf.length)) := by
  unfold Checked.srHandleRtable
  by_cases hzero : 0 ∈ buf.drop baseLen
  case neg =>
    refine iff_of_true (violates_bind.mpr (.inl (violates_readString.mpr hzero))) ?_
    exact fun hfits => hzero hfits.1
  rw [readString_eq hzero, ok_bind, and_iff_right hzero]
  split
  case isTrue hlong =>
    refine iff_of_false not_violates_undefined (not_not_intro fun _ => ?_)
    have hle := (List.takeWhile_prefix (l := buf.drop baseLen) (· ≠ 0)).length_le
    rw [List.length_drop] at hle
    unfold idSize baseLen at *
    omega
  case isFalse =>
    split
    case isTrue hwritable =>
      rw [imp_iff_right hwritable]
      unfold baseLen idSize
      by_cases hlen : 8 + 32 ≤ buf.length
      · refine violates_access (isSome_load.mpr (by omega)) fun _ _ => ?_
        exact iff_of_false (not_violates_ok _) (not_not_intro hlen)
      · refine iff_of_true (violates_access_none fun hsome => ?_) hlen
        have hbound := isSome_load.mp hsome
        omega
    case isFalse hwritable =>
      exact iff_of_false (not_violates_ok _) (not_not_intro fun h => absurd h hwritable)

theorem violates_srHandleAuthStatus :
    Violates (Checked.srHandleAuthStatus buf) ↔
      ¬∃ authOk, load8 buf baseLen = some authOk ∧ (authOk = 0 → 0 ∈ buf.drop (baseLen + 1)) := by
  unfold Checked.srHandleAuthStatus
  cases hok : load8 buf baseLen with
  | none =>
      refine iff_of_true (violates_outside _ _) ?_
      rintro ⟨authOk, h, -⟩
      cases h
  | some authOk =>
      rw [access, ok_bind]
      simp only [Option.some.injEq, exists_eq_left']
      split
      case isTrue hzero =>
        rw [violates_bind_pure, violates_readString, imp_iff_right hzero]
      case isFalse hzero =>
        exact iff_of_false (not_violates_ok _) (not_not_intro fun h => absurd h hzero)

theorem not_violates_srHandleAuthRequest (h : baseLen ≤ buf.length) :
    ¬Violates (Checked.srHandleAuthRequest session buf) := by
  unfold Checked.srHandleAuthRequest
  refine mt (violates_access (isSome_load.mpr (by omega)) fun salt _ => ?_).mp id
  exact iff_of_false (not_violates_ok _) id

/-- A command is handled without a violation if its handler finds all that it reads. -/
theorem violates_dispatch {command : BitVec 32} (h : baseLen ≤ buf.length)
    (hmax : buf.length ≤ 10000) :
    Violates (Checked.dispatch sr session command buf env uninit) ↔
      ¬CommandFits sr session command buf := by
  unfold Checked.dispatch CommandFits
  split
  case isTrue => exact violates_handleVnsPacket hmax
  case isFalse =>
    by_cases hclose : command = vnsClose
    · rw [if_pos hclose, if_pos (.inl hclose), violates_bind_pure, violates_readString]
    rw [if_neg hclose]
    by_cases hbanner : command = vnsBanner
    · rw [if_pos hbanner, if_pos (.inr hbanner), violates_bind_pure, violates_readString]
    rw [if_neg hbanner, if_neg (not_or.mpr ⟨hclose, hbanner⟩)]
    split
    case isTrue =>
      rw [violates_bind_pure]
      apply violates_hwinfoLoop
      rw [Nat.zero_add]
      have hdiv := Nat.div_mul_le_self (buf.length - baseLen) hwEntryLen
      omega
    case isFalse =>
      split
      case isTrue => rw [violates_bind_pure, violates_srHandleRtable hmax]
      case isFalse =>
        split
        case isTrue hrequest =>
          have hstatus : command ≠ vnsAuthStatus := by
            rw [hrequest]
            decide
          rw [if_neg hstatus]
          refine iff_of_false ?_ (not_not_intro trivial)
          refine not_violates_bind (not_violates_srHandleAuthRequest h) fun digest _ => ?_
          cases digest
          · exact not_violates_ok _
          · exact not_violates_ok _
        case isFalse =>
          split
          case isTrue => rw [violates_bind_pure, violates_srHandleAuthStatus]
          case isFalse => exact iff_of_false (not_violates_ok _) (not_not_intro trivial)

/-! ## Whole messages -/

/-- The buffer once the body is read. -/
theorem read_body (m : Message) (h : 4 ≤ m.len) (x : BitVec 32) :
    ∃ buf, store32 (List.replicate m.len 0) 0 x = some buf ∧
      store buf 4 m.body = some (le32 x ++ m.body) := by
  have hsplit : List.replicate m.len (0 : Byte) =
      [] ++ List.replicate 4 0 ++ List.replicate (m.len - 4) 0 := by
    rw [List.nil_append, List.replicate_append_replicate]
    congr 1
    omega
  have hfirst : store32 (List.replicate m.len 0) 0 x =
      some ([] ++ le32 x ++ List.replicate (m.len - 4) 0) := by
    rw [hsplit]
    exact store_append [] rfl rfl
  have hbody : store (le32 x ++ List.replicate (m.len - 4) 0 ++ []) 4 m.body =
      some (le32 x ++ m.body ++ []) :=
    store_append (le32 x) rfl (by rw [List.length_replicate, m.complete])
  rw [List.append_nil, List.append_nil] at hbody
  exact ⟨_, hfirst, hbody⟩

theorem readMessage_eq (m : Message) (expectedCmd : BitVec 32) (h : baseLen ≤ m.len) :
    Checked.readMessage sr session expectedCmd m env uninit =
      if Refused expectedCmd m.command then .ok (.quiet sr (-1))
      else Checked.dispatch sr session m.command m.buffer env uninit := by
  have hbody := m.complete
  unfold baseLen at h
  obtain ⟨buf, hfirst, hread⟩ := read_body m (by omega) (swap32 (BitVec.ofNat 32 m.len))
  obtain ⟨type, htype⟩ := exists_load32 (show 0 + 4 ≤ m.body.length by omega)
  have hcommand : m.command = swap32 type := by
    rw [Message.command, htype, Option.getD_some]
  have hload : load32 (le32 (swap32 (BitVec.ofNat 32 m.len)) ++ m.body) 4 = some type := by
    rw [← htype]
    exact load32_append_right _ m.body 0
  have hstore : store32 (le32 (swap32 (BitVec.ofNat 32 m.len)) ++ m.body) 4 (swap32 type) =
      some m.buffer := by
    rw [Message.buffer, hcommand, ← List.append_assoc]
    conv_lhs => rw [← List.take_append_drop 4 m.body, ← List.append_assoc]
    exact store_append _ rfl (by rw [List.length_take]; change _ = 4; omega)
  simp only [Checked.readMessage, hfirst, hread, hload, hstore, access, ok_bind, hcommand]
  rfl

/-- A message without a type is read beyond its end. -/
theorem violates_readMessage_short (m : Message) (expectedCmd : BitVec 32) (h : m.len < baseLen) :
    Violates (Checked.readMessage sr session expectedCmd m env uninit) := by
  unfold baseLen at h
  by_cases hfour : 4 ≤ m.len
  · obtain ⟨buf, hfirst, hread⟩ := read_body m hfour (swap32 (BitVec.ofNat 32 m.len))
    simp only [Checked.readMessage, hfirst, hread, access, ok_bind]
    refine violates_access_none fun hsome => ?_
    have hbound := isSome_load32.mp hsome
    rw [List.length_append, m.complete] at hbound
    change 4 + 4 ≤ 4 + (m.len - 4) at hbound
    omega
  · refine violates_access_none fun hsome => ?_
    have hbound : 0 + 4 ≤ (List.replicate m.len (0 : Byte)).length := isSome_store.mp hsome
    rw [List.length_replicate] at hbound
    omega

theorem buffer_length (m : Message) : m.buffer.length = 8 + (m.len - 8) := by
  rw [Message.buffer, List.length_append, List.length_append, List.length_drop, m.complete]
  change 4 + (4 + _) = _
  omega

theorem violates_readMessage (m : Message) (expectedCmd : BitVec 32) :
    Violates (Checked.readMessage sr session expectedCmd m env uninit) ↔
      ¬MessageFits sr session expectedCmd m := by
  by_cases hlen : baseLen ≤ m.len
  · have hbuf := buffer_length m
    have haccepted := m.accepted
    have hmax : m.buffer.length ≤ 10000 := by omega
    have hbase : baseLen ≤ m.buffer.length := by
      rw [hbuf]
      exact Nat.le_add_right _ _
    rw [readMessage_eq m expectedCmd hlen, MessageFits, and_iff_right hlen]
    split
    case isTrue hrefused => exact iff_of_false (not_violates_ok _) (not_not_intro (.inl hrefused))
    case isFalse hrefused =>
      rw [or_iff_right hrefused]
      exact violates_dispatch hbase hmax
  · exact iff_of_true (violates_readMessage_short m expectedCmd (Nat.not_le.mp hlen))
      fun hfits => hlen hfits.1

/-- Exactly the messages that have what their handlers read are handled safely. -/
theorem messageSafe_iff (sr : SrInstance) (session : Session) (expectedCmd : BitVec 32) (m : Message)
    (env : Env) (uninit : Mac × Addr) :
    MessageSafe sr session expectedCmd m env uninit ↔ MessageFits sr session expectedCmd m := by
  have hviolates : Violates (Checked.readMessage sr session expectedCmd m env uninit) ↔
      ¬MessageFits sr session expectedCmd m := violates_readMessage m expectedCmd
  constructor
  · rintro ⟨hin, hassert, -⟩
    rw [← not_not (a := MessageFits _ _ _ _), ← hviolates, violates_iff]
    exact not_or.mpr ⟨hin, hassert⟩
  · intro hfits
    have hsafe : ¬Violates (Checked.readMessage sr session expectedCmd m env uninit) := by
      rw [hviolates]
      exact not_not_intro hfits
    rw [violates_iff, not_or] at hsafe
    refine ⟨hsafe.1, hsafe.2, fun n hn => ?_⟩
    have hbuf := buffer_length m
    have haccepted := m.accepted
    obtain ⟨hheader, rfl⟩ := frameToHandle_some (by omega) hn
    unfold packetHeaderLen at *
    omega

/-- A message that is not even as long as its length field. -/
def emptyMessage : Message where
  len := 0
  accepted := by decide
  body := []
  complete := rfl

/-- Hardware information with an address in its first entry. -/
def addressFirst : Message where
  len := 44
  accepted := by decide
  body := le32 (swap32 vnsHwinfo) ++ le32 (swap32 hwEthip) ++ List.replicate 32 0
  complete := by decide

/-- A packet without the name of an interface. -/
def namelessPacket : Message where
  len := 8
  accepted := by decide
  body := le32 (swap32 vnsPacket)
  complete := by decide

/-- The length is stored in an empty buffer, an address has no interface to go to, and the name of
an interface is compared with what is behind the buffer. -/
theorem not_messageSafe_hostile :
    ¬MessageSafe (srInit [] []) ⟨[], fun _ => none, true⟩ 0 emptyMessage ⟨0, 0, 0⟩ (0, 0) ∧
      ¬MessageSafe (srInit [] []) ⟨[], fun _ => none, true⟩ vnsHwinfo addressFirst ⟨0, 0, 0⟩
        (0, 0) ∧
      ¬MessageSafe (srInit [eth3] []) ⟨[], fun _ => none, true⟩ 0 namelessPacket ⟨0, 0, 0⟩
        (0, 0) := by
  refine ⟨fun h => h.inBuffer ⟨0, 4, rfl⟩, fun h => h.asserts rfl, fun h => ?_⟩
  exact h.inBuffer ⟨8, 1, rfl⟩

end NetworkStack.Router
