import NetworkStack.Lib.CString
import NetworkStack.Lib.KeyedList
import NetworkStack.Vns.Length
import NetworkStack.Vns.ToController

/-!
# From the controller to the router

The controller describes each interface by six entries of the same length, and the router
builds its list from them by changing the interface it added last. A frame that the
controller sends comes to `sr_handlepacket` as it is, unless it is an ARP request for
another address.
-/

namespace NetworkStack.Vns

open Bytes Buffer Chunks Router

/-- The interface of the router that this one stands for. -/
structure Shows (inter : SrIf) (i : VnsInterface) : Prop where
  name : inter.name = i.name
  addr : le48 inter.addr = i.mac
  ip : le32 inter.ip = i.ip

/-- A complete ARP request for an address other than that of the interface. -/
def AsksForOther (i : VnsInterface) (frame : List Byte) : Prop :=
  42 ≤ frame.length ∧ load16 frame 12 = some (swap16 ethertypeArp) ∧
    load16 frame 20 = some (swap16 arpOpRequest) ∧ slice frame 38 4 ≠ i.ip

instance (i : VnsInterface) (frame : List Byte) : Decidable (AsksForOther i frame) := by
  unfold AsksForOther
  infer_instance

/-! ## Entries -/

/-- An entry of a `c_hwinfo`. -/
abbrev Entry := BitVec 32 × List Byte

def Entry.bytes (e : Entry) : List Byte := be32 e.1 ++ e.2

def VnsInterface.entries (i : VnsInterface) : List Entry :=
  [(hwInterface, packS 32 i.name), (hwSpeed, be32 0 ++ packS 28 []), (hwEther, packS 32 i.mac),
    (hwEthip, packS 4 i.ip ++ packS 28 []), (hwSubnet, be32 0 ++ packS 28 []),
    (hwMask, packS 4 i.mask ++ packS 28 [])]

variable {sr t : SrInstance} {uninit : Mac × Addr} {i : VnsInterface} {interfaces : List VnsInterface}

theorem pack_eq_entries (i : VnsInterface) : i.pack = i.entries.flatMap Entry.bytes := by
  simp [VnsInterface.pack, VnsInterface.entries, Entry.bytes, List.append_assoc]

theorem entries_length {e : Entry} (h : e ∈ i.entries) : e.2.length = 32 := by
  simp only [VnsInterface.entries, List.mem_cons, List.not_mem_nil, or_false] at h
  obtain rfl | rfl | rfl | rfl | rfl | rfl := h
  · exact packS_length 32 i.name
  · rw [List.length_append, packS_length]
    rfl
  · exact packS_length 32 i.mac
  · rw [List.length_append, packS_length, packS_length]
  · rw [List.length_append, packS_length]
    rfl
  · rw [List.length_append, packS_length, packS_length]

theorem bytes_length (e : Entry) (h : e.2.length = 32) : e.bytes.length = hwEntryLen := by
  rw [Entry.bytes, List.length_append, h]
  rfl

theorem flatMap_bytes_length {entries : List Entry} (h : ∀ e ∈ entries, e.2.length = 32) :
    (entries.flatMap Entry.bytes).length = entries.length * hwEntryLen := by
  induction entries with
  | nil => rfl
  | cons e rest ih =>
      rw [List.flatMap_cons, List.length_append, bytes_length e (h e List.mem_cons_self),
        ih fun e he => h e (List.mem_cons_of_mem _ he), List.length_cons, Nat.succ_mul, Nat.add_comm]

/-- What is read of an entry does not depend on where it is. -/
theorem hwEntry_append (pre post : List Byte) (e : Entry) (h : e.2.length = 32) :
    hwEntry (pre ++ (e.bytes ++ post)) pre.length uninit sr = hwEntry e.bytes 0 uninit sr := by
  have hlen : e.bytes.length = 36 := bytes_length e h
  have hkey : load32 (pre ++ (e.bytes ++ post)) pre.length = load32 e.bytes 0 := by
    rw [← load32_append_left (show 0 + 4 ≤ e.bytes.length by omega)]
    exact load32_append_right pre _ 0
  have hname : load (pre ++ (e.bytes ++ post)) (pre.length + 4) 32 = load e.bytes 4 32 := by
    rw [load_append_right, load_append_left (by omega)]
  have hip : load32 (pre ++ (e.bytes ++ post)) (pre.length + 4) = load32 e.bytes 4 := by
    rw [load32_append_right, load32_append_left (by omega)]
  have haddr : load48 (pre ++ (e.bytes ++ post)) (pre.length + 4) = load48 e.bytes 4 := by
    rw [load48_append_right, load48_append_left (by omega)]
  simp only [hwEntry, hkey, hname, hip, haddr, Nat.zero_add]

/-- The router handles the entries one by one. -/
theorem hwinfoLoop_entries {entries : List Entry} (h : ∀ e ∈ entries, e.2.length = 32)
    (pre : List Byte) {i : Nat} (hpre : pre.length = baseLen + i * hwEntryLen) :
    hwinfoLoop (pre ++ entries.flatMap Entry.bytes) uninit entries.length i sr =
      entries.foldlM (fun sr e => hwEntry e.bytes 0 uninit sr) sr := by
  induction entries generalizing pre i sr with
  | nil => rfl
  | cons e rest ih =>
      have he := h e List.mem_cons_self
      have hpre' : (pre ++ e.bytes).length = baseLen + (i + 1) * hwEntryLen := by
        rw [List.length_append, hpre, bytes_length e he, Nat.succ_mul, Nat.add_assoc]
      rw [List.flatMap_cons, List.length_cons, hwinfoLoop, ← hpre, hwEntry_append pre _ e he,
        List.foldlM_cons]
      cases hwEntry e.bytes 0 uninit sr with
      | none => rfl
      | some sr =>
          have hrest : hwinfoLoop (pre ++ e.bytes ++ rest.flatMap Entry.bytes) uninit rest.length
              (i + 1) sr = rest.foldlM (fun sr e => hwEntry e.bytes 0 uninit sr) sr :=
            ih (fun e he => h e (List.mem_cons_of_mem _ he)) _ hpre'
          rw [List.append_assoc] at hrest
          exact hrest

/-- What an entry does to the router. -/
theorem hwEntry_bytes (e : Entry) (h : e.2.length = 32) (sr : SrInstance) :
    hwEntry e.bytes 0 uninit sr =
      if e.1 = hwInterface then some (srAddInterface sr (cString e.2) uninit)
      else if e.1 = hwEthip then (load32 e.2 0).bind (srSetEtherIp sr)
      else if e.1 = hwEther then (load48 e.2 0).bind (srSetEtherAddr sr)
      else some sr := by
  have hkey : load32 e.bytes 0 = some (swap32 e.1) := by
    rw [Entry.bytes, ← le32_swap32]
    exact load32_le32 [] _ rfl
  have hname : load e.bytes 4 32 = some e.2 := by
    have hload : load e.bytes 4 32 = load e.2 0 32 := load_append_right (be32 e.1) e.2 0 32
    rw [hload, load, if_pos (by omega), List.drop_zero, List.take_of_length_le (by omega)]
  have hip : load32 e.bytes 4 = load32 e.2 0 := load32_append_right (be32 e.1) e.2 0
  have haddr : load48 e.bytes 4 = load48 e.2 0 := load48_append_right (be32 e.1) e.2 0
  simp only [hwEntry, hkey, Nat.zero_add, hname, hip, haddr, Option.bind_eq_bind, Option.bind_some,
    swap32_swap32, Option.pure_def]
  rfl

theorem setLast_append (sr : SrInstance) (l : List SrIf) (x : SrIf) (f : SrIf → SrIf) :
    setLast { sr with ifList := l ++ [x] } f = some { sr with ifList := l ++ [f x] } := by
  simp [setLast]

/-- A string ends where its zero byte is. -/
theorem cString_append {s : List Byte} (h : 0 ∉ s) (rest : List Byte) :
    cString (s ++ 0 :: rest) = s := by
  rw [cString, CString.takeWhile_append_of_not_mem h, List.takeWhile_cons_of_neg (by simp),
    List.append_nil]

theorem packS_of_lt {n : Nat} {s : List Byte} (h : s.length < n) :
    packS n s = s ++ 0 :: List.replicate (n - s.length - 1) 0 := by
  rw [packS, List.take_of_length_le (by omega), ← List.replicate_succ,
    Nat.sub_add_cancel (by omega)]

theorem hwEntry_interface (sr : SrInstance) {name : List Byte} (h : Fits 15 name) :
    hwEntry (Entry.bytes (hwInterface, packS 32 name)) 0 uninit sr =
      some { sr with ifList := sr.ifList ++ [⟨name, uninit.1, uninit.2⟩] } := by
  have hlt : name.length < 32 := Nat.lt_of_le_of_lt h.2 (by decide)
  have hname : cString (packS 32 name) = name := by
    rw [packS_of_lt hlt]
    exact cString_append h.1 _
  rw [hwEntry_bytes _ (packS_length 32 name), if_pos rfl]
  simp only [hname]
  rw [srAddInterface, List.take_of_length_le (show name.length ≤ srIfaceNamelen from hlt.le)]

theorem hwEntry_ether (sr : SrInstance) (l : List SrIf) (x : SrIf) (addr : Mac) :
    hwEntry (Entry.bytes (hwEther, packS 32 (le48 addr))) 0 uninit
        { sr with ifList := l ++ [x] } =
      some { sr with ifList := l ++ [{ x with addr := addr }] } := by
  have haddr : load48 (packS 32 (le48 addr)) 0 = some addr := load48_le48 [] addr rfl
  rw [hwEntry_bytes _ (packS_length 32 _), if_neg (show hwEther ≠ hwInterface by decide),
    if_neg (show hwEther ≠ hwEthip by decide), if_pos rfl]
  simp only [haddr, Option.bind_some]
  exact setLast_append sr l x _

theorem hwEntry_ethip (sr : SrInstance) (l : List SrIf) (x : SrIf) (ip : Addr) :
    hwEntry (Entry.bytes (hwEthip, packS 4 (le32 ip) ++ packS 28 [])) 0 uninit
        { sr with ifList := l ++ [x] } =
      some { sr with ifList := l ++ [{ x with ip := ip }] } := by
  have hip : load32 (packS 4 (le32 ip) ++ packS 28 []) 0 = some ip := load32_le32 [] ip rfl
  have hlen : (packS 4 (le32 ip) ++ packS 28 []).length = 32 := by
    rw [List.length_append, packS_length, packS_length]
  rw [hwEntry_bytes _ hlen, if_neg (show hwEthip ≠ hwInterface by decide), if_pos rfl]
  simp only [hip, Option.bind_some]
  exact setLast_append sr l x _

/-- The speed, the subnet and the mask are not used. -/
theorem hwEntry_other (sr : SrInstance) (e : Entry) (h : e.2.length = 32)
    (hkey : e.1 ≠ hwInterface ∧ e.1 ≠ hwEthip ∧ e.1 ≠ hwEther) :
    hwEntry e.bytes 0 uninit sr = some sr := by
  rw [hwEntry_bytes e h, if_neg hkey.1, if_neg hkey.2.1, if_neg hkey.2.2]

/-- The six entries of an interface add it to the list. -/
theorem foldlM_entries (uninit : Mac × Addr) (sr : SrInstance) (i : VnsInterface)
    (h : Fits 15 i.name) :
    ∃ inter, Shows inter i ∧ i.entries.foldlM (fun sr e => hwEntry e.bytes 0 uninit sr) sr =
      some { sr with ifList := sr.ifList ++ [inter] } := by
  obtain ⟨addr, haddr⟩ := exists_le48 i.mac_length
  obtain ⟨ip, hip⟩ := exists_le32 i.ip_length
  refine ⟨⟨i.name, addr, ip⟩, ⟨rfl, haddr.symm, hip.symm⟩, ?_⟩
  have hother (sr : SrInstance) (e : Entry) (he : e ∈ i.entries)
      (hkey : e.1 ≠ hwInterface ∧ e.1 ≠ hwEthip ∧ e.1 ≠ hwEther) :
      hwEntry e.bytes 0 uninit sr = some sr :=
    hwEntry_other sr e (entries_length he) hkey
  have hspeed (sr : SrInstance) := hother sr (hwSpeed, be32 0 ++ packS 28 [])
    (by simp [VnsInterface.entries]) (by decide)
  have hsubnet (sr : SrInstance) := hother sr (hwSubnet, be32 0 ++ packS 28 [])
    (by simp [VnsInterface.entries]) (by decide)
  have hmask (sr : SrInstance) := hother sr (hwMask, packS 4 i.mask ++ packS 28 [])
    (by simp [VnsInterface.entries])
    (show hwMask ≠ hwInterface ∧ hwMask ≠ hwEthip ∧ hwMask ≠ hwEther by decide)
  simp only [VnsInterface.entries, List.foldlM_cons, List.foldlM_nil, hwEntry_interface sr h,
    hspeed, haddr, hwEntry_ether, hip, hwEntry_ethip, hsubnet, hmask, Option.bind_eq_bind,
    Option.bind_some, Option.pure_def]

theorem foldlM_interfaces (uninit : Mac × Addr) (sr : SrInstance)
    (h : ∀ i ∈ interfaces, Fits 15 i.name) :
    ∃ inters, List.Forall₂ Shows inters interfaces ∧
      (interfaces.flatMap VnsInterface.entries).foldlM
        (fun sr e => hwEntry e.bytes 0 uninit sr) sr =
      some { sr with ifList := sr.ifList ++ inters } := by
  induction interfaces generalizing sr with
  | nil => exact ⟨[], .nil, by simp⟩
  | cons i rest ih =>
      obtain ⟨inter, hinter, hfold⟩ := foldlM_entries uninit sr i (h i List.mem_cons_self)
      obtain ⟨inters, hinters, hrest⟩ := ih { sr with ifList := sr.ifList ++ [inter] }
        fun j hj => h j (List.mem_cons_of_mem i hj)
      refine ⟨inter :: inters, .cons hinter hinters, ?_⟩
      rw [List.flatMap_cons, List.foldlM_append, hfold, Option.bind_eq_bind, Option.bind_some, hrest]
      simp

/-- A `c_hwinfo` adds its interfaces in order. -/
theorem srHandleHwinfo_pack (header : List Byte) (hheader : header.length = baseLen)
    (uninit : Mac × Addr) (sr : SrInstance) (h : ∀ i ∈ interfaces, Fits 15 i.name) :
    ∃ inters, List.Forall₂ Shows inters interfaces ∧
      srHandleHwinfo sr (header ++ interfaces.flatMap VnsInterface.pack) uninit =
        some { sr with ifList := sr.ifList ++ inters } := by
  obtain ⟨inters, hinters, hfold⟩ := foldlM_interfaces uninit sr h
  refine ⟨inters, hinters, ?_⟩
  have hpack : interfaces.flatMap VnsInterface.pack =
      (interfaces.flatMap VnsInterface.entries).flatMap Entry.bytes := by
    rw [List.flatMap_assoc]
    exact congrArg (interfaces.flatMap ·) (funext pack_eq_entries)
  have hvalue : ∀ e ∈ interfaces.flatMap VnsInterface.entries, e.2.length = 32 := by
    intro e he
    obtain ⟨i, -, he⟩ := List.mem_flatMap.mp he
    exact entries_length he
  have hcount : ((header ++ interfaces.flatMap VnsInterface.pack).length - baseLen) / hwEntryLen =
      (interfaces.flatMap VnsInterface.entries).length := by
    rw [List.length_append, hheader, Nat.add_sub_cancel_left, hpack, flatMap_bytes_length hvalue,
      Nat.mul_div_cancel _ (by decide)]
  rw [srHandleHwinfo, hcount, hpack,
    hwinfoLoop_entries hvalue header (by rw [hheader, Nat.zero_mul, Nat.add_zero]), hfold]

/-! ## Commands -/

/-- The bytes of a command that the controller sends. -/
def commandBytes (command : BitVec 32) (body : List Byte) : List Byte :=
  le32 (swap32 (BitVec.ofNat 32 (8 + body.length))) ++ le32 (swap32 command) ++ body

theorem commandBytes_length (command : BitVec 32) (body : List Byte) :
    (commandBytes command body).length = 8 + body.length := by
  rw [commandBytes, List.length_append, List.length_append]
  rfl

/-- A command is read whole, however it arrives, and goes to its handler. -/
theorem srReadFromServerExpect_command {session : Session} {command expectedCmd : BitVec 32}
    {body more : List Byte} {chunks : List (List Byte)} {env : Env} (sr : SrInstance)
    (uninit : Mac × Addr) (hsize : 8 + body.length ≤ 10000)
    (hexpected : expectedCmd = 0 ∨ expectedCmd = command)
    (hchunks : chunks.flatten = commandBytes command body ++ more) :
    ∃ rest, rest.flatten = more ∧
      srReadFromServerExpect sr session expectedCmd chunks env uninit =
        (dispatch sr session command (commandBytes command body) env uninit).map (·, rest) := by
  have hsplit : chunks.flatten = le32 (swap32 (BitVec.ofNat 32 (8 + body.length))) ++
      (le32 (swap32 command) ++ body ++ more) := by
    rw [hchunks, commandBytes]
    simp only [List.append_assoc]
  obtain ⟨rest₁, hread₁, hrest₁⟩ := readAll_append hsplit
  obtain ⟨rest, hread, hrest⟩ := readAll_append hrest₁
  refine ⟨rest, hrest, ?_⟩
  have hlen : load32 (le32 (swap32 (BitVec.ofNat 32 (8 + body.length)))) 0 =
      some (swap32 (BitVec.ofNat 32 (8 + body.length))) := by
    rw [← List.append_nil (le32 _)]
    exact load32_le32 [] _ rfl
  have htoNat : (BitVec.ofNat 32 (8 + body.length)).toNat = 8 + body.length := by
    rw [BitVec.toNat_ofNat]
    omega
  have htoInt : (BitVec.ofNat 32 (8 + body.length)).toInt = 8 + body.length := by
    rw [BitVec.toInt_eq_toNat_of_lt (by rw [htoNat]; omega), htoNat]
    omega
  have hcommand : load32 (le32 (swap32 (BitVec.ofNat 32 (8 + body.length))) ++
      (le32 (swap32 command) ++ body)) 4 = some (swap32 command) := by
    exact load32_le32 _ _ rfl
  have hcount : 8 + body.length - 4 = (le32 (swap32 command) ++ body).length := by
    rw [List.length_append]
    change _ = 4 + body.length
    omega
  have hread₁' : readAll chunks 4 =
      some (le32 (swap32 (BitVec.ofNat 32 (8 + body.length))), rest₁) := hread₁
  have hok : ¬(expectedCmd ≠ 0 ∧ command ≠ expectedCmd ∧ command ≠ vnsClose) := by
    rintro ⟨hzero, hne, -⟩
    obtain rfl | rfl := hexpected
    · exact hzero rfl
    · exact hne rfl
  rw [srReadFromServerExpect, hread₁']
  simp only [Option.bind_eq_bind, Option.bind_some, hlen, swap32_swap32, htoInt, htoNat]
  rw [if_neg (by omega), if_neg (by unfold baseLen; omega), hcount, hread]
  simp only [Option.bind_some, hcommand, swap32_swap32, if_neg hok, commandBytes, List.append_assoc]
  cases dispatch sr session command _ env uninit <;> rfl

/-! ## Packets -/

theorem map_name_of_shows {inters : List SrIf} (h : List.Forall₂ Shows inters interfaces)
    (hfits : ∀ i ∈ interfaces, Fits 15 i.name) :
    inters.map (fun inter => inter.name.take srIfaceNamelen) =
      interfaces.map VnsInterface.name := by
  induction h with
  | nil => rfl
  | @cons inter i _ _ hi _ ih =>
      have hshort : i.name.length ≤ srIfaceNamelen :=
        (hfits i List.mem_cons_self).2.trans (by decide)
      rw [List.map_cons, List.map_cons, ih fun j hj => hfits j (List.mem_cons_of_mem _ hj), hi.name,
        List.take_of_length_le hshort]

theorem exists_shows {inters : List SrIf} (h : List.Forall₂ Shows inters interfaces)
    (hi : i ∈ interfaces) : ∃ inter ∈ inters, Shows inter i := by
  induction h with
  | nil => cases hi
  | cons hj _ ih =>
      obtain rfl | hi := List.mem_cons.mp hi
      · exact ⟨_, List.mem_cons_self, hj⟩
      · obtain ⟨inter, hinter, hshow⟩ := ih hi
        exact ⟨inter, List.mem_cons_of_mem _ hinter, hshow⟩

/-- The router finds each interface under its name. -/
theorem srGetInterface_shows {t : SrInstance} (hshows : List.Forall₂ Shows t.ifList interfaces)
    (hnames : (interfaces.map VnsInterface.name).Nodup) (hfits : ∀ i ∈ interfaces, Fits 15 i.name)
    (hi : i ∈ interfaces) : ∃ inter, srGetInterface t i.name = some inter ∧ Shows inter i := by
  obtain ⟨inter, hinter, hshow⟩ := exists_shows hshows hi
  refine ⟨inter, ?_, hshow⟩
  rw [← map_name_of_shows hshows hfits] at hnames
  rw [srGetInterface, ← hshow.name]
  exact KeyedList.find_of_mem hnames hinter

/-- The router drops the ARP requests for other addresses, and no other frame. -/
theorem srArpReqNotForUs_eq {t : SrInstance} {inter : SrIf} (frame : List Byte)
    (hinter : srGetInterface t i.name = some inter) (hshow : Shows inter i) :
    srArpReqNotForUs t frame i.name = some (decide (AsksForOther i frame)) := by
  unfold srArpReqNotForUs
  split
  · rename_i hshort
    rw [decide_eq_false]
    rintro ⟨hlen, -⟩
    omega
  · rename_i hlen
    obtain ⟨etherType, htype⟩ := exists_load16 (show 12 + 2 ≤ frame.length by omega)
    obtain ⟨op, hop⟩ := exists_load16 (show 20 + 2 ≤ frame.length by omega)
    obtain ⟨tip, htip⟩ := exists_load32 (show 38 + 4 ≤ frame.length by omega)
    have hslice : slice frame 38 4 = le32 tip := le32_of_load32 htip
    have hip : le32 tip ≠ i.ip ↔ tip ≠ inter.ip := by
      rw [← hshow.ip, Ne, le32_inj]
    simp only [hinter, htype, hop, htip, Option.bind_eq_bind, Option.bind_some, Option.pure_def,
      AsksForOther, hslice, hip, Option.some.injEq, Nat.not_lt.mp hlen, true_and]

theorem vnsInterface_packet {name frame : List Byte} (h : Fits 15 name) :
    vnsInterface (commandBytes vnsPacket (packS 16 name ++ frame)) = some name := by
  have hdrop : (commandBytes vnsPacket (packS 16 name ++ frame)).drop baseLen =
      packS 16 name ++ frame := List.drop_left' rfl
  have hlt : name.length < 16 := Nat.lt_of_le_of_lt h.2 (by decide)
  have hname : cString (packS 16 name ++ frame) = name := by
    rw [packS_of_lt hlt, List.append_assoc]
    exact cString_append h.1 _
  have hlen : name.length < (packS 16 name ++ frame).length := by
    rw [List.length_append, packS_length]
    omega
  simp only [vnsInterface, hdrop, hname]
  rw [if_pos (.inl hlen)]

/-- A packet for an interface that the router knows. -/
theorem dispatch_packet {session : Session} {t : SrInstance} {inter : SrIf} {frame : List Byte}
    (hname : Fits 15 i.name) (hinter : srGetInterface t i.name = some inter)
    (hshow : Shows inter i) (env : Env) (uninit : Mac × Addr) :
    dispatch t session vnsPacket (commandBytes vnsPacket (packS 16 i.name ++ frame)) env uninit =
      if AsksForOther i frame then some (.quiet t 1)
      else (srHandlepacket t frame i.name env).map fun r =>
        { ret := 1, sr := r.1, handled := some (frame, i.name), calls := r.2, sent := [] } := by
  have hlen : ¬(commandBytes vnsPacket (packS 16 i.name ++ frame)).length < packetHeaderLen := by
    rw [commandBytes_length, List.length_append, packS_length]
    unfold packetHeaderLen
    omega
  have hframe : (commandBytes vnsPacket (packS 16 i.name ++ frame)).drop packetHeaderLen = frame := by
    rw [commandBytes, ← List.append_assoc]
    apply List.drop_left'
    rw [List.length_append, packS_length]
    rfl
  rw [dispatch, if_pos rfl, if_neg hlen, hframe, vnsInterface_packet hname]
  simp only [handleVnsPacket, srArpReqNotForUs_eq frame hinter hshow, Option.bind_eq_bind,
    Option.bind_some, decide_eq_true_eq]
  split
  · rfl
  · cases srHandlepacket t frame i.name env <;> rfl

/-! ## The session -/

/-- The bytes of a message are those of a command, if their number fits its field. -/
theorem packWithHeader_commandBytes {msg : VnsMessage} {body : List Byte} (command : BitVec 32)
    (hbody : msg.pack = some body) (hlt : 8 + body.length < 2 ^ 32)
    (htype : msg.getType = command.toNat) :
    packWithHeader msg = some (commandBytes command body) :=
  packWithHeader_eq _ command hbody rfl hlt htype

/-- Each packet of the controller for one of these interfaces comes to `sr_handlepacket` as it
is, unless it is dropped. -/
def Relays (session : Session) (ifList : List SrIf) (interfaces : List VnsInterface) : Prop :=
  ∀ i ∈ interfaces, ∀ frame message, packWithHeader (.vnsPacket i.name frame) = some message →
    message.length ≤ 10000 → ∀ t : SrInstance, t.ifList = ifList →
    ∀ expectedCmd chunks more env uninit, expectedCmd = 0 ∨ expectedCmd = vnsPacket →
    chunks.flatten = message ++ more →
    ∃ rest, rest.flatten = more ∧
      srReadFromServerExpect t session expectedCmd chunks env uninit =
        if AsksForOther i frame then some (.quiet t 1, rest)
        else (srHandlepacket t frame i.name env).map fun r =>
          ({ ret := 1, sr := r.1, handled := some (frame, i.name), calls := r.2, sent := [] }, rest)

theorem relays_of_shows (session : Session) {ifList : List SrIf}
    (hshows : List.Forall₂ Shows ifList interfaces)
    (hnames : (interfaces.map VnsInterface.name).Nodup)
    (hfits : ∀ i ∈ interfaces, Fits 15 i.name) : Relays session ifList interfaces := by
  intro i hi frame message hmessage hlen t ht expectedCmd chunks more env uninit hexpected hchunks
  have hbody : (VnsMessage.vnsPacket i.name frame).pack = some (packS 16 i.name ++ frame) := rfl
  have hsize := packWithHeader_length hbody hmessage
  have hbytes := packWithHeader_commandBytes vnsPacket hbody (by omega) rfl
  obtain rfl := Option.some.inj (hbytes.symm.trans hmessage)
  obtain ⟨inter, hinter, hshow⟩ := srGetInterface_shows (ht ▸ hshows) hnames hfits hi
  obtain ⟨rest, hrest, hread⟩ :=
    srReadFromServerExpect_command t uninit (by omega) hexpected hchunks
  refine ⟨rest, hrest, ?_⟩
  rw [hread, dispatch_packet (hfits i hi) hinter hshow]
  split
  · rfl
  · cases srHandlepacket t frame i.name env <;> rfl

/-- A router that reads the description of its interfaces has exactly those, and then gets
their packets. -/
theorem read_hardwareInfo (session : Session) {interfaces : List VnsInterface}
    (hcount : interfaces.length ≤ 46) (hnames : (interfaces.map VnsInterface.name).Nodup)
    (hfits : ∀ i ∈ interfaces, Fits 15 i.name) :
    ∃ bytes, packWithHeader (.vnsHardwareInfo interfaces) = some bytes ∧
      ∀ (sr : SrInstance) expectedCmd chunks more env uninit, sr.ifList = [] →
        expectedCmd = 0 ∨ expectedCmd = vnsHwinfo → chunks.flatten = bytes ++ more →
        ∃ outcome rest,
          srReadFromServerExpect sr session expectedCmd chunks env uninit = some (outcome, rest) ∧
          rest.flatten = more ∧ outcome.sr = { sr with ifList := outcome.sr.ifList } ∧
          List.Forall₂ Shows outcome.sr.ifList interfaces ∧
          Relays session outcome.sr.ifList interfaces := by
  have hlen : (interfaces.flatMap VnsInterface.pack).length = interfaces.length * 216 :=
    flatMap_pack_length interfaces
  refine ⟨commandBytes vnsHwinfo (interfaces.flatMap VnsInterface.pack),
    packWithHeader_commandBytes vnsHwinfo rfl (by omega) rfl, ?_⟩
  intro sr expectedCmd chunks more env uninit hempty hexpected hchunks
  obtain ⟨inters, hinters, hhandle⟩ := srHandleHwinfo_pack
    (le32 (swap32 (BitVec.ofNat 32 (8 + (interfaces.flatMap VnsInterface.pack).length))) ++
      le32 (swap32 vnsHwinfo)) rfl uninit sr hfits
  rw [hempty, List.nil_append] at hhandle
  obtain ⟨rest, hrest, hread⟩ :=
    srReadFromServerExpect_command sr uninit (by omega) hexpected hchunks
  have hdispatch : dispatch sr session vnsHwinfo
      (commandBytes vnsHwinfo (interfaces.flatMap VnsInterface.pack)) env uninit =
      some (.quiet { sr with ifList := inters }
        (if srVerifyRoutingTable { sr with ifList := inters } ≠ 0 then -1 else 1)) := by
    rw [dispatch, if_neg (by decide), if_neg (by decide), if_pos rfl, commandBytes, hhandle]
    rfl
  rw [hdispatch, Option.map_some] at hread
  exact ⟨_, rest, hread, hrest, rfl, hinters, relays_of_shows session hinters hnames hfits⟩

def twoInterfaces : List VnsInterface :=
  [⟨Decimal.text "eth0", [2, 0, 0, 0, 0, 1], [10, 0, 1, 1], [255, 255, 255, 0], rfl, rfl, rfl⟩,
    ⟨Decimal.text "eth1", [2, 0, 0, 0, 0, 2], [10, 0, 2, 1], [255, 255, 255, 0], rfl, rfl, rfl⟩]

/-- The bytes arrive one by one. -/
theorem read_twoInterfaces :
    ∃ bytes, packWithHeader (.vnsHardwareInfo twoInterfaces) = some bytes ∧
      ∃ outcome rest,
        srReadFromServerExpect ⟨[], [], srArpcacheInit⟩ ⟨[], fun _ => none, true⟩ vnsHwinfo
          (bytes.map ([·])) ⟨0, 0, 0⟩ (0, 0) = some (outcome, rest) ∧
        List.Forall₂ Shows outcome.sr.ifList twoInterfaces ∧
        Relays ⟨[], fun _ => none, true⟩ outcome.sr.ifList twoInterfaces := by
  have hfits : ∀ i ∈ twoInterfaces, Fits 15 i.name := by
    intro i hi
    simp only [twoInterfaces, List.mem_cons, List.not_mem_nil, or_false] at hi
    obtain rfl | rfl := hi
    · exact ⟨by decide, by decide⟩
    · exact ⟨by decide, by decide⟩
  obtain ⟨bytes, hbytes, hread⟩ := read_hardwareInfo ⟨[], fun _ => none, true⟩
    (show twoInterfaces.length ≤ 46 by decide) (by decide) hfits
  refine ⟨bytes, hbytes, ?_⟩
  obtain ⟨outcome, rest, houtcome, -, -, hshows, hrelays⟩ :=
    hread ⟨[], [], srArpcacheInit⟩ vnsHwinfo (bytes.map ([·])) [] ⟨0, 0, 0⟩ (0, 0) rfl (.inr rfl)
      (by rw [← List.flatMap_def, List.flatMap_singleton', List.append_nil])
  exact ⟨outcome, rest, houtcome, hshows, hrelays⟩

end NetworkStack.Vns
