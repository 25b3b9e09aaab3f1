import NetworkStack.Vns.Ltprotocol

/-!
# The lengths of messages

Each message class has a method `length` beside `pack`. The part of a message that has a format is
measured with the same format that packs it, and what is behind it is counted apart.
`VNSOpenTemplate` counts the template name twice, and `VNSAuthReply` leaves out the four bytes that
say how long the username is.
-/

namespace NetworkStack.Vns

open Bytes Decimal

/-! ## Formats of `struct` -/

namespace Struct

/-- An item of a format. -/
inductive Item where
  | H
  | I
  | s (n : Nat)
  deriving DecidableEq, Repr

/-- An argument of `struct.pack`. -/
inductive Value where
  | int (x : Int)
  | str (chars : List Byte)
  deriving DecidableEq, Repr

def Item.size : Item → Nat
  | .H => 2
  | .I => 4
  | .s n => n

def Item.pack : Item → Value → Option (List Byte)
  | .H, .int x => packH x
  | .I, .int x => packI x
  | .s n, .str chars => some (packS n chars)
  | _, _ => none

/-- `struct.calcsize`. Nothing is aligned in a format that starts with `>`. -/
def calcsize (format : List Item) : Nat := (format.map Item.size).sum

/-- `struct.pack`. -/
def pack : List Item → List Value → Option (List Byte)
  | [], [] => some []
  | item :: format, v :: vs => do return (← item.pack v) ++ (← pack format vs)
  | _, _ => none

variable {n : Nat} {item : Item} {format : List Item} {v : Value} {vs : List Value}
  {s bytes : List Byte}

theorem Item.pack_length (h : item.pack v = some bytes) : bytes.length = item.size := by
  cases item with
  | H =>
      cases v with
      | int x => exact packH_length h
      | str s => cases h
  | I =>
      cases v with
      | int x => exact packI_length h
      | str s => cases h
  | s n =>
      cases v with
      | int x => cases h
      | str s =>
          obtain rfl := Option.some.inj h
          exact packS_length n s

/-- What a format packs has the size of the format, whatever the values are. -/
theorem pack_length (h : pack format vs = some bytes) : bytes.length = calcsize format := by
  induction format generalizing vs bytes with
  | nil =>
      cases vs with
      | nil =>
          obtain rfl := Option.some.inj h
          rfl
      | cons v vs => cases h
  | cons item format ih =>
      cases vs with
      | nil => cases h
      | cons v vs =>
          obtain ⟨field, hfield, h⟩ := Option.bind_eq_some_iff.mp h
          obtain ⟨rest, hrest, h⟩ := Option.bind_eq_some_iff.mp h
          obtain rfl := Option.some.inj h
          rw [List.length_append, Item.pack_length hfield, ih hrest]
          exact List.sum_cons.symm

end Struct

/-! ## The formats of the messages -/

/-- `VNSOpen.FORMAT`. -/
def vnsOpenFormat : List Struct.Item := [.H, .H, .s idSize, .s idSize, .s idSize]

/-- `VNSClose.FORMAT`. -/
def vnsCloseFormat : List Struct.Item := [.s 256]

/-- `VNSPacket.HEADER_FORMAT`. -/
def vnsPacketHeaderFormat : List Struct.Item := [.s 16]

/-- `VNSInterface.FORMAT`. -/
def vnsInterfaceFormat : List Struct.Item :=
  [.I, .s 32, .I, .I, .s 28, .I, .s 32, .I, .s 4, .s 28, .I, .I, .s 28, .I, .s 4, .s 28]

/-- `VNSBanner.FORMAT`. -/
def vnsBannerFormat : List Struct.Item := [.s 256]

/-- `VNSRtable.HEADER_FORMAT`. -/
def vnsRtableHeaderFormat : List Struct.Item := [.s idSize]

/-- `VNSOpenTemplate.HEADER_FORMAT`. -/
def vnsOpenTemplateHeaderFormat : List Struct.Item := [.s 30, .s idSize]

/-- `length`. -/
def VnsMessage.length : VnsMessage → Nat
  | .vnsOpen .. => Struct.calcsize vnsOpenFormat
  | .vnsClose _ => Struct.calcsize vnsCloseFormat
  | .vnsPacket _ ethernetFrame => Struct.calcsize vnsPacketHeaderFormat + ethernetFrame.length
  | .vnsBanner _ => Struct.calcsize vnsBannerFormat
  | .vnsHardwareInfo interfaces => interfaces.length * Struct.calcsize vnsInterfaceFormat
  | .vnsRtable _ rtable => Struct.calcsize vnsRtableHeaderFormat + rtable.length
  | .vnsOpenTemplate _ _ srcFilters =>
      Struct.calcsize vnsOpenTemplateHeaderFormat + 30 + 5 * srcFilters.1.length
  | .vnsAuthRequest salt => salt.length
  | .vnsAuthReply username ssp => username.length + ssp.length
  | .vnsAuthStatus _ msg => 1 + msg.length

/-- The values of the fields fit the format. Strings always do. -/
def VnsMessage.FitsFormat : VnsMessage → Prop
  | .vnsOpen topoId .. => 0 ≤ topoId ∧ topoId < 2 ^ 16
  | .vnsOpenTemplate _ _ srcFilters =>
      ∀ f ∈ srcFilters.1, (inetAton f.1).isSome ∧ 0 ≤ f.2 ∧ f.2 < 2 ^ 8
  | .vnsAuthReply username _ => username.length < 2 ^ 32
  | _ => True

/-- `length` is the number of bytes that `pack` makes and that `pack_with_header` puts behind the
header, if their number fits its field. -/
structure Measured (msg : VnsMessage) : Prop where
  packed : ∃ body, msg.pack = some body ∧ body.length = msg.length
  framed : 8 + msg.length < 2 ^ 32 →
    ∃ bytes, packWithHeader msg = some bytes ∧ bytes.length = 8 + msg.length

/-- A message of a class that counts its bytes right. -/
def VnsMessage.Counted : VnsMessage → Prop
  | .vnsOpenTemplate .. => False
  | .vnsAuthReply .. => False
  | _ => True

variable {msg : VnsMessage} {body bytes : List Byte}

/-! ## Packing by the formats -/

theorem packI_toNat (x : BitVec 32) : packI x.toNat = some (be32 x) := by
  have hx := x.isLt
  rw [packI, if_pos ⟨by omega, by omega⟩, BitVec.ofInt_natCast, BitVec.ofNat_toNat,
    BitVec.setWidth_eq]

theorem VnsMessage.pack_vnsOpen (topoId : Int) (vhost user pw : List Byte) :
    (VnsMessage.vnsOpen topoId vhost user pw).pack =
      Struct.pack vnsOpenFormat [.int topoId, .int 0, .str vhost, .str user, .str pw] := by
  have hpad : packH 0 = some (be16 0) := rfl
  simp only [VnsMessage.pack, vnsOpenFormat, Struct.pack, Struct.Item.pack]
  cases packH topoId with
  | none => rfl
  | some topo =>
      simp only [hpad, Option.bind_eq_bind, Option.bind_some, Option.pure_def, List.append_assoc,
        List.append_nil]

theorem VnsInterface.pack_eq (i : VnsInterface) :
    Struct.pack vnsInterfaceFormat
      [.int hwInterface.toNat, .str i.name, .int hwSpeed.toNat, .int 0, .str [],
        .int hwEther.toNat, .str i.mac, .int hwEthip.toNat, .str i.ip, .str [],
        .int hwSubnet.toNat, .int 0, .str [], .int hwMask.toNat, .str i.mask, .str []] =
      some i.pack := by
  have hzero : packI 0 = some (be32 0) := rfl
  simp only [vnsInterfaceFormat, Struct.pack, Struct.Item.pack, packI_toNat, hzero,
    Option.bind_eq_bind, Option.bind_some, Option.pure_def, VnsInterface.pack, List.append_assoc,
    List.append_nil]

theorem pack_string (n : Nat) (s : List Byte) : Struct.pack [.s n] [.str s] = some (packS n s) := by
  simp only [Struct.pack, Struct.Item.pack, Option.bind_eq_bind, Option.bind_some, Option.pure_def,
    List.append_nil]

theorem pack_templateHeader (templateName vrhost : List Byte) :
    Struct.pack vnsOpenTemplateHeaderFormat [.str templateName, .str vrhost] =
      some (packS 30 templateName ++ packS idSize vrhost) := by
  simp only [vnsOpenTemplateHeaderFormat, Struct.pack, Struct.Item.pack, Option.bind_eq_bind,
    Option.bind_some, Option.pure_def, List.append_nil]

theorem VnsInterface.pack_length (i : VnsInterface) :
    i.pack.length = Struct.calcsize vnsInterfaceFormat :=
  Struct.pack_length i.pack_eq

theorem flatMap_pack_length (interfaces : List VnsInterface) :
    (interfaces.flatMap VnsInterface.pack).length =
      interfaces.length * Struct.calcsize vnsInterfaceFormat := by
  induction interfaces with
  | nil => exact (Nat.zero_mul _).symm
  | cons i rest ih =>
      rw [List.flatMap_cons, List.length_append, i.pack_length, ih, List.length_cons, Nat.succ_mul,
        Nat.add_comm]

/-! ## Lengths -/

/-- Eight of the ten classes count their bytes right. -/
theorem length_of_counted (hcounted : msg.Counted) (h : msg.pack = some body) :
    body.length = msg.length := by
  cases msg with
  | vnsOpen topoId vhost user pw =>
      rw [VnsMessage.pack_vnsOpen] at h
      exact Struct.pack_length h
  | vnsClose msg => exact Struct.pack_length ((pack_string 256 msg).trans h)
  | vnsPacket intfName ethernetFrame =>
      obtain rfl := Option.some.inj h
      rw [List.length_append, Struct.pack_length (pack_string 16 intfName)]
      rfl
  | vnsBanner msg => exact Struct.pack_length ((pack_string 256 msg).trans h)
  | vnsHardwareInfo interfaces =>
      obtain rfl := Option.some.inj h
      exact flatMap_pack_length interfaces
  | vnsRtable vrhost rtable =>
      obtain rfl := Option.some.inj h
      rw [List.length_append, Struct.pack_length (pack_string idSize vrhost)]
      rfl
  | vnsOpenTemplate templateName vrhost srcFilters => exact hcounted.elim
  | vnsAuthRequest salt =>
      obtain rfl := Option.some.inj h
      rfl
  | vnsAuthReply username ssp => exact hcounted.elim
  | vnsAuthStatus authOk msg =>
      obtain rfl := Option.some.inj h
      exact Nat.add_comm msg.length 1

/-- The template name is counted twice. -/
theorem length_openTemplate {templateName vrhost : List Byte} {srcFilters : SrcFilters}
    (h : (VnsMessage.vnsOpenTemplate templateName vrhost srcFilters).pack = some body) :
    (VnsMessage.vnsOpenTemplate templateName vrhost srcFilters).length = body.length + 30 := by
  obtain ⟨filters, hfilters, h⟩ := Option.bind_eq_some_iff.mp h
  obtain rfl := Option.some.inj h
  rw [List.length_append, Struct.pack_length (pack_templateHeader templateName vrhost),
    packFilters_length hfilters, VnsMessage.length]
  omega

/-- The length of the username is not counted. -/
theorem length_authReply {username ssp : List Byte}
    (h : (VnsMessage.vnsAuthReply username ssp).pack = some body) :
    body.length = (VnsMessage.vnsAuthReply username ssp).length + 4 := by
  rw [VnsMessage.pack] at h
  obtain ⟨len, hlen, h⟩ := Option.bind_eq_some_iff.mp h
  obtain rfl := Option.some.inj h
  rw [List.length_append, List.length_append, packI_length hlen, VnsMessage.length]
  omega

/-! ## Messages that fit -/

theorem packB_isSome_iff {x : Int} : (packB x).isSome ↔ 0 ≤ x ∧ x < 2 ^ 8 := by
  rw [packB, Option.isSome_ite]

theorem packH_isSome_iff {x : Int} : (packH x).isSome ↔ 0 ≤ x ∧ x < 2 ^ 16 := by
  rw [packH, Option.isSome_ite]

theorem packI_isSome_iff {x : Int} : (packI x).isSome ↔ 0 ≤ x ∧ x < 2 ^ 32 := by
  rw [packI, Option.isSome_ite]

theorem packFilters_isSome_iff {filters : List SrcFilter} : (packFilters filters).isSome ↔
    ∀ f ∈ filters, (inetAton f.1).isSome ∧ 0 ≤ f.2 ∧ f.2 < 2 ^ 8 := by
  induction filters with
  | nil => exact iff_of_true rfl (List.forall_mem_nil _)
  | cons f rest ih =>
      obtain ⟨ip, mask⟩ := f
      rw [List.forall_mem_cons, ← ih, ← packB_isSome_iff, packFilters]
      cases inetAton ip with
      | none => simp
      | some address =>
          cases packB mask with
          | none => simp
          | some maskByte => cases packFilters rest <;> simp

/-- A message can be packed exactly if its fields fit. -/
theorem pack_isSome_iff : msg.pack.isSome ↔ msg.FitsFormat := by
  cases msg with
  | vnsOpen topoId vhost user pw =>
      rw [VnsMessage.FitsFormat, ← packH_isSome_iff, VnsMessage.pack]
      cases packH topoId <;> rfl
  | vnsOpenTemplate templateName vrhost srcFilters =>
      rw [VnsMessage.FitsFormat, ← packFilters_isSome_iff, VnsMessage.pack]
      cases packFilters srcFilters.1 <;> rfl
  | vnsAuthReply username ssp =>
      have hfits : username.length < 2 ^ 32 ↔ (packI username.length).isSome := by
        rw [packI_isSome_iff]
        omega
      rw [VnsMessage.FitsFormat, hfits, VnsMessage.pack]
      cases packI username.length <;> rfl
  | _ => exact iff_of_true rfl trivial

theorem packI_getType (msg : VnsMessage) : (packI msg.getType).isSome := by
  rw [packI_isSome_iff]
  cases msg <;> simp only [VnsMessage.getType] <;> omega

/-- With its header it can be packed exactly if the length fits too. -/
theorem packWithHeader_isSome_iff (h : msg.pack = some body) :
    (packWithHeader msg).isSome ↔ 8 + body.length < 2 ^ 32 := by
  have hfits : (packI (8 + body.length)).isSome ↔ 8 + body.length < 2 ^ 32 := by
    rw [packI_isSome_iff]
    omega
  obtain ⟨typeBytes, htype⟩ := Option.isSome_iff_exists.mp (packI_getType msg)
  rw [← hfits, packWithHeader, h, Option.bind_eq_bind, Option.bind_some]
  cases hheader : packI (8 + body.length) with
  | none => exact Iff.rfl
  | some header =>
      rw [Option.bind_some, htype, Option.bind_some]
      exact Iff.rfl

theorem counted_of_measured (h : Measured msg) : msg.Counted := by
  obtain ⟨body, hbody, hlength⟩ := h.packed
  cases msg with
  | vnsOpenTemplate templateName vrhost srcFilters =>
      have hwrong := length_openTemplate hbody
      omega
  | vnsAuthReply username ssp =>
      have hwrong := length_authReply hbody
      omega
  | _ => trivial

theorem measured_of_counted (hfits : msg.FitsFormat) (hcounted : msg.Counted) : Measured msg := by
  obtain ⟨body, hbody⟩ := Option.isSome_iff_exists.mp (pack_isSome_iff.mpr hfits)
  have hlength : body.length = msg.length := length_of_counted hcounted hbody
  refine ⟨⟨body, hbody, hlength⟩, fun hframe => ?_⟩
  rw [← hlength] at hframe ⊢
  obtain ⟨bytes, hbytes⟩ :=
    Option.isSome_iff_exists.mp ((packWithHeader_isSome_iff hbody).mpr hframe)
  exact ⟨bytes, hbytes, packWithHeader_length hbody hbytes⟩

/-- `length` is right exactly for the messages of the classes that count right. -/
theorem measured_iff_counted (msg : VnsMessage) (h : msg.FitsFormat) :
    Measured msg ↔ msg.Counted :=
  ⟨counted_of_measured, measured_of_counted h⟩

/-- A router asks for its topology. -/
theorem measured_iff_counted_open :
    Measured (.vnsOpen 4 (text "vrhost") (text "user") []) ↔
      (VnsMessage.vnsOpen 4 (text "vrhost") (text "user") []).Counted :=
  measured_iff_counted _ ⟨by decide, by decide⟩

/-- A user answers the challenge. -/
def loginReply : VnsMessage := .vnsAuthReply (text "user") (List.replicate 20 7)

/-- A template is asked for without a filter. -/
def templateRequest : VnsMessage := .vnsOpenTemplate (text "two-hosts") [] (setSrcFilters [])

/-- One counts four bytes too few, the other thirty too many. -/
theorem not_measured_login :
    (loginReply.FitsFormat ∧ loginReply.pack.map List.length = some 28 ∧ loginReply.length = 24 ∧
      ¬ Measured loginReply) ∧
    templateRequest.FitsFormat ∧ templateRequest.pack.map List.length = some 67 ∧
      templateRequest.length = 97 ∧ ¬ Measured templateRequest := by
  have hreply : loginReply.pack.isSome = true := by decide +kernel
  have hrequest : templateRequest.pack.isSome = true := by decide +kernel
  refine ⟨⟨pack_isSome_iff.mp hreply, by decide +kernel, by decide, fun h => ?_⟩,
    pack_isSome_iff.mp hrequest, by decide +kernel, by decide, fun h => ?_⟩
  · exact counted_of_measured h
  · exact counted_of_measured h

end NetworkStack.Vns
