import NetworkStack.Lib.Framing
import NetworkStack.Vns.Protocol

/-!
# Messages over a connection

`dataReceived` appends what has come to the bytes it has and takes messages off the front
as long as one is complete. Whatever the chunks, the callback gets the messages that were
packed.

## Implementation notes

`plen` is always the length of `packet`, so it is not a state of its own.
-/

namespace NetworkStack.Vns

open Bytes Decimal Framing

/-- One round of the loop of `dataReceived`. -/
def nextMessage (packet : List Byte) : Scan Byte (Option VnsMessage) :=
  if packet.length < 4 then .wait
  else
    match unpackI (packet.take 4) with
    | none => .fail
    | some lenNeeded =>
        if lenNeeded.toNat ≤ packet.length then
          let buf := packet.take lenNeeded.toNat
          match unpackI (slice buf 4 4) with
          | none => .fail
          | some typeVal =>
              match unpackReceivedMsg typeVal (buf.drop 8) with
              | none => .fail
              | some ltMsg => .frame ltMsg (packet.drop lenNeeded.toNat)
        else .wait

/-- `dataReceived` on each chunk in turn: the arguments of `recv_callback` and what is left
in `packet`. -/
def dataReceived (chunks : List (List Byte)) : Option (List (Option VnsMessage) × List Byte) :=
  feed nextMessage [] chunks

/-- The string fits a field of `n` bytes and has no zero byte. -/
def Fits (n : Nat) (s : List Byte) : Prop := 0 ∉ s ∧ s.length ≤ n

/-- A dotted quad without needless zeros, and a mask in its range. -/
def SrcFilter.Canonical (f : SrcFilter) : Prop :=
  (∃ a b c d, f.1 = inetNtoa a b c d) ∧ 0 ≤ f.2 ∧ f.2 ≤ 32

/-- A message of a class that defines `unpack`, with strings that fit their fields. -/
def VnsMessage.Canonical : VnsMessage → Prop
  | .vnsOpen _ vhost user pw => Fits idSize vhost ∧ Fits idSize user ∧ Fits idSize pw
  | .vnsClose msg => Fits 256 msg
  | .vnsPacket intfName _ => Fits 16 intfName
  | .vnsBanner msg => Fits 256 msg
  | .vnsHardwareInfo _ => False
  | .vnsRtable vrhost _ => Fits idSize vrhost
  | .vnsOpenTemplate templateName vrhost srcFilters =>
      Fits 30 templateName ∧ Fits idSize vrhost ∧ ∀ f ∈ srcFilters.1, f.Canonical
  | .vnsAuthRequest _ => True
  | .vnsAuthReply .. => True
  | .vnsAuthStatus .. => True

variable {n i : Nat} {s body bytes : List Byte} {msg : VnsMessage}

/-! ## Fields -/

theorem packS_length (n : Nat) (s : List Byte) : (packS n s).length = n := by
  rw [packS, List.length_append, List.length_take, List.length_replicate]
  omega

theorem stripNullChars_packS (h : Fits n s) : stripNullChars (packS n s) = s := by
  have hs : s.filter (· ≠ 0) = s := by
    rw [List.filter_eq_self]
    intro b hb
    have hne : b ≠ 0 := by
      rintro rfl
      exact h.1 hb
    simpa using hne
  rw [stripNullChars, packS, List.take_of_length_le h.2, List.filter_append, hs]
  simp

theorem slice_append (pre field post : List Byte) (hi : pre.length = i) (hn : field.length = n) :
    slice (pre ++ (field ++ post)) i n = field := by
  rw [slice, List.drop_left' hi, List.take_left' hn]

theorem unpackB_packB {x : Int} (h : packB x = some bytes) : unpackB bytes = some x := by
  unfold packB at h
  split at h
  · rename_i hx
    obtain rfl := Option.some.inj h
    simp only [unpackB, BitVec.toNat_ofInt, Option.some.injEq]
    omega
  · cases h

theorem unpackH_packH {x : Int} (h : packH x = some bytes) : unpackH bytes = some x := by
  unfold packH at h
  split at h
  · rename_i hx
    obtain rfl := Option.some.inj h
    simp only [be16, unpackH, ofLe16_extract, BitVec.toNat_ofInt, Option.some.injEq]
    omega
  · cases h

theorem unpackI_packI {x : Int} (h : packI x = some bytes) : unpackI bytes = some x := by
  unfold packI at h
  split at h
  · rename_i hx
    obtain rfl := Option.some.inj h
    simp only [be32, unpackI, ofLe32_extract, BitVec.toNat_ofInt, Option.some.injEq]
    omega
  · cases h

theorem exists_of_packB {x : Int} (h : packB x = some bytes) : ∃ b, bytes = [b] := by
  unfold packB at h
  split at h
  · exact ⟨_, (Option.some.inj h).symm⟩
  · cases h

theorem packB_length {x : Int} (h : packB x = some bytes) : bytes.length = 1 := by
  obtain ⟨b, rfl⟩ := exists_of_packB h
  rfl

theorem packH_length {x : Int} (h : packH x = some bytes) : bytes.length = 2 := by
  unfold packH at h
  split at h
  · obtain rfl := Option.some.inj h
    rfl
  · cases h

theorem packI_length {x : Int} (h : packI x = some bytes) : bytes.length = 4 := by
  unfold packI at h
  split at h
  · obtain rfl := Option.some.inj h
    rfl
  · cases h

/-! ## Messages -/

theorem unpackOpen_pack {topoId : Int} {vhost user pw : List Byte}
    (hc : (VnsMessage.vnsOpen topoId vhost user pw).Canonical)
    (h : (VnsMessage.vnsOpen topoId vhost user pw).pack = some body) :
    unpackOpen body = some (.vnsOpen topoId vhost user pw) := by
  obtain ⟨hvhost, huser, hpw⟩ := hc
  obtain ⟨topo, htopo, h⟩ := Option.bind_eq_some_iff.mp h
  obtain rfl := Option.some.inj h
  have hlen := packH_length htopo
  have hsize (s : List Byte) : (packS idSize s).length = 32 := packS_length 32 s
  have hid := slice_append (i := 0) [] topo
    (be16 0 ++ (packS idSize vhost ++ (packS idSize user ++ packS idSize pw))) rfl hlen
  have hv := slice_append (topo ++ be16 0) (packS idSize vhost)
    (packS idSize user ++ packS idSize pw) (show (topo ++ be16 0).length = 4 by simp [hlen, be16])
    (hsize vhost)
  have hu := slice_append (topo ++ be16 0 ++ packS idSize vhost) (packS idSize user)
    (packS idSize pw)
    (show (topo ++ be16 0 ++ packS idSize vhost).length = 36 by simp [hlen, be16, hsize])
    (hsize user)
  have hp := slice_append (topo ++ be16 0 ++ packS idSize vhost ++ packS idSize user)
    (packS idSize pw) []
    (show (topo ++ be16 0 ++ packS idSize vhost ++ packS idSize user).length = 68 by
      simp [hlen, be16, hsize])
    (hsize pw)
  have htotal : (topo ++ be16 0 ++ packS idSize vhost ++ packS idSize user ++
      packS idSize pw).length = 100 := by
    simp [hlen, be16, hsize]
  simp only [List.append_assoc, List.nil_append, List.append_nil] at hid hv hu hp htotal ⊢
  rw [unpackOpen, if_pos htotal, hid, hv, hu, hp, unpackH_packH htopo, stripNullChars_packS hvhost,
    stripNullChars_packS huser, stripNullChars_packS hpw]
  rfl

theorem unpackText_pack (make : List Byte → VnsMessage) (h : Fits 256 s) :
    unpackText make (packS 256 s) = some (make s) := by
  rw [unpackText, if_pos (packS_length 256 s), stripNullChars_packS h]

theorem unpackPacket_pack {intfName ethernetFrame : List Byte} (h : Fits 16 intfName) :
    unpackPacket (packS 16 intfName ++ ethernetFrame) =
      some (.vnsPacket intfName ethernetFrame) := by
  have hlen := packS_length 16 intfName
  rw [unpackPacket, List.take_left' hlen, List.drop_left' hlen, if_pos hlen, stripNullChars_packS h]

theorem unpackRtable_pack {vrhost rtable : List Byte} (h : Fits idSize vrhost) :
    unpackRtable (packS idSize vrhost ++ rtable) = some (.vnsRtable vrhost rtable) := by
  have hlen := packS_length idSize vrhost
  rw [unpackRtable, List.take_left' hlen, List.drop_left' hlen, stripNullChars_packS h]

theorem setSrcFilters_val (srcFilters : SrcFilters) : setSrcFilters srcFilters.1 = srcFilters := by
  rw [setSrcFilters, dif_neg srcFilters.2]

/-- A filter is read where it was put. -/
theorem filterAt_pack (pre : List Byte) {post : List Byte} {a b c d : Byte} {mask : Int}
    {maskByte : List Byte} (hi : pre.length = i * 5) (hmask : packB mask = some maskByte)
    (hrange : 0 ≤ mask ∧ mask ≤ 32) :
    filterAt (pre ++ ([a, b, c, d] ++ maskByte ++ post)) i = some (inetNtoa a b c d, mask) := by
  have hunpack := unpackB_packB hmask
  obtain ⟨m, rfl⟩ := exists_of_packB hmask
  have hslice : slice (pre ++ ([a, b, c, d] ++ [m] ++ post)) (i * 5) 4 = [a, b, c, d] := by
    rw [List.append_assoc]
    exact slice_append pre _ _ hi rfl
  have hget : (pre ++ ([a, b, c, d] ++ [m] ++ post))[i * 5 + 4]? = some m := by
    rw [List.getElem?_append_right (by omega), show i * 5 + 4 - pre.length = 4 by omega]
    rfl
  rw [filterAt, hslice]
  simp only [hget, hunpack, Option.bind_eq_bind, Option.bind_some]
  rw [if_neg (by omega)]
  rfl

theorem packFilters_length {filters : List SrcFilter} (h : packFilters filters = some bytes) :
    bytes.length = filters.length * 5 := by
  induction filters generalizing bytes with
  | nil =>
      obtain rfl := Option.some.inj h
      rfl
  | cons f rest ih =>
      obtain ⟨address, haddress, h⟩ := Option.bind_eq_some_iff.mp h
      obtain ⟨maskByte, hmask, h⟩ := Option.bind_eq_some_iff.mp h
      obtain ⟨more, hmore, h⟩ := Option.bind_eq_some_iff.mp h
      obtain rfl := Option.some.inj h
      rw [List.length_append, List.length_append, inetAton_length haddress, packB_length hmask,
        ih hmore, List.length_cons]
      omega

theorem filtersLoop_pack {filters : List SrcFilter} (hc : ∀ f ∈ filters, f.Canonical)
    (h : packFilters filters = some bytes) (pre : List Byte) (hi : pre.length = i * 5) :
    filtersLoop (pre ++ bytes) filters.length i = some filters := by
  induction filters generalizing bytes pre i with
  | nil => rfl
  | cons f rest ih =>
      obtain ⟨ip, mask⟩ := f
      obtain ⟨⟨a, b, c, d, hip⟩, hrange⟩ := hc _ List.mem_cons_self
      obtain ⟨aton, haton, h⟩ := Option.bind_eq_some_iff.mp h
      obtain ⟨maskByte, hmask, h⟩ := Option.bind_eq_some_iff.mp h
      obtain ⟨more, hmore, h⟩ := Option.bind_eq_some_iff.mp h
      obtain rfl := Option.some.inj h
      obtain rfl : ip = inetNtoa a b c d := hip
      obtain rfl := Option.some.inj ((inetAton_inetNtoa a b c d).symm.trans haton)
      have hlen := packB_length hmask
      have hpre : (pre ++ ([a, b, c, d] ++ maskByte)).length = (i + 1) * 5 := by
        simp only [List.length_append, List.length_cons, List.length_nil]
        omega
      have hloop := ih (fun f hf => hc f (List.mem_cons_of_mem _ hf)) hmore _ hpre
      rw [List.append_assoc] at hloop
      rw [List.length_cons, filtersLoop, filterAt_pack pre hi hmask hrange]
      simp only [Option.bind_eq_bind, Option.bind_some, hloop, Option.pure_def]

theorem unpackOpenTemplate_append {templateName vrhost sfBytes : List Byte}
    {filters : List SrcFilter} (htemplate : Fits 30 templateName) (hvrhost : Fits idSize vrhost)
    (hfilters : filtersLoop sfBytes (sfBytes.length / 5) 0 = some filters) :
    unpackOpenTemplate (packS 30 templateName ++ packS idSize vrhost ++ sfBytes) =
      some (.vnsOpenTemplate templateName vrhost (setSrcFilters filters)) := by
  have hheader : (packS 30 templateName ++ packS idSize vrhost).length = 62 := by
    rw [List.length_append, packS_length, packS_length]
    rfl
  have hname := slice_append (i := 0) [] (packS 30 templateName) (packS idSize vrhost ++ sfBytes)
    rfl (packS_length 30 templateName)
  have hhost := slice_append (packS 30 templateName) (packS idSize vrhost) sfBytes
    (packS_length 30 templateName) (packS_length 32 vrhost)
  rw [← List.append_assoc] at hhost
  rw [List.nil_append, ← List.append_assoc] at hname
  simp only [unpackOpenTemplate, List.take_left' hheader, List.drop_left' hheader]
  rw [if_pos hheader, hfilters, hname, hhost, stripNullChars_packS htemplate,
    stripNullChars_packS hvrhost]
  rfl

theorem unpackOpenTemplate_pack {templateName vrhost : List Byte} {srcFilters : SrcFilters}
    (hc : (VnsMessage.vnsOpenTemplate templateName vrhost srcFilters).Canonical)
    (h : (VnsMessage.vnsOpenTemplate templateName vrhost srcFilters).pack = some body) :
    unpackOpenTemplate body = some (.vnsOpenTemplate templateName vrhost srcFilters) := by
  obtain ⟨htemplate, hvrhost, hcanonical⟩ := hc
  obtain ⟨sfBytes, hsf, h⟩ := Option.bind_eq_some_iff.mp h
  obtain rfl := Option.some.inj h
  have hfilters : filtersLoop sfBytes (sfBytes.length / 5) 0 = some srcFilters.1 := by
    rw [packFilters_length hsf, Nat.mul_div_cancel _ (by decide)]
    exact filtersLoop_pack (i := 0) hcanonical hsf [] rfl
  rw [unpackOpenTemplate_append htemplate hvrhost hfilters, setSrcFilters_val]

theorem unpackAuthReply_pack {username ssp : List Byte}
    (h : (VnsMessage.vnsAuthReply username ssp).pack = some body) :
    unpackAuthReply body = some (.vnsAuthReply username ssp) := by
  rw [VnsMessage.pack] at h
  obtain ⟨len, hlen, h⟩ := Option.bind_eq_some_iff.mp h
  obtain rfl := Option.some.inj h
  have hsize := packI_length hlen
  simp only [unpackAuthReply, List.append_assoc, List.take_left' hsize, List.drop_left' hsize,
    unpackI_packI hlen, Option.bind_eq_bind, Option.bind_some, Int.toNat_natCast, List.take_left,
    List.drop_left, Option.pure_def]

theorem unpackAuthStatus_pack (authOk : Bool) (msg : List Byte) :
    unpackAuthStatus ((if authOk then 1 else 0) :: msg) = some (.vnsAuthStatus authOk msg) := by
  cases authOk <;> rfl

/-- Every message that can be packed is unpacked to itself. -/
theorem unpackReceivedMsg_pack (hc : msg.Canonical) (h : msg.pack = some body) :
    unpackReceivedMsg msg.getType body = some (some msg) := by
  cases msg with
  | vnsOpen topoId vhost user pw => exact congrArg (Option.map some) (unpackOpen_pack hc h)
  | vnsClose msg =>
      obtain rfl := Option.some.inj h
      exact congrArg (Option.map some) (unpackText_pack .vnsClose hc)
  | vnsPacket intfName ethernetFrame =>
      obtain rfl := Option.some.inj h
      exact congrArg (Option.map some) (unpackPacket_pack hc)
  | vnsBanner msg =>
      obtain rfl := Option.some.inj h
      exact congrArg (Option.map some) (unpackText_pack .vnsBanner hc)
  | vnsHardwareInfo interfaces => exact hc.elim
  | vnsRtable vrhost rtable =>
      obtain rfl := Option.some.inj h
      exact congrArg (Option.map some) (unpackRtable_pack hc)
  | vnsOpenTemplate templateName vrhost srcFilters =>
      exact congrArg (Option.map some) (unpackOpenTemplate_pack hc h)
  | vnsAuthRequest salt =>
      obtain rfl := Option.some.inj h
      rfl
  | vnsAuthReply username ssp => exact congrArg (Option.map some) (unpackAuthReply_pack h)
  | vnsAuthStatus authOk msg =>
      obtain rfl := Option.some.inj h
      exact congrArg (Option.map some) (unpackAuthStatus_pack authOk msg)

theorem packWithHeader_length (hbody : msg.pack = some body) (h : packWithHeader msg = some bytes) :
    bytes.length = 8 + body.length := by
  rw [packWithHeader, hbody, Option.bind_eq_bind, Option.bind_some] at h
  obtain ⟨header, hheader, h⟩ := Option.bind_eq_some_iff.mp h
  obtain ⟨typeBytes, htype, h⟩ := Option.bind_eq_some_iff.mp h
  obtain rfl := Option.some.inj h
  rw [List.length_append, List.length_append, packI_length hheader, packI_length htype]

/-! ## The loop of `dataReceived` -/

/-- The length and the type in front of a message, and then its body. -/
theorem nextMessage_append {header typeBytes : List Byte} {typeVal : Int}
    {ltMsg : Option VnsMessage} (hheader : packI (8 + body.length) = some header)
    (htype : packI typeVal = some typeBytes)
    (hmsg : unpackReceivedMsg typeVal body = some ltMsg) (rest : List Byte) :
    nextMessage (header ++ typeBytes ++ body ++ rest) = .frame ltMsg rest := by
  have hheaderLen := packI_length hheader
  have htypeLen := packI_length htype
  have hlen : (header ++ typeBytes ++ body).length = 8 + body.length := by
    simp only [List.length_append]
    omega
  have hneeded : ((8 + body.length : Int)).toNat = (header ++ typeBytes ++ body).length := by
    omega
  have hfront : (header ++ typeBytes ++ body ++ rest).take 4 = header := by
    rw [List.append_assoc, List.append_assoc, List.take_left' hheaderLen]
  have hslice : slice (header ++ typeBytes ++ body) 4 4 = typeBytes := by
    rw [List.append_assoc]
    exact slice_append header typeBytes body hheaderLen htypeLen
  have hbody : (header ++ typeBytes ++ body).drop 8 = body := by
    apply List.drop_left'
    rw [List.length_append]
    omega
  have hle : (header ++ typeBytes ++ body).length ≤ (header ++ typeBytes ++ body ++ rest).length := by
    simp only [List.length_append]
    omega
  rw [nextMessage, if_neg (by omega), hfront, unpackI_packI hheader]
  simp only [hneeded, hle, List.take_left, List.drop_left, hslice, unpackI_packI htype, hbody, hmsg,
    if_true]

theorem nextMessage_packWithHeader (hc : msg.Canonical) (h : packWithHeader msg = some bytes)
    (rest : List Byte) : nextMessage (bytes ++ rest) = .frame (some msg) rest := by
  obtain ⟨body, hbody, h⟩ := Option.bind_eq_some_iff.mp h
  obtain ⟨header, hheader, h⟩ := Option.bind_eq_some_iff.mp h
  obtain ⟨typeBytes, htype, h⟩ := Option.bind_eq_some_iff.mp h
  obtain rfl := Option.some.inj h
  exact nextMessage_append hheader htype (unpackReceivedMsg_pack hc hbody) rest

theorem unpackI_length {x : Int} (h : unpackI bytes = some x) : bytes.length = 4 := by
  unfold unpackI at h
  split at h
  · rfl
  · cases h

/-- A round that does not wait has all the bytes that it needs. -/
theorem exists_of_nextMessage {packet : List Byte} (h : nextMessage packet ≠ .wait) :
    4 ≤ packet.length ∧ ∃ lenNeeded, unpackI (packet.take 4) = some lenNeeded ∧
      lenNeeded.toNat ≤ packet.length := by
  unfold nextMessage at h
  split at h
  · exact absurd rfl h
  · rename_i hlen
    refine ⟨Nat.le_of_not_lt hlen, ?_⟩
    cases hneeded : unpackI (packet.take 4) with
    | none =>
        have hfour : (packet.take 4).length = 4 := by
          rw [List.length_take]
          omega
        obtain ⟨a, b, c, d, heq⟩ := List.length_eq_four.mp hfour
        rw [heq] at hneeded
        cases hneeded
    | some lenNeeded =>
        rw [hneeded] at h
        simp only at h
        split at h
        · exact ⟨lenNeeded, rfl, by assumption⟩
        · exact absurd rfl h

theorem nextMessage_shrinks {packet rest : List Byte} {ltMsg : Option VnsMessage}
    (h : nextMessage packet = .frame ltMsg rest) : rest.length < packet.length := by
  obtain ⟨hlen, lenNeeded, hneeded, hle⟩ := exists_of_nextMessage (by rw [h]; nofun)
  rw [nextMessage, if_neg (Nat.not_lt.mpr hlen), hneeded] at h
  simp only [if_pos hle] at h
  cases htype : unpackI (slice (packet.take lenNeeded.toNat) 4 4) with
  | none =>
      rw [htype] at h
      cases h
  | some typeVal =>
      have hfour := unpackI_length htype
      rw [htype] at h
      simp only at h
      split at h
      · cases h
      · cases h
        simp only [slice, List.length_take, List.length_drop] at hfour ⊢
        omega

/-- With all the bytes that it needs, a round does not look at the others. -/
theorem nextMessage_more {packet : List Byte} (more : List Byte) (h : nextMessage packet ≠ .wait) :
    nextMessage (packet ++ more) = (nextMessage packet).append more := by
  obtain ⟨hlen, lenNeeded, hneeded, hle⟩ := exists_of_nextMessage h
  have hlong : ¬(packet ++ more).length < 4 := by
    rw [List.length_append]
    omega
  have hle' : lenNeeded.toNat ≤ (packet ++ more).length := by
    rw [List.length_append]
    omega
  rw [nextMessage, nextMessage, if_neg hlong, if_neg (Nat.not_lt.mpr hlen),
    List.take_append_of_le_length hlen, hneeded]
  simp only [if_pos hle, if_pos hle', List.take_append_of_le_length hle,
    List.drop_append_of_le_length hle]
  cases unpackI (slice (packet.take lenNeeded.toNat) 4 4) with
  | none => rfl
  | some typeVal =>
      simp only
      cases unpackReceivedMsg typeVal ((packet.take lenNeeded.toNat).drop 8) <;> rfl

theorem stable_nextMessage : Stable nextMessage where
  nil := rfl
  shrinks _ _ _ h := nextMessage_shrinks h
  more _ more h := nextMessage_more more h

/-- However the packed messages are cut into chunks, the callback gets them all, in order. -/
theorem dataReceived_packWithHeader {msgs : List VnsMessage} {encodings chunks : List (List Byte)}
    (hmsgs : ∀ msg ∈ msgs, msg.Canonical) (hpack : msgs.mapM packWithHeader = some encodings)
    (hchunks : chunks.flatten = encodings.flatten) :
    dataReceived chunks = some (msgs.map some, []) := by
  apply stable_nextMessage.feed_flatten _ hchunks
  rw [List.forall₂_map_left_iff]
  clear hchunks
  induction msgs generalizing encodings with
  | nil =>
      obtain rfl := Option.some.inj hpack
      exact .nil
  | cons msg rest ih =>
      rw [List.mapM_cons] at hpack
      obtain ⟨bytes, hbytes, hpack⟩ := Option.bind_eq_some_iff.mp hpack
      obtain ⟨more, hmore, hpack⟩ := Option.bind_eq_some_iff.mp hpack
      obtain rfl := Option.some.inj hpack
      apply List.Forall₂.cons
      · exact nextMessage_packWithHeader (hmsgs msg List.mem_cons_self) hbytes
      · exact ih (fun m hm => hmsgs m (List.mem_cons_of_mem msg hm)) hmore

/-- A template is asked for, granted, and a packet comes. -/
def templateSession : List VnsMessage :=
  [.vnsOpenTemplate (text "two-hosts") (text "vrhost")
      ⟨[(text "10.0.1.0", 24), (text "0.0.0.0", 0)], List.cons_ne_nil _ _⟩,
    .vnsAuthStatus true (text "ok"),
    .vnsPacket (text "eth0") [1, 0, 2]]

/-- The bytes arrive one by one. -/
theorem dataReceived_templateSession :
    ∃ encodings, templateSession.mapM packWithHeader = some encodings ∧
      dataReceived (encodings.flatten.map ([·])) = some (templateSession.map some, []) := by
  have hsome : (templateSession.mapM packWithHeader).isSome = true := by decide +kernel
  obtain ⟨encodings, hpack⟩ := Option.isSome_iff_exists.mp hsome
  refine ⟨encodings, hpack, dataReceived_packWithHeader ?_ hpack ?_⟩
  · intro msg hmsg
    simp only [templateSession, List.mem_cons, List.not_mem_nil, or_false] at hmsg
    obtain rfl | rfl | rfl := hmsg
    · refine ⟨⟨by decide, by decide⟩, ⟨by decide, by decide⟩, ?_⟩
      intro f hf
      simp only [List.mem_cons, List.not_mem_nil, or_false] at hf
      obtain rfl | rfl := hf
      · exact ⟨⟨10, 0, 1, 0, by decide⟩, by decide, by decide⟩
      · exact ⟨⟨0, 0, 0, 0, by decide⟩, by decide, by decide⟩
    · trivial
    · exact ⟨by decide, by decide⟩
  · rw [← List.flatMap_def, List.flatMap_singleton']

end NetworkStack.Vns
