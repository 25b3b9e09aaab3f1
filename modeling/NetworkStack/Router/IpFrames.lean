import NetworkStack.Router.SourceCheck

/-!
# The fields of an IP packet

A frame with an IP packet is an Ethernet header, an IP header and a payload. Each field is
read where it was put, and writing a field changes that field only.
-/

namespace NetworkStack.Router

open Bytes Buffer

/-- `sr_ip_hdr`, its fields as the host loads them. The version and the header length are in
one byte. -/
structure SrIpHdr where
  ipVhl : Byte
  ipTos : Byte
  ipLen : BitVec 16
  ipId : BitVec 16
  ipOff : BitVec 16
  ipTtl : Byte
  ipP : Byte
  ipSum : BitVec 16
  ipSrc : Addr
  ipDst : Addr
  deriving DecidableEq, Repr

/-- The header in memory. -/
def SrIpHdr.toBytes (ip : SrIpHdr) : List Byte :=
  [ip.ipVhl, ip.ipTos] ++ le16 ip.ipLen ++ le16 ip.ipId ++ le16 ip.ipOff ++ [ip.ipTtl, ip.ipP] ++
    le16 ip.ipSum ++ le32 ip.ipSrc ++ le32 ip.ipDst

/-- A frame with an IP packet. -/
def ipFrame (dhost shost : Mac) (ip : SrIpHdr) (payload : List Byte) : List Byte :=
  le48 dhost ++ (le48 shost ++ (le16 (swap16 ethertypeIp) ++ (ip.toBytes ++ payload)))

@[simp] theorem SrIpHdr.toBytes_length (ip : SrIpHdr) : ip.toBytes.length = 20 := rfl

@[simp] theorem ipFrame_length (dhost shost : Mac) (ip : SrIpHdr) (payload : List Byte) :
    (ipFrame dhost shost ip payload).length = 34 + payload.length := by
  simp [ipFrame, le48, le16]
  omega

theorem etherLen_le_ipFrame (dhost shost : Mac) (ip : SrIpHdr) (payload : List Byte) :
    etherLen ≤ (ipFrame dhost shost ip payload).length := by
  rw [ipFrame_length]
  exact le_trans (by decide) (Nat.le_add_right 34 payload.length)

theorem ipFrame_ne_nil (dhost shost : Mac) (ip : SrIpHdr) (payload : List Byte) :
    ipFrame dhost shost ip payload ≠ [] := by
  apply List.ne_nil_of_length_pos
  rw [ipFrame_length]
  omega

section Fields

variable (dhost shost mac : Mac) (ip : SrIpHdr) (payload : List Byte)

/-- The frame up to the checksum of the IP header. -/
def ipPrefix (dhost shost : Mac) (ip : SrIpHdr) : List Byte :=
  le48 dhost ++ le48 shost ++ le16 (swap16 ethertypeIp) ++
    [ip.ipVhl, ip.ipTos] ++ le16 ip.ipLen ++ le16 ip.ipId ++ le16 ip.ipOff ++ [ip.ipTtl, ip.ipP]

theorem ipFrame_eq : ipFrame dhost shost ip payload =
    ipPrefix dhost shost ip ++ (le16 ip.ipSum ++ (le32 ip.ipSrc ++ (le32 ip.ipDst ++ payload))) := by
  simp only [ipFrame, SrIpHdr.toBytes, ipPrefix, List.append_assoc]

theorem ipFrame_drop : (ipFrame dhost shost ip payload).drop etherLen = ip.toBytes ++ payload := rfl

theorem load_ipFrame_type : load16 (ipFrame dhost shost ip payload) 12 = some (swap16 ethertypeIp) :=
  rfl

theorem load_ipFrame_shost : load48 (ipFrame dhost shost ip payload) 6 = some shost :=
  load48_shost

theorem load_ipFrame_len : load16 (ipFrame dhost shost ip payload) 16 = some ip.ipLen :=
  congrArg some (ofLe16_extract ip.ipLen)

theorem load_ipFrame_ttl : load8 (ipFrame dhost shost ip payload) 22 = some ip.ipTtl := (rfl)

theorem load_ipFrame_p : load8 (ipFrame dhost shost ip payload) 23 = some ip.ipP := rfl

theorem load_ipFrame_src : load32 (ipFrame dhost shost ip payload) 26 = some ip.ipSrc := by
  rw [ipFrame_eq, ← List.append_assoc]
  exact load32_le32 _ ip.ipSrc rfl

theorem load_ipFrame_dst : load32 (ipFrame dhost shost ip payload) 30 = some ip.ipDst := by
  rw [ipFrame_eq, ← List.append_assoc, ← List.append_assoc]
  exact load32_le32 _ ip.ipDst rfl

theorem load_ipFrame_header : load (ipFrame dhost shost ip payload) 14 20 = some ip.toBytes := by
  unfold load
  rw [if_pos (by rw [ipFrame_length]; omega)]
  rfl

theorem load_ipFrame_payload {n : Nat} (h : n ≤ payload.length) :
    load (ipFrame dhost shost ip payload) 34 n = some (payload.take n) := by
  unfold load
  rw [if_pos (by rw [ipFrame_length]; omega)]
  rfl

theorem store_ipFrame_dhost : store48 (ipFrame dhost shost ip payload) 0 mac =
    some (ipFrame mac shost ip payload) :=
  store_append [] rfl rfl

theorem store_ipFrame_shost : store48 (ipFrame dhost shost ip payload) 6 mac =
    some (ipFrame dhost mac ip payload) :=
  store_append (le48 dhost) rfl rfl

/-- The same frame with another checksum and other addresses. -/
theorem ipFrame_with (sum : BitVec 16) (src dst : Addr) :
    ipFrame dhost shost { ip with ipSum := sum, ipSrc := src, ipDst := dst } payload =
      ipPrefix dhost shost ip ++ (le16 sum ++ (le32 src ++ (le32 dst ++ payload))) :=
  ipFrame_eq dhost shost { ip with ipSum := sum, ipSrc := src, ipDst := dst } payload

theorem store_ipFrame_sum (x : BitVec 16) : store16 (ipFrame dhost shost ip payload) 24 x =
    some (ipFrame dhost shost { ip with ipSum := x } payload) := by
  have hlen : (ipPrefix dhost shost ip).length = 24 := rfl
  have hnew := ipFrame_with dhost shost ip payload x ip.ipSrc ip.ipDst
  rw [hnew, ipFrame_eq, ← List.append_assoc _ (le16 x), ← List.append_assoc _ (le16 ip.ipSum)]
  exact store_append _ hlen rfl

theorem store_ipFrame_src (x : Addr) : store32 (ipFrame dhost shost ip payload) 26 x =
    some (ipFrame dhost shost { ip with ipSrc := x } payload) := by
  have hlen : (ipPrefix dhost shost ip ++ le16 ip.ipSum).length = 26 := rfl
  have hnew := ipFrame_with dhost shost ip payload ip.ipSum x ip.ipDst
  rw [hnew, ipFrame_eq]
  simp only [← List.append_assoc]
  rw [List.append_assoc _ (le32 ip.ipDst), List.append_assoc _ (le32 ip.ipDst)]
  exact store_append _ hlen rfl

theorem store_ipFrame_dst (x : Addr) : store32 (ipFrame dhost shost ip payload) 30 x =
    some (ipFrame dhost shost { ip with ipDst := x } payload) := by
  have hlen : (ipPrefix dhost shost ip ++ le16 ip.ipSum ++ le32 ip.ipSrc).length = 30 := rfl
  have hnew := ipFrame_with dhost shost ip payload ip.ipSum ip.ipSrc x
  rw [hnew, ipFrame_eq]
  simp only [← List.append_assoc]
  exact store_append _ hlen rfl

/-- What is written behind the IP header. -/
theorem store_ipFrame_payload {new payload' : List Byte} {i : Nat}
    (h : store payload i new = some payload') :
    store (ipFrame dhost shost ip payload) (34 + i) new = some (ipFrame dhost shost ip payload') := by
  unfold store at h ⊢
  split at h
  · rename_i hlen
    obtain rfl := Option.some.inj h
    rw [if_pos (by rw [ipFrame_length]; omega)]
    have htake : (ipFrame dhost shost ip payload).take (34 + i) =
        ipFrame dhost shost ip (payload.take i) := by
      rw [Nat.add_comm]
      rfl
    have hdrop : (ipFrame dhost shost ip payload).drop (34 + i + new.length) =
        payload.drop (i + new.length) := by
      rw [Nat.add_assoc, Nat.add_comm]
      rfl
    rw [htake, hdrop]
    simp [ipFrame]
  · cases h

end Fields

/-- Every frame of this type that has an IP header. -/
theorem exists_ipFrame {frame : List Byte} (htype : load16 frame 12 = some (swap16 ethertypeIp))
    (hlen : 34 ≤ frame.length) :
    ∃ dhost shost ip payload, frame = ipFrame dhost shost ip payload := by
  obtain ⟨d, f₁, rfl, hd, h₁⟩ := exists_append (show 6 + 28 ≤ frame.length from hlen)
  obtain ⟨s, f₂, rfl, hs, h₂⟩ := exists_append (show 6 + 22 ≤ f₁.length from h₁)
  obtain ⟨t, f₃, rfl, ht, h₃⟩ := exists_append (show 2 + 20 ≤ f₂.length from h₂)
  obtain ⟨v, f₄, rfl, hv, h₄⟩ := exists_append (show 2 + 18 ≤ f₃.length from h₃)
  obtain ⟨l, f₅, rfl, hl, h₅⟩ := exists_append (show 2 + 16 ≤ f₄.length from h₄)
  obtain ⟨i, f₆, rfl, hi, h₆⟩ := exists_append (show 2 + 14 ≤ f₅.length from h₅)
  obtain ⟨o, f₇, rfl, ho, h₇⟩ := exists_append (show 2 + 12 ≤ f₆.length from h₆)
  obtain ⟨p, f₈, rfl, hp, h₈⟩ := exists_append (show 2 + 10 ≤ f₇.length from h₇)
  obtain ⟨c, f₉, rfl, hc, h₉⟩ := exists_append (show 2 + 8 ≤ f₈.length from h₈)
  obtain ⟨x, f₁₀, rfl, hx, h₁₀⟩ := exists_append (show 4 + 4 ≤ f₉.length from h₉)
  obtain ⟨y, payload, rfl, hy, -⟩ := exists_append (show 4 + 0 ≤ f₁₀.length from h₁₀)
  obtain ⟨dhost, rfl⟩ := exists_le48 hd
  obtain ⟨shost, rfl⟩ := exists_le48 hs
  obtain ⟨type, rfl⟩ := exists_le16 ht
  obtain ⟨vhl, tos, rfl⟩ := List.length_eq_two.mp hv
  obtain ⟨ttl, proto, rfl⟩ := List.length_eq_two.mp hp
  obtain ⟨len, rfl⟩ := exists_le16 hl
  obtain ⟨id, rfl⟩ := exists_le16 hi
  obtain ⟨off, rfl⟩ := exists_le16 ho
  obtain ⟨sum, rfl⟩ := exists_le16 hc
  obtain ⟨src, rfl⟩ := exists_le32 hx
  obtain ⟨dst, rfl⟩ := exists_le32 hy
  obtain rfl : type = swap16 ethertypeIp := by
    rw [← Option.some.inj htype]
    exact (ofLe16_extract type).symm
  exact ⟨dhost, shost, ⟨vhl, tos, len, id, off, ttl, proto, sum, src, dst⟩, payload, rfl⟩

end NetworkStack.Router
