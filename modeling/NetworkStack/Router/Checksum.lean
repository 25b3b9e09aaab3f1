import NetworkStack.Lib.Checksum
import NetworkStack.Router.IpFrames

/-!
# The checksum of the router

`cksum` adds in 32 bits, which is enough for everything that fits in an IP packet. It is zero
for data that have the right checksum in them.
-/

namespace NetworkStack.Router

open Buffer Bytes Checksum

variable {data pre post : List Byte}

theorem cksumLoop_toNat {sum : BitVec 32} (h : sum.toNat + wordSum data < 2 ^ 32) :
    (cksumLoop sum data).toNat = sum.toNat + wordSum data := by
  have hword (x y : Byte) : ((x.zeroExtend 32 <<< 8) ||| y.zeroExtend 32).toNat =
      256 * x.toNat + y.toNat := by
    have hx := x.isLt
    have hy := y.isLt
    simp only [BitVec.toNat_or, BitVec.toNat_shiftLeft, BitVec.toNat_setWidth]
    rw [Nat.mod_eq_of_lt (show x.toNat < 2 ^ 32 by omega),
      Nat.mod_eq_of_lt (show y.toNat < 2 ^ 32 by omega), Nat.shiftLeft_eq,
      Nat.mod_eq_of_lt (by omega), Nat.mul_comm]
    exact (Nat.two_pow_add_eq_or_of_lt hy x.toNat).symm
  induction data using wordSum.induct generalizing sum with
  | case1 b₀ b₁ rest ih =>
      rw [wordSum] at h ⊢
      have hadd : (sum + ((b₀.zeroExtend 32 <<< 8) ||| b₁.zeroExtend 32)).toNat =
          sum.toNat + (256 * b₀.toNat + b₁.toNat) := by
        rw [BitVec.toNat_add, hword, Nat.mod_eq_of_lt (by omega)]
      rw [cksumLoop, ih (by rw [hadd]; omega), hadd, Nat.add_assoc]
  | case2 b₀ =>
      rw [wordSum] at h ⊢
      have hlast := hword b₀ 0
      simp only [BitVec.toNat_or, BitVec.ofNat_eq_ofNat, BitVec.truncate_eq_setWidth,
        BitVec.setWidth_zero, BitVec.toNat_ofNat, Nat.zero_mod, Nat.or_zero, Nat.add_zero] at hlast
      rw [cksumLoop, BitVec.toNat_add]
      simp only [BitVec.truncate_eq_setWidth] at hlast ⊢
      rw [hlast, Nat.mod_eq_of_lt h]
  | case3 => rfl

theorem cksumFold_toNat (rounds : Nat) (sum : BitVec 32) :
    (cksumFold rounds sum).toNat = fold rounds sum.toNat := by
  induction rounds generalizing sum with
  | zero => rfl
  | succ rounds ih =>
      have hcarry : ((sum >>> 16) + (sum &&& 0xffff)).toNat =
          sum.toNat / 65536 + sum.toNat % 65536 := by
        have hsum := sum.isLt
        have hmask : sum.toNat &&& 65535 = sum.toNat % 65536 :=
          Nat.and_two_pow_sub_one_eq_mod sum.toNat 16
        simp only [BitVec.toNat_add, BitVec.toNat_ushiftRight, BitVec.toNat_and,
          Nat.shiftRight_eq_div_pow, BitVec.ofNat_eq_ofNat, BitVec.toNat_ofNat]
        rw [show 65535 % 2 ^ 32 = 65535 from rfl, hmask]
        omega
      have hlt : sum > 0xffff ↔ sum.toNat > 65535 := Iff.rfl
      rw [cksumFold, fold]
      split
      · rename_i hbig
        rw [if_pos (hlt.mp hbig), ih, hcarry]
      · rename_i hsmall
        rw [if_neg (fun hbig => hsmall (hlt.mpr hbig))]

/-- What the sum of this much data fits in. -/
theorem wordSum_lt (h : data.length ≤ 131072) : wordSum data < 2 ^ 32 := by
  have hle := wordSum_le data
  omega

theorem cksum_eq (h : data.length ≤ 131072) :
    cksum data = swap16 (BitVec.ofNat 16 (65535 - fold (wordSum data) (wordSum data))) := by
  have hsum : (cksumLoop 0 data).toNat = wordSum data := by
    rw [cksumLoop_toNat (by simpa using wordSum_lt h)]
    simp
  have hle : fold (wordSum data) (wordSum data) ≤ 65535 := fold_le le_rfl
  have hnot : (~~~cksumFold (cksumLoop 0 data).toNat (cksumLoop 0 data)).truncate 16 =
      BitVec.ofNat 16 (65535 - fold (wordSum data) (wordSum data)) := by
    apply BitVec.eq_of_toNat_eq
    simp only [BitVec.truncate_eq_setWidth, BitVec.toNat_setWidth, BitVec.toNat_not,
      cksumFold_toNat, hsum, BitVec.toNat_ofNat]
    omega
  exact congrArg swap16 hnot

/-- The checksum of data is zero exactly if they verify. -/
theorem cksum_eq_zero_iff (h : data.length ≤ 131072) : cksum data = 0 ↔ Verifies data := by
  have hle : fold (wordSum data) (wordSum data) ≤ 65535 := fold_le le_rfl
  have hzero : swap16 (BitVec.ofNat 16 (65535 - fold (wordSum data) (wordSum data))) = 0 ↔
      BitVec.ofNat 16 (65535 - fold (wordSum data) (wordSum data)) = 0 := by
    constructor
    · intro hswap
      have hback := congrArg swap16 hswap
      rw [swap16_swap16] at hback
      exact hback
    · intro heq
      rw [heq]
      rfl
  have hnat : (BitVec.ofNat 16 (65535 - fold (wordSum data) (wordSum data))).toNat =
      65535 - fold (wordSum data) (wordSum data) := by
    rw [BitVec.toNat_ofNat, Nat.mod_eq_of_lt (by omega)]
  rw [cksum_eq h, hzero, ← BitVec.toNat_inj, hnat, Verifies, ← fold_eq_max_iff le_rfl]
  change 65535 - fold (wordSum data) (wordSum data) = 0 ↔ _
  omega

/-- Data verify once their checksum, computed with zeros in its place, is put in. -/
theorem verifies_cksum (heven : Even pre.length) (h : (pre ++ le16 0 ++ post).length ≤ 131072) :
    Verifies (pre ++ le16 (cksum (pre ++ le16 0 ++ post)) ++ post) := by
  have hsum (x : BitVec 16) : wordSum (pre ++ be16 x ++ post) =
      wordSum (pre ++ le16 0 ++ post) + x.toNat := by
    have hbe : Even (be16 x).length := by simp [be16]
    have hzero : wordSum (le16 0) = 0 := rfl
    rw [List.append_assoc, List.append_assoc, wordSum_append heven, wordSum_append heven,
      wordSum_append hbe, wordSum_append (by simp [le16]), wordSum_be16, hzero]
    omega
  have hfold : fold (wordSum (pre ++ le16 0 ++ post)) (wordSum (pre ++ le16 0 ++ post)) ≤ 65535 :=
    fold_le le_rfl
  rw [cksum_eq h, le16_swap16, Verifies, hsum, BitVec.toNat_ofNat, Nat.mod_eq_of_lt (by omega)]
  exact add_complement le_rfl

/-- `cksum` on some data: its sum never leaves the 32 bits, its second loop ends with the carries
brought back in, its result is the complement of that, and data with their checksum in an even
place have the checksum zero. -/
structure CksumSound (data : List Byte) : Prop where
  exact_sum : ∀ k, (cksumLoop 0 (data.take (2 * k))).toNat = wordSum (data.take (2 * k))
  folds : ∃ folded : BitVec 32, folded ≤ 0xffff ∧ folded.toNat % 65535 = wordSum data % 65535 ∧
    (∀ rounds, (cksumLoop 0 data).toNat ≤ rounds →
      cksumFold rounds (cksumLoop 0 data) = folded) ∧
    cksum data = swap16 ((~~~folded).truncate 16)
  stored : ∀ o, Even o → o + 2 ≤ data.length → ∃ zeroed sent, store16 data o 0 = some zeroed ∧
    store16 zeroed o (cksum zeroed) = some sent ∧ cksum sent = 0

theorem cksumLoop_take (h : data.length ≤ 131072) (n : Nat) :
    (cksumLoop 0 (data.take n)).toNat = wordSum (data.take n) := by
  have hlen : (data.take n).length ≤ 131072 := (List.length_take_le' n data).trans h
  rw [cksumLoop_toNat (by simpa using wordSum_lt hlen)]
  simp

theorem cksumFold_ends (h : data.length ≤ 131072) :
    ∃ folded : BitVec 32, folded ≤ 0xffff ∧ folded.toNat % 65535 = wordSum data % 65535 ∧
      (∀ rounds, (cksumLoop 0 data).toNat ≤ rounds →
        cksumFold rounds (cksumLoop 0 data) = folded) ∧
      cksum data = swap16 ((~~~folded).truncate 16) := by
  have hsum : (cksumLoop 0 data).toNat = wordSum data := by
    have hall := cksumLoop_take h data.length
    rwa [List.take_length] at hall
  refine ⟨cksumFold (wordSum data) (cksumLoop 0 data), ?_, ?_, ?_, ?_⟩
  · change (cksumFold (wordSum data) (cksumLoop 0 data)).toNat ≤ 65535
    rw [cksumFold_toNat, hsum]
    exact fold_le le_rfl
  · rw [cksumFold_toNat, hsum]
    exact fold_mod _ _
  · intro rounds hrounds
    apply BitVec.eq_of_toNat_eq
    rw [cksumFold_toNat, cksumFold_toNat, hsum]
    exact fold_of_le le_rfl (hsum ▸ hrounds)
  · rw [← hsum]
    rfl

/-- A checksum in an even place. -/
theorem cksum_stored {o : Nat} (h : data.length ≤ 131072) (heven : Even o)
    (hroom : o + 2 ≤ data.length) : ∃ zeroed sent, store16 data o 0 = some zeroed ∧
      store16 zeroed o (cksum zeroed) = some sent ∧ cksum sent = 0 := by
  have hpre : (data.take o).length = o := List.length_take_of_le (by omega)
  have hold : ((data.drop o).take 2).length = 2 :=
    List.length_take_of_le (by rw [List.length_drop]; omega)
  have hdata : data = data.take o ++ (data.drop o).take 2 ++ data.drop (o + 2) := by
    rw [List.append_assoc, ← List.drop_drop, List.take_append_drop, List.take_append_drop]
  have hlen (x : BitVec 16) : (data.take o ++ le16 x ++ data.drop (o + 2)).length = data.length := by
    rw [List.length_append, List.length_append, hpre, List.length_drop]
    simp only [le16, List.length_cons, List.length_nil]
    omega
  refine ⟨data.take o ++ le16 0 ++ data.drop (o + 2), _, ?_, store_append _ hpre rfl, ?_⟩
  · have hstore : store (data.take o ++ (data.drop o).take 2 ++ data.drop (o + 2)) o (le16 0) =
        some (data.take o ++ le16 0 ++ data.drop (o + 2)) := store_append _ hpre hold
    rwa [← hdata] at hstore
  · rw [cksum_eq_zero_iff (by rw [hlen]; exact h)]
    apply verifies_cksum
    · rwa [hpre]
    · rwa [hlen]

/-- An IP header verifies once its checksum is put in. -/
theorem verifies_header (hdr : SrIpHdr) :
    Verifies { hdr with ipSum := cksum { hdr with ipSum := 0 }.toBytes }.toBytes := by
  have hbytes (x : BitVec 16) : { hdr with ipSum := x }.toBytes =
      ([hdr.ipVhl, hdr.ipTos] ++ le16 hdr.ipLen ++ le16 hdr.ipId ++ le16 hdr.ipOff ++
        [hdr.ipTtl, hdr.ipP]) ++ le16 x ++ (le32 hdr.ipSrc ++ le32 hdr.ipDst) := by
    simp only [SrIpHdr.toBytes, List.append_assoc]
  rw [hbytes, hbytes 0]
  apply verifies_cksum
  · simp [le16]
    decide
  · rw [← hbytes 0, SrIpHdr.toBytes_length]
    decide

theorem cksum_sound (h : data.length ≤ 65535) : CksumSound data where
  exact_sum := fun k => cksumLoop_take (by omega) (2 * k)
  folds := cksumFold_ends (by omega)
  stored := fun _ heven hroom => cksum_stored (by omega) heven hroom

/-- Five bytes, with their checksum behind the first two. -/
theorem cksum_sound_five : CksumSound [0x45, 0x00, 0xab, 0xcd, 0x01] := cksum_sound (by decide)

end NetworkStack.Router
