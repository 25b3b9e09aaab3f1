import NetworkStack.Vns.Inet

/-!
# The VNS protocol of the controller

The message classes of `VNSProtocol.py`, with the bytes they are packed to and what they
are unpacked to. A Python string is its bytes. `none` is an exception: a number that does
not fit its field, a body of the wrong length, or an address that cannot be read.
-/

namespace NetworkStack.Vns

open Bytes Decimal

/-- `IDSIZE`. -/
def idSize : Nat := 32

/-- `strip_null_chars`. -/
def stripNullChars (s : List Byte) : List Byte := s.filter (· ≠ 0)

/-! ## Fields of `struct` -/

/-- A string in a field of `n` bytes: cut off or filled with zeros. -/
def packS (n : Nat) (s : List Byte) : List Byte := s.take n ++ List.replicate (n - s.length) 0

def packB (x : Int) : Option (List Byte) :=
  if 0 ≤ x ∧ x < 2 ^ 8 then some [BitVec.ofInt 8 x] else none

def packH (x : Int) : Option (List Byte) :=
  if 0 ≤ x ∧ x < 2 ^ 16 then some (be16 (BitVec.ofInt 16 x)) else none

def packI (x : Int) : Option (List Byte) :=
  if 0 ≤ x ∧ x < 2 ^ 32 then some (be32 (BitVec.ofInt 32 x)) else none

def unpackB : List Byte → Option Int
  | [a] => some a.toNat
  | _ => none

def unpackH : List Byte → Option Int
  | [a, b] => some (ofLe16 b a).toNat
  | _ => none

def unpackI : List Byte → Option Int
  | [a, b, c, d] => some (ofLe32 d c b a).toNat
  | _ => none

/-- `s[i:i+n]`. -/
def slice (s : List Byte) (i n : Nat) : List Byte := (s.drop i).take n

/-! ## Messages -/

/-- `VNSInterface`. Its constructor refuses other lengths. -/
structure VnsInterface where
  name : List Byte
  mac : List Byte
  ip : List Byte
  mask : List Byte
  mac_length : mac.length = 6
  ip_length : ip.length = 4
  mask_length : mask.length = 4
  deriving DecidableEq

/-- An address as text and the number of bits of its mask. -/
abbrev SrcFilter := List Byte × Int

/-- `NO_SRC_FILTERS`. -/
def noSrcFilters : List SrcFilter := [(text "0.0.0.0", 0)]

/-- The filters of a `VNSOpenTemplate`. -/
abbrev SrcFilters := { filters : List SrcFilter // filters ≠ [] }

/-- `__set_src_filters`. -/
def setSrcFilters (filters : List SrcFilter) : SrcFilters :=
  if h : filters = [] then ⟨noSrcFilters, List.cons_ne_nil _ _⟩ else ⟨filters, h⟩

/-- An instance of a message class, with its attributes. -/
inductive VnsMessage where
  | vnsOpen (topoId : Int) (vhost user pw : List Byte)
  | vnsClose (msg : List Byte)
  | vnsPacket (intfName ethernetFrame : List Byte)
  | vnsBanner (msg : List Byte)
  | vnsHardwareInfo (interfaces : List VnsInterface)
  | vnsRtable (vrhost rtable : List Byte)
  | vnsOpenTemplate (templateName vrhost : List Byte) (srcFilters : SrcFilters)
  | vnsAuthRequest (salt : List Byte)
  | vnsAuthReply (username ssp : List Byte)
  | vnsAuthStatus (authOk : Bool) (msg : List Byte)
  deriving DecidableEq

/-- `get_type`. -/
def VnsMessage.getType : VnsMessage → Int
  | .vnsOpen .. => 1
  | .vnsClose _ => 2
  | .vnsPacket .. => 4
  | .vnsBanner _ => 8
  | .vnsHardwareInfo _ => 16
  | .vnsRtable .. => 32
  | .vnsOpenTemplate .. => 64
  | .vnsAuthRequest _ => 128
  | .vnsAuthReply .. => 256
  | .vnsAuthStatus .. => 512

/-! ## Packing -/

def hwInterface : BitVec 32 := 1

def hwSpeed : BitVec 32 := 2

def hwSubnet : BitVec 32 := 4

def hwEther : BitVec 32 := 32

def hwEthip : BitVec 32 := 64

def hwMask : BitVec 32 := 128

/-- `VNSInterface.pack`. -/
def VnsInterface.pack (i : VnsInterface) : List Byte :=
  (be32 hwInterface ++ packS 32 i.name) ++ (be32 hwSpeed ++ be32 0 ++ packS 28 []) ++
    (be32 hwEther ++ packS 32 i.mac) ++ (be32 hwEthip ++ packS 4 i.ip ++ packS 28 []) ++
    (be32 hwSubnet ++ be32 0 ++ packS 28 []) ++ (be32 hwMask ++ packS 4 i.mask ++ packS 28 [])

def packFilters : List SrcFilter → Option (List Byte)
  | [] => some []
  | (ip, mask) :: rest => do
      return (← inetAton ip) ++ (← packB mask) ++ (← packFilters rest)

/-- `pack`. -/
def VnsMessage.pack : VnsMessage → Option (List Byte)
  | .vnsOpen topoId vhost user pw => do
      return (← packH topoId) ++ be16 0 ++ packS idSize vhost ++ packS idSize user ++ packS idSize pw
  | .vnsClose msg => some (packS 256 msg)
  | .vnsPacket intfName ethernetFrame => some (packS 16 intfName ++ ethernetFrame)
  | .vnsBanner msg => some (packS 256 msg)
  | .vnsHardwareInfo interfaces => some (interfaces.flatMap VnsInterface.pack)
  | .vnsRtable vrhost rtable => some (packS idSize vrhost ++ rtable)
  | .vnsOpenTemplate templateName vrhost srcFilters => do
      return packS 30 templateName ++ packS idSize vrhost ++ (← packFilters srcFilters.1)
  | .vnsAuthRequest salt => some salt
  | .vnsAuthReply username ssp => do
      return (← packI username.length) ++ username ++ ssp
  | .vnsAuthStatus authOk msg => some ((if authOk then 1 else 0) :: msg)

/-- `pack_with_header`. -/
def packWithHeader (lmt : VnsMessage) : Option (List Byte) := do
  let body ← lmt.pack
  return (← packI (8 + body.length)) ++ (← packI lmt.getType) ++ body

/-! ## Unpacking -/

/-- `VNSOpen.unpack`. -/
def unpackOpen (body : List Byte) : Option VnsMessage := do
  if body.length = 100 then
    return .vnsOpen (← unpackH (slice body 0 2)) (stripNullChars (slice body 4 32))
      (stripNullChars (slice body 36 32)) (stripNullChars (slice body 68 32))
  else none

/-- `VNSClose.unpack` and `VNSBanner.unpack`. -/
def unpackText (make : List Byte → VnsMessage) (body : List Byte) : Option VnsMessage :=
  if body.length = 256 then some (make (stripNullChars body)) else none

/-- `VNSPacket.unpack`. -/
def unpackPacket (body : List Byte) : Option VnsMessage :=
  if (body.take 16).length = 16 then
    some (.vnsPacket (stripNullChars (body.take 16)) (body.drop 16))
  else none

/-- `VNSRtable.unpack`. -/
def unpackRtable (body : List Byte) : Option VnsMessage :=
  some (.vnsRtable (stripNullChars (body.take idSize)) (body.drop idSize))

/-- One round of the loop of `VNSOpenTemplate.unpack`. -/
def filterAt (sfBytes : List Byte) (i : Nat) : Option SrcFilter :=
  match slice sfBytes (i * 5) 4 with
  | [a, b, c, d] => do
      let mask ← unpackB [← sfBytes[i * 5 + 4]?]
      if mask < 0 ∨ mask > 32 then none else return (inetNtoa a b c d, mask)
  | _ => none

def filtersLoop (sfBytes : List Byte) : Nat → Nat → Option (List SrcFilter)
  | 0, _ => some []
  | rounds + 1, i => do
      return (← filterAt sfBytes i) :: (← filtersLoop sfBytes rounds (i + 1))

/-- `VNSOpenTemplate.unpack`. -/
def unpackOpenTemplate (body : List Byte) : Option VnsMessage := do
  if (body.take 62).length = 62 then
    let sfBytes := body.drop 62
    let srcFilters ← filtersLoop sfBytes (sfBytes.length / 5) 0
    return .vnsOpenTemplate (stripNullChars (slice body 0 30)) (stripNullChars (slice body 30 32))
      (setSrcFilters srcFilters)
  else none

/-- `VNSAuthReply.unpack`. -/
def unpackAuthReply (body : List Byte) : Option VnsMessage := do
  let usernameLen ← unpackI (body.take 4)
  let body := body.drop 4
  return .vnsAuthReply (body.take usernameLen.toNat) (body.drop usernameLen.toNat)

/-- `VNSAuthStatus.unpack`. -/
def unpackAuthStatus (body : List Byte) : Option VnsMessage := do
  let authOk ← unpackB (body.take 1)
  return .vnsAuthStatus (authOk ≠ 0) (body.drop 1)

/-- `unpack_received_msg`. The inner `none` is Python's: what is returned for a type that is
not known, and for `VNSHardwareInfo`, which does not define `unpack`. -/
def unpackReceivedMsg (typeVal : Int) (body : List Byte) : Option (Option VnsMessage) :=
  if typeVal = 1 then (unpackOpen body).map some
  else if typeVal = 2 then (unpackText .vnsClose body).map some
  else if typeVal = 4 then (unpackPacket body).map some
  else if typeVal = 8 then (unpackText .vnsBanner body).map some
  else if typeVal = 32 then (unpackRtable body).map some
  else if typeVal = 64 then (unpackOpenTemplate body).map some
  else if typeVal = 128 then some (some (.vnsAuthRequest body))
  else if typeVal = 256 then (unpackAuthReply body).map some
  else if typeVal = 512 then (unpackAuthStatus body).map some
  else some none

end NetworkStack.Vns
