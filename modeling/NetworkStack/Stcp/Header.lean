import NetworkStack.Lib.Bytes

/-!
# The STCP header

The receiving code copies the first twenty bytes of a zeroed buffer into a
header, so a byte that did not arrive reads as zero. Ports, checksum, data
offset, window and urgent pointer are read by no code above the network layer;
they are written as zero bytes here. Sequence and acknowledgement numbers are
stored in host order, as the source stores them.
-/

namespace NetworkStack.Stcp

open Bytes

/-- The fields of `STCPHeader` that the transport layer reads or writes. -/
structure STCPHeader where
  thSeq : BitVec 32
  thAck : BitVec 32
  thFlags : BitVec 8
  deriving DecidableEq, Repr

def thFIN : BitVec 8 := 0x01

def thSYN : BitVec 8 := 0x02

def thACK : BitVec 8 := 0x10

/-- `sizeof(STCPHeader)`. -/
def headerLen : Nat := 20

/-- `MAX_IP_PAYLOAD_LEN`. -/
def maxIpPayloadLen : Nat := 1500

namespace STCPHeader

/-- The twenty bytes of a header in memory. -/
def toBytes (h : STCPHeader) : List Byte :=
  [0, 0, 0, 0] ++ le32 h.thSeq ++ le32 h.thAck ++ [0, h.thFlags, 0, 0, 0, 0, 0, 0]

/-- The header at the start of a zero-filled buffer holding these bytes. -/
def ofBytes (buf : List Byte) : STCPHeader where
  thSeq := ofLe32 (buf.getD 4 0) (buf.getD 5 0) (buf.getD 6 0) (buf.getD 7 0)
  thAck := ofLe32 (buf.getD 8 0) (buf.getD 9 0) (buf.getD 10 0) (buf.getD 11 0)
  thFlags := buf.getD 13 0

@[simp] theorem toBytes_length (h : STCPHeader) : h.toBytes.length = headerLen := rfl

/-- Reading back a header that was written in front of any payload. -/
@[simp] theorem ofBytes_toBytes_append (h : STCPHeader) (payload : List Byte) :
    ofBytes (h.toBytes ++ payload) = h := by
  have hs := ofLe32_extract h.thSeq
  have ha := ofLe32_extract h.thAck
  simp only [ofBytes, toBytes, le32, List.cons_append, List.nil_append,
    List.getD_cons_zero, List.getD_cons_succ, hs, ha]

@[simp] theorem ofBytes_toBytes (h : STCPHeader) : ofBytes h.toBytes = h := by
  simpa using ofBytes_toBytes_append h []

/-- Cutting the buffer behind the header does not change the header. -/
theorem ofBytes_take (data : List Byte) {n : Nat} (hn : headerLen ≤ n) :
    ofBytes (data.take n) = ofBytes data := by
  have hget (i : Nat) (hi : i < 20) : (data.take n).getD i 0 = data.getD i 0 := by
    have hin : i < n := lt_of_lt_of_le hi hn
    simp only [List.getD_eq_getElem?_getD, List.getElem?_take_of_lt hin]
  simp only [ofBytes, hget, Nat.reduceLT]

end STCPHeader

end NetworkStack.Stcp
