import NetworkStack.Lib.Decimal

/-!
# Internet addresses as text

`inet_ntoa` prints four bytes as a dotted quad. `inet_aton` reads one to four numbers, in
decimal, octal or hexadecimal, the last of which fills the bytes that are left.
-/

namespace NetworkStack.Vns

open Bytes Decimal

/-- `inet_ntoa`. -/
def inetNtoa (a b c d : Byte) : List Byte :=
  decimal a.toNat ++ ascii '.' :: (decimal b.toNat ++ ascii '.' :: (decimal c.toNat ++
    ascii '.' :: decimal d.toNat))

def digitVal (b : Byte) : Option Nat :=
  if 48 ≤ b.toNat ∧ b.toNat ≤ 57 then some (b.toNat - 48)
  else if 65 ≤ b.toNat ∧ b.toNat ≤ 70 then some (b.toNat - 55)
  else if 97 ≤ b.toNat ∧ b.toNat ≤ 102 then some (b.toNat - 87)
  else none

def isDigitOf (base : Nat) (b : Byte) : Bool := (digitVal b).any (· < base)

/-- The number at the front of a text, and what is behind it. -/
def numberOf (base : Nat) (s : List Byte) : Nat × List Byte :=
  ((s.takeWhile (isDigitOf base)).foldl (fun n b => base * n + (digitVal b).getD 0) 0,
    s.dropWhile (isDigitOf base))

/-- `strtoul` with base 0, on a text that starts with a digit. -/
def strtoul (s : List Byte) : Nat × List Byte :=
  if s.head? = some (ascii '0') then
    if (s[1]? = some (ascii 'x') ∨ s[1]? = some (ascii 'X')) ∧ (s[2]?).any (isDigitOf 16) then
      numberOf 16 (s.drop 2)
    else numberOf 8 s
  else numberOf 10 s

/-- The loop of `inet_aton`, with the number of dots that may still come and the bytes so far. -/
def inetAtonLoop : Nat → List Byte → List Byte → Option (List Byte)
  | dots, bytes, s =>
      if (s.head?).any isDigit then
        let (val, rest) := strtoul s
        if val > 0xffffffff then none
        else if rest.head? = some (ascii '.') then
          match dots with
          | 0 => none
          | dots + 1 =>
              if val > 0xff then none
              else inetAtonLoop dots (bytes ++ [BitVec.ofNat 8 val]) rest.tail
        else if (rest.head?).all isSpace ∧ val < 256 ^ (dots + 1) then
          some (bytes ++ (be32 (BitVec.ofNat 32 val)).drop (3 - dots))
        else none
      else none

/-- `inet_aton`; a string with a zero byte in it is refused. -/
def inetAton (s : List Byte) : Option (List Byte) :=
  if 0 ∈ s then none else inetAtonLoop 3 [] s

variable {rest : List Byte}

theorem isDigitOf_ten : ∀ b : Byte, isDigitOf 10 b = isDigit b := by
  decide

theorem digitVal_of_isDigit : ∀ b : Byte, isDigit b = true → (digitVal b).getD 0 = b.toNat - 48 := by
  decide

/-- A printed byte has no zero in front. -/
theorem decimal_byte : ∀ b : Byte,
    b = 0 ∨ (decimal b.toNat).head? ≠ some (ascii '0') := by
  decide

theorem numberOf_decimal (n : Nat) (h : ∀ b ∈ rest.head?, isDigit b = false) :
    numberOf 10 (decimal n ++ rest) = (n, rest) := by
  have hfun : isDigitOf 10 = isDigit := funext isDigitOf_ten
  rw [numberOf, hfun, takeWhile_decimal h, dropWhile_decimal h, Prod.mk.injEq]
  refine ⟨?_, rfl⟩
  conv_rhs => rw [← number_decimal n]
  apply List.foldl_ext
  intro m b hb
  rw [digitVal_of_isDigit b (isDigit_of_mem_decimal hb)]

/-- A printed byte is read back, up to a dot or the end. -/
theorem strtoul_decimal (b : Byte) (h : rest = [] ∨ rest.head? = some (ascii '.')) :
    strtoul (decimal b.toNat ++ rest) = (b.toNat, rest) := by
  have hrest : ∀ x ∈ rest.head?, isDigit x = false := by
    intro x hx
    obtain rfl | hdot := h
    · cases hx
    · obtain rfl := Option.some.inj (hdot.symm.trans hx)
      decide
  obtain rfl | hhead := decimal_byte b
  · obtain rfl | hdot := h
    · decide
    · obtain ⟨tail, rfl⟩ : ∃ tail, rest = ascii '.' :: tail := by
        cases rest with
        | nil => cases hdot
        | cons x tail => exact ⟨tail, by rw [Option.some.inj hdot]⟩
      rfl
  · have hne : (decimal b.toNat ++ rest).head? ≠ some (ascii '0') := by
      rw [List.head?_append_of_ne_nil _ decimal_ne_nil]
      exact hhead
    rw [strtoul, if_neg hne, numberOf_decimal _ hrest]

theorem head_decimal (n : Nat) : ((decimal n ++ rest).head?).any isDigit = true := by
  cases h : decimal n with
  | nil => exact absurd h decimal_ne_nil
  | cons b tail =>
      have hb : b ∈ decimal n := by
        rw [h]
        exact List.mem_cons_self
      exact isDigit_of_mem_decimal hb

theorem inetAtonLoop_dot (dots : Nat) (bytes : List Byte) (b : Byte) :
    inetAtonLoop (dots + 1) bytes (decimal b.toNat ++ ascii '.' :: rest) =
      inetAtonLoop dots (bytes ++ [b]) rest := by
  have hb := b.isLt
  rw [inetAtonLoop, if_pos (head_decimal _), strtoul_decimal b (.inr rfl)]
  simp only
  rw [if_neg (by omega), List.head?_cons, if_pos rfl, if_neg (by omega), List.tail_cons,
    BitVec.ofNat_toNat, BitVec.setWidth_eq]

theorem inetAtonLoop_last (bytes : List Byte) (b : Byte) :
    inetAtonLoop 0 bytes (decimal b.toNat) = some (bytes ++ [b]) := by
  have hb := b.isLt
  have hlast : (be32 (BitVec.ofNat 32 b.toNat)).drop 3 = [b] := by
    change [(BitVec.ofNat 32 b.toNat).extractLsb' 0 8] = [b]
    congr 1
    apply BitVec.eq_of_toNat_eq
    simpa using hb
  have hval : strtoul (decimal b.toNat ++ []) = (b.toNat, []) := strtoul_decimal b (.inl rfl)
  have hhead : ((decimal b.toNat ++ []).head?).any isDigit = true := head_decimal b.toNat
  rw [List.append_nil] at hval hhead
  rw [inetAtonLoop, if_pos hhead, hval]
  simp only
  rw [if_neg (by omega), if_neg (by simp), if_pos ⟨rfl, by omega⟩, hlast]

theorem zero_not_mem_decimal (n : Nat) : 0#8 ∉ decimal n := by
  intro h
  exact absurd (isDigit_of_mem_decimal h) (by decide)

/-- A dotted quad is read as the bytes it was printed from. -/
theorem inetAton_inetNtoa (a b c d : Byte) : inetAton (inetNtoa a b c d) = some [a, b, c, d] := by
  have hzero : 0 ∉ inetNtoa a b c d := by
    have hdot : 0#8 ≠ ascii '.' := by decide
    simp [inetNtoa, zero_not_mem_decimal, hdot]
  rw [inetAton, if_neg hzero, inetNtoa, inetAtonLoop_dot, inetAtonLoop_dot, inetAtonLoop_dot,
    inetAtonLoop_last]
  rfl

/-- The last number fills the bytes that are left. -/
theorem drop_be32_length {dots : Nat} (h : dots ≤ 3) (x : BitVec 32) :
    ((be32 x).drop (3 - dots)).length = dots + 1 := by
  rw [List.length_drop]
  change 4 - (3 - dots) = dots + 1
  omega

theorem inetAtonLoop_length {dots : Nat} {bytes s address : List Byte} (hdots : dots ≤ 3)
    (h : inetAtonLoop dots bytes s = some address) : address.length = bytes.length + dots + 1 := by
  fun_induction inetAtonLoop dots bytes s with
  | case4 bytes s hdigit val rest hscan hval hdot dots hbyte ih =>
      rw [ih (Nat.le_of_succ_le hdots) h, List.length_append, List.length_singleton]
      omega
  | case5 dots bytes s hdigit val rest hscan hval hdot hlast =>
      obtain rfl := Option.some.inj h
      rw [List.length_append, drop_be32_length hdots, Nat.add_assoc]
  | _ => cases h

theorem inetAton_length {s address : List Byte} (h : inetAton s = some address) :
    address.length = 4 := by
  rw [inetAton, Option.ite_none_left_eq_some] at h
  exact inetAtonLoop_length (Nat.le_refl 3) h.2

end NetworkStack.Vns
