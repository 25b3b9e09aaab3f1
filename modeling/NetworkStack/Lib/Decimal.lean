import NetworkStack.Lib.Bytes

/-!
# Numbers in text

A number is printed in decimal with no zeros in front. A reader takes the digits at the
front of a text; where a printed number is followed by something else, it reads the
number and stops there.
-/

namespace NetworkStack.Decimal

variable {n k : Nat} {b : Byte} {l rest : List Byte}

def ascii (c : Char) : Byte := BitVec.ofNat 8 c.toNat

def text (s : String) : List Byte := s.toList.map ascii

/-- `%u` and its kin, on a number that is not negative. -/
def decimal (n : Nat) : List Byte := (Nat.toDigits 10 n).map ascii

/-- `%d`. -/
def decimalInt (n : Int) : List Byte :=
  if n < 0 then ascii '-' :: decimal n.natAbs else decimal n.toNat

def isDigit (b : Byte) : Bool := 48 ≤ b.toNat && b.toNat ≤ 57

def isSpace (b : Byte) : Bool := b = 32 || 9 ≤ b.toNat && b.toNat ≤ 13

/-- The value of some digits. -/
def number (digits : List Byte) : Nat :=
  digits.foldl (fun n b => 10 * n + (b.toNat - 48)) 0

/-- The conversion `%d` of `sscanf`: the number at the front of a text, behind white space. -/
def scanInt (s : List Byte) : Option Int :=
  let s := s.dropWhile isSpace
  let negative := s.head? = some (ascii '-')
  let s := if negative ∨ s.head? = some (ascii '+') then s.tail else s
  let digits := s.takeWhile isDigit
  if digits = [] then none
  else some (if negative then -(number digits : Int) else number digits)

/-- `atoi`. -/
def atoi (s : List Byte) : Int := (scanInt s).getD 0

theorem toNat_ascii {c : Char} (h : c.isDigit) : (ascii c).toNat = c.toNat := by
  have hle : c.toNat ≤ 57 := by
    have hval : c.val ≤ '9'.val := by
      simp only [Char.isDigit, Bool.and_eq_true, decide_eq_true_eq] at h
      exact h.2
    exact hval
  rw [ascii, BitVec.toNat_ofNat, Nat.mod_eq_of_lt (by omega)]

theorem isDigit_ascii {c : Char} (h : c.isDigit) : isDigit (ascii c) = true := by
  have hdigit := h
  simp only [Char.isDigit, Bool.and_eq_true, decide_eq_true_eq] at hdigit
  have hlow : 48 ≤ c.toNat := hdigit.1
  have hhigh : c.toNat ≤ 57 := hdigit.2
  simp [isDigit, toNat_ascii h, hlow, hhigh]

theorem isDigit_toDigits {c : Char} (h : c ∈ Nat.toDigits 10 n) : c.isDigit :=
  Nat.isDigit_of_mem_toDigits (by decide) (by decide) h

theorem isDigit_of_mem_decimal (h : b ∈ decimal n) : isDigit b = true := by
  obtain ⟨c, hc, rfl⟩ := List.mem_map.mp h
  exact isDigit_ascii (isDigit_toDigits hc)

theorem decimal_ne_nil : decimal n ≠ [] := by
  intro h
  exact Nat.toDigits_ne_nil (List.map_eq_nil_iff.mp h)

theorem length_decimal_le_iff (hk : 0 < k) : (decimal n).length ≤ k ↔ n < 10 ^ k := by
  rw [decimal, List.length_map]
  exact Nat.length_toDigits_le_iff (by decide) hk

theorem number_decimal (n : Nat) : number (decimal n) = n := by
  have hfold : ∀ (cs : List Char) (init : Nat), (∀ c ∈ cs, c.isDigit) →
      (cs.map ascii).foldl (fun n b => 10 * n + (b.toNat - 48)) init = Nat.ofDigitChars 10 cs init := by
    intro cs
    induction cs with
    | nil => exact fun _ _ => rfl
    | cons c cs ih =>
        intro init hcs
        rw [List.map_cons, List.foldl_cons, toNat_ascii (hcs c List.mem_cons_self),
          ih _ fun d hd => hcs d (List.mem_cons_of_mem c hd)]
        rfl
  rw [number, decimal, hfold _ 0 fun c hc => isDigit_toDigits hc]
  exact Nat.ofDigitChars_ten_toDigits

/-- The digits at the front of a text are those of the number it starts with. -/
theorem takeWhile_decimal (h : ∀ b ∈ rest.head?, isDigit b = false) :
    (decimal n ++ rest).takeWhile isDigit = decimal n := by
  rw [List.takeWhile_append_of_pos fun b hb => isDigit_of_mem_decimal hb]
  cases rest with
  | nil => exact List.append_nil _
  | cons b rest => simp [h b rfl]

theorem dropWhile_decimal (h : ∀ b ∈ rest.head?, isDigit b = false) :
    (decimal n ++ rest).dropWhile isDigit = rest := by
  rw [List.dropWhile_append_of_pos fun b hb => isDigit_of_mem_decimal hb]
  cases rest with
  | nil => rfl
  | cons b rest => simp [h b rfl]

theorem not_isSpace_of_isDigit : ∀ b : Byte, isDigit b = true →
    isSpace b = false ∧ b ≠ ascii '-' ∧ b ≠ ascii '+' := by
  decide

/-- What was printed with `%d` is read back, up to what follows it. -/
theorem scanInt_decimalInt (n : Int) (h : ∀ b ∈ rest.head?, isDigit b = false) :
    scanInt (decimalInt n ++ rest) = some n := by
  unfold decimalInt
  split
  · rename_i hneg
    have hdrop : (ascii '-' :: decimal n.natAbs ++ rest).dropWhile isSpace =
        ascii '-' :: (decimal n.natAbs ++ rest) := rfl
    simp only [scanInt, hdrop, List.head?_cons, true_or, if_true, List.tail_cons,
      takeWhile_decimal h, if_neg decimal_ne_nil, number_decimal]
    congr 1
    omega
  · rename_i hpos
    obtain ⟨b, digits, hb⟩ := List.exists_cons_of_ne_nil (decimal_ne_nil (n := n.toNat))
    have hdigit : isDigit b = true := isDigit_of_mem_decimal (hb ▸ List.mem_cons_self)
    obtain ⟨hspace, hminus, hplus⟩ := not_isSpace_of_isDigit b hdigit
    have hdrop : (decimal n.toNat ++ rest).dropWhile isSpace = decimal n.toNat ++ rest := by
      rw [hb, List.cons_append, List.dropWhile_cons_of_neg (by simp [hspace])]
    have hhead : (decimal n.toNat ++ rest).head? = some b := by
      rw [hb]
      rfl
    simp only [scanInt, hdrop, hhead, Option.some.injEq, hminus, hplus, or_self, if_false,
      takeWhile_decimal h, if_neg decimal_ne_nil, number_decimal]
    omega

end NetworkStack.Decimal
