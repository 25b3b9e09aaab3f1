import NetworkStack.Lib.Buffer
import NetworkStack.Lib.CString
import NetworkStack.Lib.Computation

/-!
# Accesses to a buffer that are watched

A computation ends with the first thing that goes wrong in it: an access that leaves the buffer,
an assertion that fails, or something else that is undefined. Where nothing but the end matters,
`Except.toOption` gives the partial function that a model without this distinction uses.
-/

namespace NetworkStack.Access

open Bytes Buffer

/-- What goes wrong. -/
inductive Fault where
  /-- An access to `width` bytes from `offset` on that are not all in the buffer. -/
  | outside (offset width : Nat)
  | assertion
  /-- A null pointer, or a variable that was never set. -/
  | undefined
  deriving DecidableEq, Repr

variable {α β : Type}

/-- An access to the buffer, with its result if it stays inside. -/
def access (offset width : Nat) : Option α → Except Fault α
  | some a => .ok a
  | none => .error (.outside offset width)

/-- Something that does not depend on the size of the buffer. -/
def defined : Option α → Except Fault α
  | some a => .ok a
  | none => .error .undefined

/-- Something that is asserted to be there. -/
def asserted : Option α → Except Fault α
  | some a => .ok a
  | none => .error .assertion

/-- The computation ends with an access outside the buffer. -/
def Outside (x : Except Fault α) : Prop := ∃ offset width, x = .error (.outside offset width)

/-- The computation ends with an access outside the buffer or with a failed assertion. -/
def Violates (x : Except Fault α) : Prop := ∃ fault, x = .error fault ∧ fault ≠ .undefined

variable {i n : Nat} {x : Option α} {e : Except Fault α} {f : α → Except Fault β} {Q : Prop}

theorem violates_outside (offset width : Nat) :
    Violates (.error (.outside offset width) : Except Fault α) :=
  ⟨_, rfl, Fault.noConfusion⟩

theorem violates_assertion : Violates (.error .assertion : Except Fault α) :=
  ⟨_, rfl, Fault.noConfusion⟩

theorem not_violates_undefined : ¬Violates (.error .undefined : Except Fault α) := by
  rintro ⟨fault, h, hne⟩
  cases h
  exact hne rfl

theorem not_violates_ok (a : α) : ¬Violates (.ok a) := by
  rintro ⟨fault, h, -⟩
  cases h

theorem violates_iff : Violates e ↔ Outside e ∨ e = .error .assertion := by
  constructor
  · rintro ⟨fault, rfl, hne⟩
    cases fault with
    | outside offset width => exact .inl ⟨offset, width, rfl⟩
    | assertion => exact .inr rfl
    | undefined => exact absurd rfl hne
  · rintro (⟨offset, width, rfl⟩ | rfl)
    · exact violates_outside offset width
    · exact violates_assertion

theorem not_violates_defined (x : Option α) : ¬Violates (defined x) := by
  cases x with
  | none => exact not_violates_undefined
  | some a => exact not_violates_ok a

theorem ok_of_access {a : α} (h : access i n x = .ok a) : x = some a := by
  cases x with
  | none => cases h
  | some b =>
      cases h
      rfl

/-- Something goes wrong now or later. -/
theorem violates_bind : Violates (e >>= f) ↔ Violates e ∨ ∃ a, e = .ok a ∧ Violates (f a) := by
  cases e with
  | error fault =>
      refine ⟨fun ⟨fault', h, hne⟩ => .inl ⟨fault', ?_, hne⟩, ?_⟩
      · cases h
        rfl
      · rintro (⟨fault', h, hne⟩ | ⟨a, h, -⟩)
        · cases h
          exact ⟨fault, rfl, hne⟩
        · cases h
  | ok a =>
      change Violates (f a) ↔ _
      constructor
      · intro h
        exact .inr ⟨a, rfl, h⟩
      · rintro (h | ⟨b, h, hf⟩)
        · exact absurd h (not_violates_ok a)
        · cases h
          exact hf

/-- A step that is not an access, and what the rest of the computation does. -/
theorem violates_bind_iff (he : ¬Violates e) (hf : ∀ a, e = .ok a → (Violates (f a) ↔ Q)) :
    Violates (e >>= f) ↔ (∃ a, e = .ok a) ∧ Q := by
  rw [violates_bind, or_iff_right he]
  constructor
  · rintro ⟨a, ha, h⟩
    exact ⟨⟨a, ha⟩, (hf a ha).mp h⟩
  · rintro ⟨⟨a, ha⟩, hQ⟩
    exact ⟨a, ha, (hf a ha).mpr hQ⟩

/-- After an access that stays inside, it is the rest that matters. -/
theorem violates_access (hx : x.isSome) (hf : ∀ a, x = some a → (Violates (f a) ↔ Q)) :
    Violates (access i n x >>= f) ↔ Q := by
  obtain ⟨a, rfl⟩ := Option.isSome_iff_exists.mp hx
  exact hf a rfl

/-- An access that leaves the buffer. -/
theorem violates_access_none (hx : ¬x.isSome) : Violates (access i n x >>= f) := by
  rw [Option.not_isSome_iff_eq_none] at hx
  subst hx
  exact violates_outside i n

theorem not_violates_bind (he : ¬Violates e) (hf : ∀ a, e = .ok a → ¬Violates (f a)) :
    ¬Violates (e >>= f) := by
  rw [violates_bind]
  rintro (h | ⟨a, ha, h⟩)
  · exact he h
  · exact hf a ha h

/-- A computation that is followed by nothing that can go wrong. -/
theorem violates_bind_pure {g : α → β} : Violates (e >>= fun a => pure (g a)) ↔ Violates e := by
  rw [violates_bind]
  refine or_iff_left ?_
  rintro ⟨a, -, h⟩
  exact not_violates_ok _ h

theorem violates_defined (hx : x.isSome) (hf : ∀ a, x = some a → (Violates (f a) ↔ Q)) :
    Violates (defined x >>= f) ↔ Q := by
  obtain ⟨a, rfl⟩ := Option.isSome_iff_exists.mp hx
  exact hf a rfl

@[simp] theorem toOption_access (i n : Nat) (x : Option α) : (access i n x).toOption = x := by
  cases x <;> rfl

@[simp] theorem toOption_defined (x : Option α) : (defined x).toOption = x := by
  cases x <;> rfl

@[simp] theorem toOption_asserted (x : Option α) : (asserted x).toOption = x := by
  cases x <;> rfl

/-- An assertion that fails is a violation, and so is what comes after one that holds. -/
theorem violates_asserted_bind :
    Violates (asserted x >>= f) ↔ x = none ∨ ∃ a, x = some a ∧ Violates (f a) := by
  cases x with
  | none => exact iff_of_true violates_assertion (.inl rfl)
  | some a => simp [asserted, bind, Except.bind]

/-! ## What an access needs -/

theorem isSome_load8 {buf : List Byte} : (load8 buf i).isSome ↔ i + 1 ≤ buf.length := by
  rw [load8, isSome_getElem?]
  exact Iff.rfl

theorem isSome_load16 {buf : List Byte} : (load16 buf i).isSome ↔ i + 2 ≤ buf.length := by
  constructor
  · intro h
    obtain ⟨x, hx⟩ := Option.isSome_iff_exists.mp h
    obtain ⟨b₀, -, hx⟩ := Option.bind_eq_some_iff.mp hx
    obtain ⟨b₁, h₁, -⟩ := Option.bind_eq_some_iff.mp hx
    exact (List.getElem?_eq_some_iff.mp h₁).1
  · intro h
    exact Option.isSome_iff_exists.mpr (exists_load16 h)

theorem isSome_load32 {buf : List Byte} : (load32 buf i).isSome ↔ i + 4 ≤ buf.length := by
  constructor
  · intro h
    obtain ⟨x, hx⟩ := Option.isSome_iff_exists.mp h
    obtain ⟨b₀, -, hx⟩ := Option.bind_eq_some_iff.mp hx
    obtain ⟨b₁, -, hx⟩ := Option.bind_eq_some_iff.mp hx
    obtain ⟨b₂, -, hx⟩ := Option.bind_eq_some_iff.mp hx
    obtain ⟨b₃, h₃, -⟩ := Option.bind_eq_some_iff.mp hx
    exact (List.getElem?_eq_some_iff.mp h₃).1
  · intro h
    exact Option.isSome_iff_exists.mpr (exists_load32 h)

theorem isSome_load48 {buf : List Byte} : (load48 buf i).isSome ↔ i + 6 ≤ buf.length := by
  constructor
  · intro h
    obtain ⟨x, hx⟩ := Option.isSome_iff_exists.mp h
    obtain ⟨b₀, -, hx⟩ := Option.bind_eq_some_iff.mp hx
    obtain ⟨b₁, -, hx⟩ := Option.bind_eq_some_iff.mp hx
    obtain ⟨b₂, -, hx⟩ := Option.bind_eq_some_iff.mp hx
    obtain ⟨b₃, -, hx⟩ := Option.bind_eq_some_iff.mp hx
    obtain ⟨b₄, -, hx⟩ := Option.bind_eq_some_iff.mp hx
    obtain ⟨b₅, h₅, -⟩ := Option.bind_eq_some_iff.mp hx
    exact (List.getElem?_eq_some_iff.mp h₅).1
  · intro h
    exact Option.isSome_iff_exists.mpr (exists_load48 h)

theorem isSome_load {buf : List Byte} : (load buf i n).isSome ↔ i + n ≤ buf.length := by
  unfold load
  split
  case isTrue h => exact iff_of_true rfl h
  case isFalse h => exact iff_of_false Bool.false_ne_true h

theorem isSome_store {buf bytes : List Byte} :
    (store buf i bytes).isSome ↔ i + bytes.length ≤ buf.length := by
  unfold store
  split
  case isTrue h => exact iff_of_true rfl h
  case isFalse h => exact iff_of_false Bool.false_ne_true h

/-- A write that stays inside keeps the length. -/
theorem violates_store {buf bytes : List Byte} {g : List Byte → Except Fault β}
    (h : i + bytes.length ≤ buf.length)
    (hg : ∀ buf', store buf i bytes = some buf' → buf'.length = buf.length →
      (Violates (g buf') ↔ Q)) :
    Violates (access i n (store buf i bytes) >>= g) ↔ Q :=
  violates_access (isSome_store.mpr h) fun buf' hbuf' => hg buf' hbuf' (store_length hbuf')

/-! ## Strings -/

/-- The bytes from `i` on, up to the first zero byte. -/
def readString (buf : List Byte) (i : Nat) : Except Fault (List Byte) :=
  let s := (buf.drop i).takeWhile (· ≠ 0)
  access (i + s.length) 1 ((load8 buf (i + s.length)).map fun _ => s)

/-- `strncmp`, whether the strings are the same: the memory from the offset `i` on is compared with
an array, no further than the array goes. -/
def strncmpAt : List Byte → Nat → List Byte → Except Fault Bool
  | _, _, [] => .ok true
  | [], i, _ :: _ => .error (.outside i 1)
  | b :: mem, i, c :: array =>
      if b ≠ c then .ok false
      else if c = 0 then .ok true
      else strncmpAt mem (i + 1) array

/-- A string that ends in the buffer. -/
theorem readString_eq {buf : List Byte} (h : 0 ∈ buf.drop i) :
    readString buf i = .ok ((buf.drop i).takeWhile (· ≠ 0)) := by
  have hlt := CString.length_takeWhile_lt h
  rw [List.length_drop] at hlt
  obtain ⟨b, hb⟩ := exists_getElem
    (show i + ((buf.drop i).takeWhile (· ≠ 0)).length < buf.length by omega)
  rw [readString, load8, hb]
  rfl

/-- A string that is not terminated is read beyond the end of the buffer. -/
theorem violates_readString {buf : List Byte} : Violates (readString buf i) ↔ 0 ∉ buf.drop i := by
  by_cases h : 0 ∈ buf.drop i
  · rw [readString_eq h]
    exact iff_of_false (not_violates_ok _) (not_not_intro h)
  · refine iff_of_true ?_ h
    have hnone : load8 buf (i + ((buf.drop i).takeWhile (· ≠ 0)).length) = none := by
      rw [CString.takeWhile_of_not_mem h, List.length_drop]
      exact List.getElem?_eq_none (by omega)
    rw [readString, hnone]
    exact violates_outside _ _

theorem takeWhile_cons_ne {b : Byte} (hb : b ≠ 0) (mem : List Byte) :
    (b :: mem).takeWhile (· ≠ 0) = b :: mem.takeWhile (· ≠ 0) :=
  List.takeWhile_cons_of_pos (decide_eq_true hb)

theorem takeWhile_cons_zero (mem : List Byte) : ((0 : Byte) :: mem).takeWhile (· ≠ 0) = [] :=
  List.takeWhile_cons_of_neg (by simp)

/-- The comparison leaves the buffer if its memory ends in the middle of the string. -/
theorem strncmpAt_eq (mem : List Byte) (i : Nat) (array : List Byte) :
    strncmpAt mem i array =
      if mem <+: array ∧ 0 ∉ mem ∧ mem.length < array.length then
        .error (.outside (i + mem.length) 1)
      else .ok (decide ((mem.takeWhile (· ≠ 0)).take array.length = array.takeWhile (· ≠ 0))) := by
  induction array generalizing mem i with
  | nil =>
      rw [if_neg (fun h => Nat.not_lt_zero _ h.2.2)]
      cases mem <;> simp [strncmpAt]
  | cons c array ih =>
      cases mem with
      | nil => simp [strncmpAt]
      | cons b mem =>
          rw [strncmpAt]
          by_cases hbc : b = c
          · subst hbc
            rw [if_neg (not_not_intro rfl)]
            by_cases hzero : b = 0
            · subst hzero
              rw [if_pos rfl, if_neg (fun h => h.2.1 List.mem_cons_self), takeWhile_cons_zero,
                takeWhile_cons_zero, List.take_nil, decide_eq_true rfl]
            · have hcond : (b :: mem <+: b :: array ∧ 0 ∉ b :: mem ∧
                  (b :: mem).length < (b :: array).length) ↔
                    mem <+: array ∧ 0 ∉ mem ∧ mem.length < array.length := by
                rw [List.cons_prefix_cons, List.mem_cons, not_or, List.length_cons, List.length_cons,
                  Nat.add_lt_add_iff_right, and_iff_right rfl, and_iff_right (Ne.symm hzero)]
              have hoffset : i + (b :: mem).length = i + 1 + mem.length := by
                rw [List.length_cons]
                omega
              have hstring : ((b :: mem).takeWhile (· ≠ 0)).take (b :: array).length =
                  (b :: array).takeWhile (· ≠ 0) ↔
                    (mem.takeWhile (· ≠ 0)).take array.length = array.takeWhile (· ≠ 0) := by
                rw [takeWhile_cons_ne hzero, takeWhile_cons_ne hzero, List.length_cons,
                  List.take_succ_cons, List.cons_inj_right]
              rw [if_neg hzero, ih]
              simp only [hcond, hoffset, hstring]
          · have hstring : ((b :: mem).takeWhile (· ≠ 0)).take (c :: array).length ≠
                (c :: array).takeWhile (· ≠ 0) := by
              by_cases hb : b = 0
              · have hc : c ≠ 0 := fun hc => hbc (hb.trans hc.symm)
                rw [hb, takeWhile_cons_zero, takeWhile_cons_ne hc, List.take_nil]
                exact (List.cons_ne_nil _ _).symm
              · rw [takeWhile_cons_ne hb, List.length_cons, List.take_succ_cons]
                by_cases hc : c = 0
                · rw [hc, takeWhile_cons_zero]
                  exact List.cons_ne_nil _ _
                · rw [takeWhile_cons_ne hc]
                  exact fun heq => hbc (List.cons.inj heq).1
            rw [if_pos hbc, if_neg, decide_eq_false hstring]
            rintro ⟨hpre, -, -⟩
            exact hbc (List.cons_prefix_cons.mp hpre).1

end NetworkStack.Access
