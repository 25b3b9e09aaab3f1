import Mathlib.Data.List.Basic

/-!
# Calls that move less than they are asked to

The system decides at every call how much it moves. A write takes some of the bytes it is
given, and the caller comes back with the others. A read gives some of the bytes that are
there. The amounts are any sequence of numbers, so what holds for all of them holds however
the transfers are cut.
-/

namespace NetworkStack.Transfer

variable {β : Type*}

/-- The sending end of a stream. A write takes `results i` bytes in the `i`-th call, or all of
them if there are fewer; a result that is not positive is an error. -/
structure Sink (β : Type*) where
  results : Nat → Int
  calls : Nat
  sent : List β

namespace Sink

/-- A stream on which nothing was sent yet. -/
def fresh (results : Nat → Int) : Sink β where
  results := results
  calls := 0
  sent := []

def write (s : Sink β) (buf : List β) : Int × Sink β :=
  let rc := min (s.results s.calls) buf.length
  (rc, { s with calls := s.calls + 1, sent := s.sent ++ buf.take rc.toNat })

/-- Write until all is written. The result of a write that fails ends the loop. -/
def writeLoop : Nat → Sink β → List β → Option Int × Sink β
  | 0, s, _ => (none, s)
  | _ + 1, s, [] => (none, s)
  | fuel + 1, s, b :: buf =>
      let r := s.write (b :: buf)
      if r.1 ≤ 0 then (some r.1, r.2) else writeLoop fuel r.2 ((b :: buf).drop r.1.toNat)

/-- A write that does not fail takes at least one byte, so the number of bytes is enough fuel. -/
def writeAll (s : Sink β) (buf : List β) : Option Int × Sink β := writeLoop buf.length s buf

/-- No write fails. -/
def Reliable (s : Sink β) : Prop := ∀ i, 0 < s.results i

variable {s : Sink β} {buf : List β}

theorem writeLoop_eq (hs : s.Reliable) {fuel : Nat} (h : buf.length ≤ fuel) :
    ∃ s' : Sink β, writeLoop fuel s buf = (none, s') ∧ s'.Reliable ∧ s'.sent = s.sent ++ buf := by
  induction fuel generalizing s buf with
  | zero =>
      obtain rfl := List.eq_nil_of_length_eq_zero (Nat.le_zero.mp h)
      exact ⟨s, rfl, hs, (List.append_nil _).symm⟩
  | succ fuel ih =>
      cases buf with
      | nil => exact ⟨s, rfl, hs, (List.append_nil _).symm⟩
      | cons b buf =>
          have hrc : 0 < (s.write (b :: buf)).1 := by
            have hpos := hs s.calls
            simp only [write, List.length_cons]
            omega
          have hlen : ((b :: buf).drop (s.write (b :: buf)).1.toNat).length ≤ fuel := by
            rw [List.length_drop, List.length_cons]
            rw [List.length_cons] at h
            omega
          have hs' : (s.write (b :: buf)).2.Reliable := hs
          obtain ⟨s', hloop, hreliable, hsent⟩ := ih hs' hlen
          refine ⟨s', ?_, hreliable, ?_⟩
          · rw [writeLoop, if_neg (Int.not_le.mpr hrc), hloop]
          · rw [hsent, write, List.append_assoc, List.take_append_drop]

/-- However it is cut, the whole buffer is sent. -/
theorem writeAll_eq (hs : s.Reliable) (buf : List β) :
    ∃ s' : Sink β, s.writeAll buf = (none, s') ∧ s'.Reliable ∧ s'.sent = s.sent ++ buf :=
  writeLoop_eq hs (Nat.le_refl _)

end Sink

/-- The receiving end of a stream. The `i`-th read gives up to `amounts i + 1` of the bytes that
were not read yet, and waits if there are none, unless the stream is closed. -/
structure Pipe (β : Type*) where
  pending : List β
  closed : Bool
  amounts : Nat → Nat
  reads : Nat

namespace Pipe

/-- A stream on which nothing was written yet. -/
def fresh (amounts : Nat → Nat) : Pipe β where
  pending := []
  closed := false
  amounts := amounts
  reads := 0

def write (p : Pipe β) (bytes : List β) : Pipe β := { p with pending := p.pending ++ bytes }

/-- The bytes that a read gives, or `none` as long as it waits. At the end of the stream it gives
no bytes. -/
def read (p : Pipe β) (count : Nat) : Option (List β × Pipe β) :=
  match p.pending with
  | [] => if p.closed then some ([], p) else none
  | b :: rest =>
      let n := min (p.amounts p.reads + 1) count
      some ((b :: rest).take n, { p with pending := (b :: rest).drop n, reads := p.reads + 1 })

variable {p : Pipe β} {count : Nat}

/-- A read gives some bytes from the front, as many as were asked for at the most. -/
theorem read_eq (hcount : 0 < count) (hpending : p.pending ≠ []) :
    ∃ (got : List β) (p' : Pipe β), p.read count = some (got, p') ∧ got ≠ [] ∧
      got.length ≤ count ∧ p.pending = got ++ p'.pending := by
  unfold read
  cases hp : p.pending with
  | nil => exact absurd hp hpending
  | cons b rest =>
      refine ⟨_, _, rfl, ?_, ?_, ?_⟩
      · obtain ⟨n, hn⟩ := Nat.exists_eq_add_one_of_ne_zero
          (by omega : min (p.amounts p.reads + 1) count ≠ 0)
        rw [hn, List.take_succ_cons]
        exact List.cons_ne_nil _ _
      · rw [List.length_take]
        omega
      · exact (List.take_append_drop _ _).symm

end Pipe

end NetworkStack.Transfer
