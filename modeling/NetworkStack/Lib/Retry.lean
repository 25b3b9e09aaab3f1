import Mathlib.Data.List.Basic

/-!
# Reads that are tried again

A stream is what the calls that read from it meet before the end: pieces of data, signals
that interrupt a call, and errors. A call gets no more than it asks for of the next piece and
leaves the rest of it. At the end of the stream a call gets nothing, and so does every call
after it. A loop that reads a number of bytes tries again after an interruption, gives up after
an error, and does not look at whether it got anything at all.
-/

namespace NetworkStack.Retry

variable {β : Type*}

/-- What a call meets. A piece of data is not empty. -/
inductive Event (β : Type*) where
  | data (first : β) (more : List β)
  | interrupt
  | failure
  deriving DecidableEq, Repr

/-- What a call gives. -/
inductive Result (β : Type*) where
  | got (bytes : List β)
  | interrupted
  | failed

def Event.bytes : Event β → List β
  | .data first more => first :: more
  | .interrupt => []
  | .failure => []

/-- The bytes of a stream. -/
def bytes (events : List (Event β)) : List β := events.flatMap Event.bytes

/-- What is left of a piece stays in front of the stream. -/
def putBack : List β → List (Event β) → List (Event β)
  | [], events => events
  | first :: more, events => .data first more :: events

def read : List (Event β) → Nat → Result β × List (Event β)
  | [], _ => (.got [], [])
  | .interrupt :: rest, _ => (.interrupted, rest)
  | .failure :: rest, _ => (.failed, rest)
  | .data first more :: rest, count =>
      (.got ((first :: more).take count), putBack ((first :: more).drop count) rest)

/-- Read until there are `count` bytes, with no more than `fuel` calls: `none` if they do not
end the loop. The bytes are `none` after an error. -/
def readLoop : Nat → List (Event β) → Nat → Option (Option (List β) × List (Event β))
  | _, events, 0 => some (some [], events)
  | 0, _, _ + 1 => none
  | fuel + 1, events, count + 1 =>
      match read events (count + 1) with
      | (.got new, rest) =>
          (readLoop fuel rest (count + 1 - new.length)).map fun r => (r.1.map (new ++ ·), r.2)
      | (.interrupted, rest) => readLoop fuel rest (count + 1)
      | (.failed, rest) => some (none, rest)

/-- No more calls than this meet anything before the end. -/
def weight (events : List (Event β)) : Nat := events.length + (bytes events).length

/-- How a loop can end: with an error, or with the first bytes of the stream. -/
inductive Ended (events : List (Event β)) (count : Nat) :
    Option (List β) × List (Event β) → Prop
  | failed {rest : List (Event β)} (hfailure : .failure ∈ events) : Ended events count (none, rest)
  | complete {rest : List (Event β)} (hcount : count ≤ (bytes events).length)
      (hrest : bytes rest = (bytes events).drop count)
      (hfailure : .failure ∈ rest ↔ .failure ∈ events) (hweight : weight rest ≤ weight events) :
      Ended events count (some ((bytes events).take count), rest)

variable {events rest : List (Event β)} {count fuel : Nat}

@[simp] theorem bytes_nil : bytes ([] : List (Event β)) = [] := rfl

@[simp] theorem bytes_data (first : β) (more : List β) (events : List (Event β)) :
    bytes (.data first more :: events) = first :: more ++ bytes events := rfl

@[simp] theorem bytes_interrupt (events : List (Event β)) :
    bytes (.interrupt :: events) = bytes events := rfl

@[simp] theorem bytes_failure (events : List (Event β)) :
    bytes (.failure :: events) = bytes events := rfl

@[simp] theorem bytes_putBack (left : List β) (events : List (Event β)) :
    bytes (putBack left events) = left ++ bytes events := by
  cases left <;> rfl

@[simp] theorem failure_mem_putBack (left : List β) (events : List (Event β)) :
    .failure ∈ putBack left events ↔ .failure ∈ events := by
  cases left <;> simp [putBack]

/-- A call that gets data makes the stream lighter. -/
theorem weight_putBack (first : β) (more : List β) (events : List (Event β)) (n : Nat) :
    weight (putBack ((first :: more).drop (n + 1)) events) <
      weight (.data first more :: events) := by
  rw [List.drop_succ_cons]
  unfold weight
  rw [bytes_putBack, bytes_data]
  cases hdrop : more.drop n with
  | nil => simp [putBack]; omega
  | cons b left =>
      have hlen : (more.drop n).length = left.length + 1 := by rw [hdrop, List.length_cons]
      rw [List.length_drop] at hlen
      simp [putBack]
      omega

/-- At the end of the stream the loop goes on for ever. -/
theorem readLoop_nil (fuel count : Nat) :
    readLoop fuel ([] : List (Event β)) (count + 1) = none := by
  induction fuel with
  | zero => rfl
  | succ fuel ih =>
      change (readLoop fuel [] (count + 1)).map _ = none
      rw [ih, Option.map_none]

theorem Ended.append {r : Option (List β) × List (Event β)} {new : List β}
    (hbytes : bytes events = new ++ bytes rest) (hnew : new.length ≤ count)
    (hfailure : .failure ∈ rest ↔ .failure ∈ events) (hweight : weight rest ≤ weight events)
    (h : Ended rest (count - new.length) r) :
    Ended events count (r.1.map (new ++ ·), r.2) := by
  cases h with
  | failed h => exact .failed (hfailure.mp h)
  | complete hcount hrest h hle =>
      have htake : (bytes events).take count = new ++ (bytes rest).take (count - new.length) := by
        rw [hbytes, List.take_append, List.take_of_length_le hnew]
      rw [Option.map_some, ← htake]
      refine .complete ?_ ?_ (h.trans hfailure) (Nat.le_trans hle hweight)
      · rw [hbytes, List.length_append]
        omega
      · rw [hrest, hbytes, List.drop_append, List.drop_of_length_le hnew, List.nil_append]

/-- A loop that ends ends as it should. -/
theorem readLoop_ended {r : Option (List β) × List (Event β)}
    (h : readLoop fuel events count = some r) : Ended events count r := by
  induction fuel generalizing events count r with
  | zero =>
      cases count with
      | zero =>
          obtain rfl := Option.some.inj h
          exact .complete (Nat.zero_le _) rfl Iff.rfl (Nat.le_refl _)
      | succ count => cases h
  | succ fuel ih =>
      cases count with
      | zero =>
          obtain rfl := Option.some.inj h
          exact .complete (Nat.zero_le _) rfl Iff.rfl (Nat.le_refl _)
      | succ count =>
          match events, h with
          | [], h =>
              rw [readLoop_nil] at h
              cases h
          | .interrupt :: events, h =>
              cases ih h with
              | failed hfailure => exact .failed (List.mem_cons_of_mem _ hfailure)
              | complete hcount hrest hfailure hweight =>
                  refine .complete hcount hrest (by simp [hfailure]) (Nat.le_trans hweight ?_)
                  rw [weight, weight, List.length_cons, bytes_interrupt]
                  omega
          | .failure :: events, h =>
              obtain rfl := Option.some.inj h
              exact .failed List.mem_cons_self
          | .data first more :: events, h =>
              obtain ⟨r', hr', rfl⟩ := Option.map_eq_some_iff.mp h
              refine Ended.append ?_ ?_ ?_ (Nat.le_of_lt (weight_putBack first more events count)) (ih hr')
              · rw [bytes_putBack, ← List.append_assoc, List.take_append_drop, bytes_data]
              · rw [List.length_take]
                exact Nat.min_le_left _ _
              · simp

/-- A call that gets something, or meets a signal, leaves less of the stream. -/
theorem readLoop_isSome (hfuel : weight events ≤ fuel)
    (h : .failure ∈ events ∨ count ≤ (bytes events).length) :
    (readLoop fuel events count).isSome := by
  induction fuel generalizing events count with
  | zero =>
      obtain rfl : events = [] := by
        unfold weight at hfuel
        exact List.eq_nil_of_length_eq_zero (by omega)
      obtain rfl : count = 0 := by simpa using h
      rfl
  | succ fuel ih =>
      cases count with
      | zero => rfl
      | succ count =>
          match events, hfuel, h with
          | [], _, h => simp at h
          | .interrupt :: events, hfuel, h =>
              refine ih ?_ (by simpa using h)
              rw [weight, List.length_cons, bytes_interrupt] at hfuel
              rw [weight]
              omega
          | .failure :: events, _, _ => rfl
          | .data first more :: events, hfuel, h =>
              rw [readLoop, read, Option.isSome_map]
              apply ih
              · have hlt := weight_putBack first more events count
                omega
              · rw [failure_mem_putBack, bytes_putBack]
                refine h.imp (fun hmem => by simpa using hmem) fun hcount => ?_
                rw [bytes_data] at hcount
                simp only [List.length_append, List.length_cons, List.length_take,
                  List.length_drop] at hcount ⊢
                omega

/-- A loop that has its bytes, on a stream without errors. -/
theorem readLoop_eq (hfuel : weight events ≤ fuel) (hfailure : .failure ∉ events)
    (hcount : count ≤ (bytes events).length) :
    ∃ rest, readLoop fuel events count = some (some ((bytes events).take count), rest) ∧
      bytes rest = (bytes events).drop count ∧ .failure ∉ rest ∧ weight rest ≤ weight events := by
  obtain ⟨r, hr⟩ := Option.isSome_iff_exists.mp (readLoop_isSome hfuel (.inr hcount))
  cases readLoop_ended hr with
  | failed h => exact absurd h hfailure
  | @complete rest _ hrest h hweight => exact ⟨rest, hr, hrest, mt h.mp hfailure, hweight⟩

end NetworkStack.Retry
