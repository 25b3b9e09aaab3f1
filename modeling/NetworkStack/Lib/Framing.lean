import Mathlib.Data.List.Basic

/-!
# Taking messages off a stream

A receiver looks at the bytes it has: a message is at their front, or more bytes have to
come, or it fails. It takes messages as long as there are some, and looks again when the
next chunk has come. As long as a chunk does not change what the bytes before it are
taken for, how the stream is cut into chunks makes no difference.
-/

namespace NetworkStack.Framing

variable {β μ : Type*}

/-- What a receiver finds at the front of its bytes. -/
inductive Scan (β μ : Type*) where
  | wait
  | frame (msg : μ) (rest : List β)
  | fail
  deriving DecidableEq, Repr

/-- The messages at the front, and the bytes behind them. A message takes at least one byte, so the
number of bytes is enough fuel. -/
def drainLoop (scan : List β → Scan β μ) : Nat → List β → Option (List μ × List β)
  | 0, buf => some ([], buf)
  | fuel + 1, buf =>
      match scan buf with
      | .wait => some ([], buf)
      | .frame msg rest => (drainLoop scan fuel rest).map fun r => (msg :: r.1, r.2)
      | .fail => none

def drain (scan : List β → Scan β μ) (buf : List β) : Option (List μ × List β) :=
  drainLoop scan buf.length buf

/-- All the chunks in turn, with the bytes that were left before. -/
def feed (scan : List β → Scan β μ) : List β → List (List β) → Option (List μ × List β)
  | buf, [] => some ([], buf)
  | buf, chunk :: rest => do
      let (msgs, buf) ← drain scan (buf ++ chunk)
      let (more, buf) ← feed scan buf rest
      return (msgs ++ more, buf)

/-- The same with more bytes behind. -/
def Scan.append : Scan β μ → List β → Scan β μ
  | .wait, _ => .wait
  | .frame msg rest, more => .frame msg (rest ++ more)
  | .fail, _ => .fail

/-- What the receiver has found stays when more bytes come. -/
structure Stable (scan : List β → Scan β μ) : Prop where
  nil : scan [] = .wait
  shrinks : ∀ buf msg rest, scan buf = .frame msg rest → rest.length < buf.length
  more : ∀ buf more, scan buf ≠ .wait → scan (buf ++ more) = (scan buf).append more

variable {scan : List β → Scan β μ} {buf more rest : List β} {msg : μ}

theorem drain_wait (h : scan buf = .wait) : drain scan buf = some ([], buf) := by
  unfold drain
  cases buf with
  | nil => rfl
  | cons b bytes => rw [List.length_cons, drainLoop, h]

namespace Stable

variable (hs : Stable scan)

include hs

theorem frame (h : scan buf = .frame msg rest) (more : List β) :
    scan (buf ++ more) = .frame msg (rest ++ more) := by
  rw [hs.more buf more (by rw [h]; nofun), h]
  rfl

theorem fail (h : scan buf = .fail) (more : List β) : scan (buf ++ more) = .fail := by
  rw [hs.more buf more (by rw [h]; nofun), h]
  rfl

/-- Enough fuel is as good as any more of it. -/
theorem drainLoop_congr {fuel fuel' : Nat} (h : buf.length ≤ fuel) (h' : buf.length ≤ fuel') :
    drainLoop scan fuel buf = drainLoop scan fuel' buf := by
  induction fuel generalizing fuel' buf with
  | zero =>
      obtain rfl := List.eq_nil_of_length_eq_zero (Nat.le_zero.mp h)
      cases fuel' with
      | zero => rfl
      | succ fuel' => rw [drainLoop, drainLoop, hs.nil]
  | succ fuel ih =>
      cases fuel' with
      | zero =>
          obtain rfl := List.eq_nil_of_length_eq_zero (Nat.le_zero.mp h')
          rw [drainLoop, drainLoop, hs.nil]
      | succ fuel' =>
          rw [drainLoop, drainLoop]
          cases hscan : scan buf with
          | wait => rfl
          | fail => rfl
          | frame msg rest =>
              have hrest := hs.shrinks buf msg rest hscan
              have heq : drainLoop scan fuel rest = drainLoop scan fuel' rest :=
                ih (by omega) (by omega)
              simp only [heq]

theorem drain_frame (h : scan buf = .frame msg rest) :
    drain scan buf = (drain scan rest).map fun r => (msg :: r.1, r.2) := by
  have hrest := hs.shrinks buf msg rest h
  obtain ⟨n, hn⟩ := Nat.exists_eq_add_of_lt hrest
  have heq : drainLoop scan (rest.length + n) rest = drain scan rest :=
    hs.drainLoop_congr (Nat.le_add_right rest.length n) (Nat.le_refl _)
  rw [drain, hn, drainLoop, h]
  simp only [heq]

theorem drain_fail (h : scan buf = .fail) : drain scan buf = none := by
  unfold drain
  cases buf with
  | nil =>
      rw [hs.nil] at h
      cases h
  | cons b bytes => rw [List.length_cons, drainLoop, h]

/-- What is left has no message in front. -/
theorem wait_of_drain {msgs : List μ} (h : drain scan buf = some (msgs, rest)) :
    scan rest = .wait := by
  induction hn : buf.length using Nat.strongRecOn generalizing buf msgs with
  | ind n ih =>
      cases hscan : scan buf with
      | wait =>
          rw [drain_wait hscan] at h
          obtain ⟨-, rfl⟩ := Prod.mk.inj (Option.some.inj h)
          exact hscan
      | fail =>
          rw [hs.drain_fail hscan] at h
          cases h
      | frame msg tail =>
          rw [hs.drain_frame hscan] at h
          obtain ⟨⟨msgs', rest'⟩, hdrain, heq⟩ := Option.map_eq_some_iff.mp h
          obtain ⟨-, rfl⟩ := Prod.mk.inj heq
          have htail := hs.shrinks buf msg tail hscan
          exact ih tail.length (by omega) hdrain rfl

/-- Draining some bytes and then, with what is left, some more. -/
theorem drain_append (buf more : List β) :
    drain scan (buf ++ more) = (drain scan buf).bind fun r =>
      (drain scan (r.2 ++ more)).map fun r' => (r.1 ++ r'.1, r'.2) := by
  induction hn : buf.length using Nat.strongRecOn generalizing buf with
  | ind n ih =>
      cases hscan : scan buf with
      | wait =>
          rw [drain_wait hscan, Option.bind_some]
          cases drain scan (buf ++ more) <;> rfl
      | fail => rw [hs.drain_fail hscan, hs.drain_fail (hs.fail hscan more), Option.bind_none]
      | frame msg tail =>
          have htail := hs.shrinks buf msg tail hscan
          rw [hs.drain_frame hscan, hs.drain_frame (hs.frame hscan more),
            ih tail.length (by omega) tail rfl]
          cases drain scan tail with
          | none => rfl
          | some r => cases h : drain scan (r.2 ++ more) <;> simp [h]

/-- The chunks one by one are as good as all at once. -/
theorem feed_eq_drain (chunks : List (List β)) (h : scan buf = .wait) :
    feed scan buf chunks = drain scan (buf ++ chunks.flatten) := by
  induction chunks generalizing buf with
  | nil => rw [feed, List.flatten_nil, List.append_nil, drain_wait h]
  | cons chunk rest ih =>
      rw [feed, List.flatten_cons, ← List.append_assoc, hs.drain_append (buf ++ chunk)]
      cases hdrain : drain scan (buf ++ chunk) with
      | none => rfl
      | some r =>
          obtain ⟨msgs, left⟩ := r
          simp only [Option.bind_eq_bind, Option.bind_some, ih (hs.wait_of_drain hdrain)]
          cases drain scan (left ++ rest.flatten) <;> rfl

theorem drain_flatten {msgs : List μ} {encodings : List (List β)}
    (h : List.Forall₂ (fun msg bytes => ∀ rest, scan (bytes ++ rest) = .frame msg rest)
      msgs encodings) :
    drain scan encodings.flatten = some (msgs, []) := by
  induction h with
  | nil => exact drain_wait hs.nil
  | cons hmsg _ ih =>
      rw [List.flatten_cons, hs.drain_frame (hmsg _), ih]
      rfl

/-- Messages that are found where they are encoded all arrive, however the stream is cut. -/
theorem feed_flatten {msgs : List μ} {encodings chunks : List (List β)}
    (h : List.Forall₂ (fun msg bytes => ∀ rest, scan (bytes ++ rest) = .frame msg rest)
      msgs encodings)
    (hchunks : chunks.flatten = encodings.flatten) :
    feed scan [] chunks = some (msgs, []) := by
  rw [hs.feed_eq_drain chunks hs.nil, List.nil_append, hchunks, hs.drain_flatten h]

end Stable

end NetworkStack.Framing
