import NetworkStack.Lib.Transition
import NetworkStack.Stcp.Mysock

/-!
# Reading from a mysocket

The transport layer passes data up with `stcp_app_send` and marks its end with an empty buffer
in `stcp_fin_received`; `myread` takes a zero from `_mysock_dequeue_buffer` for that mark. A run
is any interleaving of the two sides. The reads that keep the stream whole are those that do
not make a zero out of data, and whose length fits in an `int`.
-/

namespace NetworkStack.Stcp.Myread

open Transition

/-- A `size_t` assigned to an `int`. -/
def intOfSize (n : Nat) : Int := (BitVec.ofNat 32 n).toInt

/-- `myread` on a connected mysocket: the result, the bytes stored in `buf`, the eof flag and
what is left queued. -/
def myread (ctx : MysockContext) (eof : Bool) (bufLen : Nat) :
    Except Halt (Int × List Byte × Bool × MysockContext) :=
  if ctx.closeRequested = true then .error .undefined
  else if eof = true then .ok (0, [], eof, ctx)
  else do
    let (packetLen, buf, queue) ← mysockDequeueBuffer ctx.appSendQueue bufLen true
    let len := intOfSize packetLen
    pure (len, buf, decide (len = 0), { ctx with appSendQueue := queue })

inductive Act where
  | appSend (src : List Byte)
  | finReceived
  | read (bufLen : Nat)
  deriving DecidableEq, Repr

/-- The two sides of a mysocket, with what was passed up and what the reads returned. -/
structure Reader where
  ctx : MysockContext
  eof : Bool
  fin : Bool
  passedUp : List Byte
  returned : List Byte
  deriving DecidableEq, Repr

/-- A connection on which nothing was passed up yet, and that is not being closed. -/
def Reader.init (ctx : MysockContext) : Reader where
  ctx := { ctx with closeRequested := false, appSendQueue := [] }
  eof := false
  fin := false
  passedUp := []
  returned := []

/-- Data is passed up before the FIN, and the FIN once. A read is made if it does not block.
What a read returns are the bytes its result counts. -/
def Reader.step (s : Reader) : Act → Option Reader
  | .appSend src =>
      if s.fin = false ∧ src ≠ [] then
        some { s with ctx := stcpAppSend s.ctx src, passedUp := s.passedUp ++ src }
      else none
  | .finReceived =>
      if s.fin = false then some { s with ctx := stcpFinReceived s.ctx, fin := true } else none
  | .read bufLen =>
      match myread s.ctx s.eof bufLen with
      | .ok (len, buf, eof, ctx) =>
          some { s with ctx := ctx, eof := eof, returned := s.returned ++ buf.take len.toNat }
      | .error _ => none

/-- The reads returned the first bytes that were passed up and the others are queued; the eof
flag is set only after the FIN and with all of them returned, and from then on every read
returns zero. -/
structure Reader.Faithful (s : Reader) : Prop where
  initial : s.returned <+: s.passedUp
  conserved : s.returned ++ s.ctx.appSendQueue.flatten = s.passedUp
  atEof : s.eof = true → s.fin = true ∧ s.returned = s.passedUp
  zero : s.eof = true → ∀ bufLen, ∀ r, myread s.ctx s.eof bufLen = .ok r →
    r = (0, [], true, s.ctx)

/-- A read of nothing finds the mark of the FIN, and a read takes less than `2 ^ 31` bytes. -/
def ReadFits (s : Reader) : Act → Prop
  | .read bufLen => s.eof = false → ∀ node ∈ s.ctx.appSendQueue.head?,
      (bufLen = 0 → node = []) ∧ min bufLen node.length < 2 ^ 31
  | _ => True

/-- Until the eof flag is set, the queue holds data and then, after the FIN, the mark. -/
def Marked (s : Reader) : Prop :=
  s.eof = true ∨ ∃ nodes : List (List Byte), (∀ node ∈ nodes, node ≠ []) ∧
    s.ctx.appSendQueue = nodes ++ if s.fin = true then [[]] else []

theorem intOfSize_of_lt {n : Nat} (h : n < 2 ^ 31) : intOfSize n = n := by
  unfold intOfSize
  rw [BitVec.toInt_eq_toNat_of_lt]
  · rw [BitVec.toNat_ofNat, Nat.mod_eq_of_lt (by omega)]
  · rw [BitVec.toNat_ofNat, Nat.mod_eq_of_lt (by omega)]
    omega

theorem intOfSize_lt (n : Nat) : (intOfSize n).toNat < 2 ^ 31 := by
  have h : 2 * (BitVec.ofNat 32 n).toInt < 2 ^ 32 := BitVec.two_mul_toInt_lt
  unfold intOfSize
  omega

/-- What a read with the eof flag unset does. -/
theorem myread_cons {ctx : MysockContext} {node : List Byte} {next : List (List Byte)}
    (h : ctx.appSendQueue = node :: next) (hclose : ctx.closeRequested = false) (bufLen : Nat) :
    ∃ queue, myread ctx false bufLen = .ok (intOfSize (node.take bufLen).length, node.take bufLen,
        decide (intOfSize (node.take bufLen).length = 0), { ctx with appSendQueue := queue }) ∧
      queue.flatten = node.drop bufLen ++ next.flatten ∧
      queue = if bufLen < node.length then node.drop bufLen :: next else next := by
  by_cases hlt : bufLen < node.length
  · refine ⟨node.drop bufLen :: next, ?_, rfl, (if_pos hlt).symm⟩
    have hmin : min bufLen node.length = bufLen := min_eq_left (Nat.le_of_lt hlt)
    simp [myread, hclose, h, mysockDequeueBuffer, hlt, hmin, bind, Except.bind, pure, Except.pure]
  · have htake : node.take bufLen = node := List.take_of_length_le (by omega)
    have hdrop : node.drop bufLen = [] := List.drop_of_length_le (by omega)
    have hmin : min bufLen node.length = node.length := min_eq_right (by omega)
    refine ⟨next, ?_, by rw [hdrop, List.nil_append], (if_neg hlt).symm⟩
    simp [myread, hclose, h, mysockDequeueBuffer, hlt, hmin, htake, bind, Except.bind, pure,
      Except.pure]

/-- The state a read with the eof flag unset leaves, when `node` is at the head. -/
def Reader.afterRead (s : Reader) (bufLen : Nat) (node : List Byte) (next : List (List Byte)) :
    Reader :=
  let len := intOfSize (node.take bufLen).length
  { s with
    ctx := { s.ctx with
      appSendQueue := if bufLen < node.length then node.drop bufLen :: next else next }
    eof := decide (len = 0)
    returned := s.returned ++ (node.take bufLen).take len.toNat }

/-- All that a step can do. -/
theorem step_cases {s t : Reader} {a : Act} (h : s.step a = some t) :
    (∃ src, a = .appSend src ∧ s.fin = false ∧ src ≠ [] ∧
      t = { s with ctx := stcpAppSend s.ctx src, passedUp := s.passedUp ++ src }) ∨
    (a = .finReceived ∧ s.fin = false ∧
      t = { s with ctx := stcpFinReceived s.ctx, fin := true }) ∨
    (∃ bufLen, a = .read bufLen ∧ s.eof = true ∧ t = s) ∨
    (∃ bufLen node next, a = .read bufLen ∧ s.eof = false ∧
      s.ctx.appSendQueue = node :: next ∧ t = s.afterRead bufLen node next) := by
  cases a with
  | appSend src =>
      rw [Reader.step, Option.ite_none_right_eq_some] at h
      exact .inl ⟨src, rfl, h.1.1, h.1.2, (Option.some.inj h.2).symm⟩
  | finReceived =>
      rw [Reader.step, Option.ite_none_right_eq_some] at h
      exact .inr (.inl ⟨rfl, h.1, (Option.some.inj h.2).symm⟩)
  | read bufLen =>
      right; right
      rw [Reader.step] at h
      by_cases hclose : s.ctx.closeRequested = true
      · simp [myread, hclose] at h
      cases heof : s.eof with
      | true =>
          refine .inl ⟨bufLen, rfl, rfl, ?_⟩
          have ht : t = { s with eof := true } := by simpa [myread, hclose, heof, eq_comm] using h
          rw [ht, ← heof]
      | false =>
          cases hqueue : s.ctx.appSendQueue with
          | nil => simp [myread, hclose, heof, hqueue, mysockDequeueBuffer, bind, Except.bind] at h
          | cons node next =>
              obtain ⟨queue, hread, -, rfl⟩ :=
                myread_cons hqueue (Bool.eq_false_of_not_eq_true hclose) bufLen
              rw [heof, hread] at h
              exact .inr ⟨bufLen, node, next, rfl, rfl, rfl, (Option.some.inj h).symm⟩

/-- What a send passes up is queued behind what there is. -/
theorem appSendQueue_stcpAppSend (ctx : MysockContext) {src : List Byte} (h : src ≠ []) :
    (stcpAppSend ctx src).appSendQueue = ctx.appSendQueue ++ [src] := by
  rw [stcpAppSend, if_pos (List.length_pos_of_ne_nil h)]
  rfl

/-- Every step keeps the mark in its place. -/
theorem marked_step (s : Reader) (a : Act) (t : Reader) (hs : Marked s)
    (h : s.step a = some t) : Marked t := by
  rcases step_cases h with ⟨src, rfl, hfin, hsrc, rfl⟩ | ⟨rfl, hfin, rfl⟩ | ⟨bufLen, rfl, -, rfl⟩ |
    ⟨bufLen, node, next, rfl, heof, hqueue, rfl⟩
  · rcases hs with heof | ⟨nodes, hnodes, hqueue⟩
    · exact .inl heof
    · refine .inr ⟨nodes ++ [src], ?_, ?_⟩
      · intro node hnode
        rcases List.mem_append.mp hnode with hnode | hnode
        · exact hnodes node hnode
        · exact List.mem_singleton.mp hnode ▸ hsrc
      · simp [appSendQueue_stcpAppSend s.ctx hsrc, hqueue, hfin]
  · rcases hs with heof | ⟨nodes, hnodes, hqueue⟩
    · exact .inl heof
    · refine .inr ⟨nodes, hnodes, ?_⟩
      simp [stcpFinReceived, mysockEnqueueBuffer, hqueue, hfin]
  · exact hs
  · rcases hs with heof' | ⟨nodes, hnodes, hqueue'⟩
    · rw [heof] at heof'
      cases heof'
    rw [hqueue] at hqueue'
    cases nodes with
    | nil =>
        -- the head is the mark, and the read that takes it sets the flag
        left
        have hnode : node = [] := by
          rw [List.nil_append] at hqueue'
          split at hqueue'
          · exact (List.cons.inj hqueue').1
          · cases hqueue'
        simp [Reader.afterRead, hnode, intOfSize]
    | cons first rest =>
        obtain ⟨rfl, hnext⟩ := List.cons.inj hqueue'
        rw [List.forall_mem_cons] at hnodes
        right
        by_cases hlt : bufLen < node.length
        · refine ⟨node.drop bufLen :: rest, ?_, ?_⟩
          · refine List.forall_mem_cons.mpr ⟨fun hnil => ?_, hnodes.2⟩
            have hle := List.drop_eq_nil_iff.mp hnil
            omega
          · simp [Reader.afterRead, hlt, hnext]
        · refine ⟨rest, hnodes.2, ?_⟩
          simp [Reader.afterRead, hlt, hnext]

/-- The result counts all the bytes of a piece exactly if the piece is short enough. -/
theorem take_intOfSize_iff (piece : List Byte) :
    piece.take (intOfSize piece.length).toNat = piece ↔ piece.length < 2 ^ 31 := by
  constructor
  · intro h
    have hlen := congrArg List.length h
    rw [List.length_take] at hlen
    have hlt := intOfSize_lt piece.length
    omega
  · intro h
    rw [intOfSize_of_lt h, Int.toNat_natCast, List.take_length]

theorem flatten_afterRead (bufLen : Nat) (node : List Byte) (next : List (List Byte)) :
    (if bufLen < node.length then node.drop bufLen :: next else next).flatten =
      node.drop bufLen ++ next.flatten := by
  split
  · rfl
  · rw [List.drop_of_length_le (by omega), List.nil_append]

theorem zero_of_eof {ctx : MysockContext} (bufLen : Nat) {r : Int × List Byte × Bool × MysockContext}
    (h : myread ctx true bufLen = .ok r) : r = (0, [], true, ctx) := by
  unfold myread at h
  split at h
  · cases h
  · simpa [eq_comm] using h

/-- The prefix and the zeros come with the other two. -/
theorem faithful_iff (s : Reader) : s.Faithful ↔
    s.returned ++ s.ctx.appSendQueue.flatten = s.passedUp ∧
      (s.eof = true → s.fin = true ∧ s.returned = s.passedUp) := by
  constructor
  · intro h
    exact ⟨h.conserved, h.atEof⟩
  · rintro ⟨hcons, heof⟩
    refine ⟨⟨_, hcons⟩, hcons, heof, fun h bufLen r hr => ?_⟩
    rw [h] at hr
    exact zero_of_eof bufLen hr

theorem faithful_init (ctx : MysockContext) : (Reader.init ctx).Faithful := by
  rw [faithful_iff]
  simp [Reader.init]

/-- A read keeps the stream whole exactly if it fits. -/
theorem faithful_afterRead_iff {s : Reader} (hm : Marked s) (hs : s.Faithful)
    (heof : s.eof = false) {bufLen : Nat} {node : List Byte} {next : List (List Byte)}
    (hqueue : s.ctx.appSendQueue = node :: next) :
    (s.afterRead bufLen node next).Faithful ↔
      (bufLen = 0 → node = []) ∧ min bufLen node.length < 2 ^ 31 := by
  have hcons : s.returned ++ (node ++ next.flatten) = s.passedUp := by
    rw [← hs.conserved, hqueue, List.flatten_cons]
  -- the bytes the result does not count are lost
  have hkept : (s.afterRead bufLen node next).returned ++
        (s.afterRead bufLen node next).ctx.appSendQueue.flatten =
          (s.afterRead bufLen node next).passedUp ↔
      (node.take bufLen).length < 2 ^ 31 := by
    have hsplit : s.returned ++ (node.take bufLen ++ (node.drop bufLen ++ next.flatten)) =
        s.passedUp := by
      rw [← List.append_assoc (node.take bufLen), List.take_append_drop, hcons]
    rw [← take_intOfSize_iff]
    simp only [Reader.afterRead, flatten_afterRead, ← hsplit, List.append_assoc,
      List.append_cancel_left_eq, List.append_cancel_right_eq]
  rw [faithful_iff, hkept, List.length_take, and_comm]
  refine and_congr_left fun hlt => ?_
  have hlen : intOfSize (node.take bufLen).length = (node.take bufLen).length :=
    intOfSize_of_lt (by rwa [List.length_take])
  constructor
  · -- an empty read of data would leave the data behind
    rintro h rfl
    obtain ⟨-, hret⟩ := h (by simp [Reader.afterRead, intOfSize])
    have hnil : s.returned = s.passedUp := by simpa [Reader.afterRead] using hret
    rw [← hcons] at hnil
    have hflat := List.self_eq_append_right.mp hnil
    exact (List.append_eq_nil_iff.mp hflat).1
  · -- a zero is the mark, and all the data was returned before it
    intro h hzero
    have hnode : node = [] := by
      have hlen0 : (node.take bufLen).length = 0 := by
        have hz : intOfSize (node.take bufLen).length = 0 := of_decide_eq_true hzero
        omega
      rcases List.take_eq_nil_iff.mp (List.length_eq_zero_iff.mp hlen0) with h0 | hnil
      · exact h h0
      · exact hnil
    subst hnode
    rcases hm with heof' | ⟨nodes, hnodes, hmark⟩
    · rw [heof] at heof'
      cases heof'
    rw [hqueue] at hmark
    cases nodes with
    | cons first rest => exact absurd (List.cons.inj hmark).1.symm (hnodes first (by simp))
    | nil =>
        cases hfin : s.fin with
        | false => simp [hfin] at hmark
        | true =>
            have hnext : next = [] := by simpa [hfin] using hmark
            refine ⟨hfin, ?_⟩
            simpa [Reader.afterRead, hnext] using hcons

/-- One step keeps the stream whole exactly if it is no read or a read that fits. -/
theorem faithful_step_iff (s : Reader) (a : Act) (t : Reader) (hm : Marked s) (hs : s.Faithful)
    (h : s.step a = some t) : t.Faithful ↔ ReadFits s a := by
  rcases step_cases h with ⟨src, rfl, hfin, hsrc, rfl⟩ | ⟨rfl, hfin, rfl⟩ |
    ⟨bufLen, rfl, heof, rfl⟩ | ⟨bufLen, node, next, rfl, heof, hqueue, rfl⟩
  · refine iff_of_true ((faithful_iff _).mpr ⟨?_, fun heof => ?_⟩) trivial
    · simp [appSendQueue_stcpAppSend s.ctx hsrc, ← hs.conserved, List.append_assoc]
    · rw [(hs.atEof heof).1] at hfin
      cases hfin
  · refine iff_of_true ((faithful_iff _).mpr ⟨?_, fun heof => ?_⟩) trivial
    · simp [stcpFinReceived, mysockEnqueueBuffer, ← hs.conserved]
    · rw [(hs.atEof heof).1] at hfin
      cases hfin
  · exact iff_of_true hs fun hnot => by simp [heof] at hnot
  · rw [faithful_afterRead_iff hm hs heof hqueue, ReadFits, hqueue]
    simp [heof]

/-- Once the eof flag is set it stays set, and nothing more is returned. -/
theorem eof_exec {s t : Reader} {acts : List Act} (heof : s.eof = true)
    (h : exec Reader.step s acts = some t) : t.eof = true ∧ t.returned = s.returned := by
  refine exec_keeps (P := fun u => u.eof = true ∧ u.returned = s.returned)
    (fun u a v hu hv => ?_) ⟨heof, rfl⟩ h
  rcases step_cases hv with ⟨src, rfl, -, -, rfl⟩ | ⟨rfl, -, rfl⟩ | ⟨bufLen, rfl, -, rfl⟩ |
    ⟨bufLen, node, next, rfl, hnot, -, rfl⟩
  · exact hu
  · exact hu
  · exact hu
  · rw [hu.1] at hnot
    cases hnot

/-- In every run, the reads return the data that was passed up, in order and whole, and see the
end only at the FIN, exactly if every read with data at the head asks for at least one byte
and takes less than `2 ^ 31`. -/
theorem myread_faithful_iff (ctx : MysockContext) {acts : List Act} {t : Reader}
    (h : exec Reader.step (Reader.init ctx) acts = some t) :
    (Always Reader.step Reader.Faithful (Reader.init ctx) acts ↔
      Guarded Reader.step ReadFits (Reader.init ctx) acts) ∧
    (t.eof = true → ∀ more u, exec Reader.step t more = some u →
      u.eof = true ∧ u.returned = t.returned) := by
  refine ⟨?_, fun heof more u hu => eof_exec heof hu⟩
  exact always_iff_guarded marked_step faithful_step_iff
    (.inr ⟨[], by simp, by simp [Reader.init]⟩) (faithful_init ctx) h

/-- A connection with nothing in its queues. -/
def emptyContext : MysockContext where
  closeRequested := false
  networkRecvQueue := []
  appSendQueue := []
  appRecvQueue := []

instance (s : Reader) (a : Act) : Decidable (ReadFits s a) :=
  match a with
  | .appSend _ => .isTrue trivial
  | .finReceived => .isTrue trivial
  | .read _ => inferInstanceAs (Decidable (_ → _))

def shortReads : List Act :=
  [.appSend [1, 2], .read 1, .appSend [3], .finReceived, .read 5, .read 1, .read 0, .read 7]

theorem myread_faithful_shortReads :
    Always Reader.step Reader.Faithful (Reader.init emptyContext) shortReads := by
  obtain ⟨t, ht⟩ : ∃ t, exec Reader.step (Reader.init emptyContext) shortReads = some t := ⟨_, rfl⟩
  exact (myread_faithful_iff emptyContext ht).1.mpr (by decide)

/-- A read of zero bytes sets the eof flag with a byte still queued, and the next read returns
zero. -/
theorem read_zero_loses_data :
    ∃ t, exec Reader.step (Reader.init emptyContext) [.appSend [1], .read 0, .read 1] = some t ∧
      t.eof = true ∧ t.fin = false ∧ t.returned = [] ∧ t.passedUp = [1] ∧ ¬ t.Faithful := by
  refine ⟨_, rfl, rfl, rfl, rfl, rfl, fun h => ?_⟩
  exact absurd (h.atEof rfl).1 (by decide)

end NetworkStack.Stcp.Myread
