import NetworkStack.Lib.LinkedQueue
import NetworkStack.Lib.Pieces
import NetworkStack.Lib.Transition
import NetworkStack.Stcp.Mysock

/-!
# The packet queues in memory

`_mysock_enqueue_buffer` and `_mysock_dequeue_buffer` on the linked nodes they work on, with
every assertion they make. A node owns a block of memory; a part that was handed out is
shifted out of the block in place, and `data_len` says how much of the block still counts.
The functions refine the list queue that the rest of the development uses.
-/

namespace NetworkStack.Stcp.PacketQueue

open LinkedQueue Transition Pieces

/-- The block `data` points to, and `data_len`. -/
structure NodeData where
  data : List Byte
  dataLen : Nat
  deriving DecidableEq

/-- The bytes of a node that were not handed out yet. -/
def NodeData.contents (d : NodeData) : List Byte := d.data.take d.dataLen

/-- The bytes that count are within the block. -/
def NodeData.Fits (d : NodeData) : Prop := d.dataLen ≤ d.data.length

/-- Why a call does not return: it waits on the condition variable, an assertion fails, or it
uses memory that is not its own. -/
inductive Fault where
  | blocked
  | assertion
  | access
  deriving DecidableEq, Repr

def cassert (b : Bool) : Except Fault Unit := if b then .ok () else .error .assertion

def deref (mem : Heap NodeData) (a : Addr) : Except Fault (Cell NodeData) :=
  match mem a with
  | some cell => .ok cell
  | none => .error .access

/-- `memcpy` of the first `n` bytes of a block. -/
def memcpy (block : List Byte) (n : Nat) : Except Fault (List Byte) :=
  if n ≤ block.length then .ok (block.take n) else .error .access

/-- `memmove` of `n` bytes from offset `i` to the start of the block. -/
def memmove (block : List Byte) (i n : Nat) : Except Fault (List Byte) :=
  if i + n ≤ block.length then .ok ((block.drop i).take n ++ block.drop n) else .error .access

/-- `_mysock_enqueue_buffer`, with the address that `calloc` gave the new node. -/
def mysockEnqueueBuffer (mem : Heap NodeData) (pq : Ends) (node : Addr) (packet : List Byte) :
    Except Fault (Heap NodeData × Ends) := do
  let mem := Function.update mem node (some ⟨⟨packet, packet.length⟩, none⟩)
  match pq.head with
  | none =>
      cassert pq.tail.isNone
      .ok (mem, ⟨some node, some node⟩)
  | some _ =>
      match pq.tail with
      | none => .error .assertion
      | some tail =>
          let last ← deref mem tail
          cassert last.next.isNone
          let new ← deref mem node
          cassert new.next.isNone
          .ok (Function.update mem tail (some { last with next := some node }),
            ⟨pq.head, some node⟩)

/-- `_mysock_dequeue_buffer`: the length it returns, the bytes stored at `dst`, and what it
leaves. -/
def mysockDequeueBuffer (mem : Heap NodeData) (pq : Ends) (maxLen : Nat) (removePartial : Bool) :
    Except Fault (Nat × List Byte × Heap NodeData × Ends) :=
  match pq.head with
  | none => .error .blocked
  | some node => do
      let cell ← deref mem node
      if maxLen < cell.value.dataLen ∧ removePartial = true then
        let dst ← memcpy cell.value.data maxLen
        let data ← memmove cell.value.data maxLen (cell.value.dataLen - maxLen)
        .ok (maxLen, dst,
          Function.update mem node (some ⟨⟨data, cell.value.dataLen - maxLen⟩, cell.next⟩), pq)
      else
        let tail ← match cell.next with
          | some _ => Except.ok pq.tail
          | none => do
              cassert (pq.tail == some node)
              Except.ok none
        let dst ← memcpy cell.value.data (min maxLen cell.value.dataLen)
        .ok (cell.value.dataLen, dst, Function.update mem node none, ⟨cell.next, tail⟩)

/-- The linked nodes hold these buffers, each within its block. -/
def Represents (mem : Heap NodeData) (pq : Ends) (queue : List (List Byte)) : Prop :=
  ∃ cells, IsQueue mem pq cells ∧ (∀ c ∈ cells, c.2.Fits) ∧
    queue = cells.map fun c => c.2.contents

section Refinement

variable {mem : Heap NodeData} {pq : Ends} {queue : List (List Byte)}

theorem contents_whole (packet : List Byte) :
    NodeData.contents ⟨packet, packet.length⟩ = packet := List.take_length

theorem length_contents {d : NodeData} (h : d.Fits) :
    d.contents.length = d.dataLen := by
  rw [NodeData.contents, List.length_take, min_eq_left h]

/-- Copying the first bytes that count. -/
theorem memcpy_eq {d : NodeData} (h : d.Fits) {n : Nat} (hn : n ≤ d.dataLen) :
    memcpy d.data n = .ok (d.contents.take n) := by
  rw [memcpy, if_pos (hn.trans h), NodeData.contents, List.take_take, min_eq_left hn]

/-- The shift leaves the bytes behind those that were copied. -/
theorem memmove_eq {d : NodeData} (h : d.Fits) {n : Nat} (hn : n < d.dataLen) :
    ∃ data, memmove d.data n (d.dataLen - n) = .ok data ∧ NodeData.Fits ⟨data, d.dataLen - n⟩ ∧
      NodeData.contents ⟨data, d.dataLen - n⟩ = d.contents.drop n := by
  unfold NodeData.Fits at h ⊢
  have hlen : ((d.data.drop n).take (d.dataLen - n)).length = d.dataLen - n := by
    simp
    omega
  refine ⟨_, if_pos (by omega), ?_, ?_⟩
  · rw [List.length_append]
    exact Nat.le_add_right_of_le hlen.ge
  · rw [NodeData.contents, List.take_left' hlen, NodeData.contents, List.drop_take]

/-- Enqueueing on the nodes is enqueueing on the list, and no assertion fails. -/
theorem mysockEnqueueBuffer_refines (h : Represents mem pq queue) {node : Addr}
    (hnode : mem node = none) (packet : List Byte) :
    ∃ mem' pq', mysockEnqueueBuffer mem pq node packet = .ok (mem', pq') ∧
      Represents mem' pq' (Stcp.mysockEnqueueBuffer queue packet) := by
  obtain ⟨cells, hq, hdata, rfl⟩ := h
  have hdata' : ∀ c ∈ cells ++ [(node, NodeData.mk packet packet.length)], c.2.Fits := by
    intro c hc
    rcases List.mem_append.mp hc with hc | hc
    · exact hdata c hc
    · obtain rfl := List.mem_singleton.mp hc
      exact le_refl packet.length
  have hcontents : Stcp.mysockEnqueueBuffer (cells.map fun c => c.2.contents) packet =
      (cells ++ [(node, NodeData.mk packet packet.length)]).map fun c => c.2.contents := by
    rw [List.map_append, List.map_singleton, contents_whole]
    rfl
  by_cases hnil : cells = []
  · subst hnil
    have hhead : pq.head = none := hq.head_eq_none_iff.mpr rfl
    have htail : pq.tail = none := hq.tail_eq_none_iff.mpr rfl
    refine ⟨_, _, ?_, _, isQueue_singleton mem node ⟨packet, packet.length⟩, hdata', hcontents⟩
    simp [mysockEnqueueBuffer, hhead, htail, cassert, bind, Except.bind]
  · obtain ⟨a, d, htail, hlast, hmem⟩ := hq.exists_last hnil
    obtain ⟨b, hhead⟩ := Option.ne_none_iff_exists'.mp (mt hq.head_eq_none_iff.mp hnil)
    have hne : a ≠ node := by
      rintro rfl
      rw [hnode] at hmem
      cases hmem
    refine ⟨_, _, ?_, _, hq.push hlast hnode, hdata', hcontents⟩
    simp [mysockEnqueueBuffer, hhead, htail, cassert, deref, hmem, Function.update_of_ne hne, bind,
      Except.bind]

/-- Dequeueing from the nodes is dequeueing from the list, and no assertion fails. -/
theorem mysockDequeueBuffer_refines (h : Represents mem pq queue) (maxLen : Nat)
    (removePartial : Bool) {len : Nat} {dst : List Byte} {queue' : List (List Byte)}
    (hlist : Stcp.mysockDequeueBuffer queue maxLen removePartial = .ok (len, dst, queue')) :
    ∃ mem' pq', mysockDequeueBuffer mem pq maxLen removePartial = .ok (len, dst, mem', pq') ∧
      Represents mem' pq' queue' := by
  obtain ⟨cells, hq, hdata, rfl⟩ := h
  cases cells with
  | nil => cases hlist
  | cons cell rest =>
      obtain ⟨a, d⟩ := cell
      obtain ⟨hhead, next, hmem, -⟩ := hq.links
      rw [List.forall_mem_cons] at hdata
      obtain ⟨hd, hrest⟩ := hdata
      have hlen : d.contents.length = d.dataLen := length_contents hd
      simp only [List.map_cons, Stcp.mysockDequeueBuffer, hlen] at hlist
      by_cases hpart : maxLen < d.dataLen ∧ removePartial = true
      · rw [if_pos hpart] at hlist
        injection hlist with hlist
        injection hlist with hl hlist
        injection hlist with hdst hqueue
        subst hl hdst hqueue
        obtain ⟨data, hmove, hle, hcontents⟩ := memmove_eq hd hpart.1
        have hcopy := memcpy_eq hd (Nat.le_of_lt hpart.1)
        refine ⟨_, _, ?_, _, hq.set_head hmem ⟨data, d.dataLen - maxLen⟩, ?_, ?_⟩
        · simp [mysockDequeueBuffer, hhead, deref, hmem, hpart, hcopy, hmove, bind, Except.bind]
        · exact List.forall_mem_cons.mpr ⟨hle, hrest⟩
        · rw [List.map_cons, hcontents]
      · rw [if_neg hpart] at hlist
        injection hlist with hlist
        injection hlist with hl hlist
        injection hlist with hdst hqueue
        subst hl hdst hqueue
        have hcopy := memcpy_eq hd (min_le_right maxLen d.dataLen)
        cases next with
        | none =>
            obtain ⟨rfl, htail⟩ := hq.eq_singleton hmem
            refine ⟨Function.update mem a none, ⟨none, none⟩, ?_, [], isQueue_nil, hrest, rfl⟩
            simp [mysockDequeueBuffer, hhead, deref, hmem, hpart, hcopy, htail, cassert, bind,
              Except.bind]
        | some b =>
            refine ⟨_, _, ?_, rest, hq.pop hmem, hrest, rfl⟩
            simp [mysockDequeueBuffer, hhead, deref, hmem, hpart, hcopy, bind, Except.bind]

end Refinement

/-- A call made on the queue. The address is that of the node `calloc` returns. -/
inductive Call where
  | enqueue (node : Addr) (packet : List Byte)
  | dequeue (maxLen : Nat)

/-- The queue, what was put in and what came out of it: the length returned and the bytes
stored. -/
structure State where
  mem : Heap NodeData
  pq : Ends
  enqueued : List (List Byte)
  returned : List (Nat × List Byte)
  fault : Option Fault

/-- A queue that was just created, in whatever memory there is. -/
def State.init (mem : Heap NodeData) : State where
  mem := mem
  pq := ⟨none, none⟩
  enqueued := []
  returned := []
  fault := none

/-- `calloc` returns memory that is not in use, and the queue a dequeue finds is not empty. -/
def State.Enabled (s : State) : Call → Prop
  | .enqueue node _ => s.mem node = none
  | .dequeue _ => s.pq.head ≠ none

instance (s : State) (c : Call) : Decidable (s.Enabled c) :=
  match c with
  | .enqueue _ _ => inferInstanceAs (Decidable (_ = _))
  | .dequeue _ => inferInstanceAs (Decidable (_ ≠ _))

/-- What a call leaves. -/
def State.call (s : State) : Call → State
  | .enqueue node packet =>
      match mysockEnqueueBuffer s.mem s.pq node packet with
      | .ok (mem, pq) => { s with mem, pq, enqueued := s.enqueued ++ [packet] }
      | .error fault => { s with fault := some fault }
  | .dequeue maxLen =>
      match mysockDequeueBuffer s.mem s.pq maxLen true with
      | .ok (len, dst, mem, pq) => { s with mem, pq, returned := s.returned ++ [(len, dst)] }
      | .error fault => { s with fault := some fault }

/-- Nothing is called any more once an assertion failed. -/
def State.step (s : State) (c : Call) : Option State :=
  if s.fault = none ∧ s.Enabled c then some (s.call c) else none

/-- The bytes of every piece that was returned. -/
def State.pieces (s : State) : List (List Byte) := s.returned.map Prod.snd

/-- The queue is a linked list, and what it holds and what was returned are what was put in. -/
structure State.Inv (s : State) : Prop where
  fault_eq : s.fault = none
  lengths : ∀ r ∈ s.returned, r.1 = r.2.length
  content : ∃ queue, Represents s.mem s.pq queue ∧ Cut s.enqueued s.pieces queue

theorem inv_init (mem : Heap NodeData) : (State.init mem).Inv :=
  ⟨rfl, by simp [State.init], [], ⟨[], isQueue_nil, by simp, rfl⟩, cut_nil⟩

theorem Represents.head_eq_none {mem : Heap NodeData} {pq : Ends}
    (h : Represents mem pq []) : pq.head = none := by
  obtain ⟨cells, hq, -, hnil⟩ := h
  exact hq.head_eq_none_iff.mpr (List.map_eq_nil_iff.mp hnil.symm)

/-- A part of the first buffer is returned with its length. -/
theorem dequeue_cut {bufs pieces qs : List (List Byte)} {q : List Byte}
    (h : Cut bufs pieces (q :: qs)) (maxLen : Nat) :
    ∃ dst queue, Stcp.mysockDequeueBuffer (q :: qs) maxLen true = .ok (dst.length, dst, queue) ∧
      Cut bufs (pieces ++ [dst]) queue := by
  by_cases hpart : maxLen < q.length
  · refine ⟨q.take maxLen, q.drop maxLen :: qs, ?_, h.take_part hpart⟩
    rw [Stcp.mysockDequeueBuffer, if_pos ⟨hpart, rfl⟩,
      List.length_take_of_le (Nat.le_of_lt hpart)]
  · refine ⟨q, qs, ?_, h.take_all⟩
    rw [Stcp.mysockDequeueBuffer, if_neg (fun h => hpart h.1), List.take_of_length_le (by omega)]

/-- Every call that can be made keeps the invariant. -/
theorem inv_step (s : State) (c : Call) (t : State) (hs : s.Inv) (h : s.step c = some t) :
    t.Inv := by
  obtain ⟨hfault, hlen, queue, hrep, hcut⟩ := hs
  rw [State.step, Option.ite_none_right_eq_some] at h
  obtain ⟨⟨-, henabled⟩, h⟩ := h
  obtain rfl := Option.some.inj h
  cases c with
  | enqueue node packet =>
      obtain ⟨mem', pq', hcall, hrep'⟩ := mysockEnqueueBuffer_refines hrep henabled packet
      rw [State.call, hcall]
      exact ⟨hfault, hlen, _, hrep', hcut.push packet⟩
  | dequeue maxLen =>
      cases queue with
      | nil => exact absurd hrep.head_eq_none henabled
      | cons q qs =>
          obtain ⟨dst, queue', hlist, hcut'⟩ := dequeue_cut hcut maxLen
          obtain ⟨mem', pq', hcall, hrep'⟩ := mysockDequeueBuffer_refines hrep maxLen true hlist
          rw [State.call, hcall]
          refine ⟨hfault, ?_, queue', hrep', ?_⟩
          · intro r hr
            rcases List.mem_append.mp hr with hr | hr
            · exact hlen r hr
            · obtain rfl := List.mem_singleton.mp hr
              rfl
          · rw [State.pieces, List.map_append]
            exact hcut'

theorem inv_exec (mem : Heap NodeData) {calls : List Call} {s : State}
    (h : exec State.step (State.init mem) calls = some s) : s.Inv :=
  exec_keeps inv_step (inv_init mem) h

/-- Whatever is called in whatever order, no assertion fails, the queue is a linked list that
ends at `tail`, the bytes returned and the bytes queued are the bytes enqueued, every piece
is of one buffer, and an empty buffer is returned once and in its place. -/
theorem packetQueue_history (mem : Heap NodeData) {calls : List Call} {s : State}
    (h : exec State.step (State.init mem) calls = some s) :
    s.fault = none ∧ (s.pq.head = none ↔ s.pq.tail = none) ∧
      (∀ r ∈ s.returned, r.1 = r.2.length) ∧
      ∃ cells, IsQueue s.mem s.pq cells ∧
        s.pieces.flatten ++ (cells.map fun c => c.2.contents).flatten = s.enqueued.flatten ∧
        ∃ (groups : List (List (List Byte))) (opened : List (List Byte)),
          s.pieces = groups.flatten ++ opened ∧
          groups.map List.flatten = s.enqueued.take groups.length ∧
          (opened ≠ [] →
            ∃ buf, s.enqueued[groups.length]? = some buf ∧ opened.flatten <+: buf) ∧
          ∀ i < groups.length, s.enqueued[i]? = some [] →
            groups[i]? = some [[]] ∧
              (groups.take i).flatten.flatten = (s.enqueued.take i).flatten := by
  obtain ⟨hfault, hlen, queue, ⟨cells, hq, -, rfl⟩, groups, opened, hgroup⟩ := inv_exec mem h
  have hends : s.pq.head = none ↔ s.pq.tail = none :=
    hq.head_eq_none_iff.trans hq.tail_eq_none_iff.symm
  have hbufs : groups.map List.flatten = s.enqueued.take groups.length := by
    rw [← hgroup.map_flatten_take le_rfl, List.take_length]
  exact ⟨hfault, hends, hlen, cells, hq, hgroup.flatten_append, groups, opened, hgroup.pieces_eq,
    hbufs, hgroup.opened_prefix, fun i hi hbuf => hgroup.empty_buffer hi hbuf⟩

/-- Two bytes, an empty buffer and a byte, of which the first three calls to dequeue take the
two bytes and the fourth the empty buffer. -/
def markerCalls : List Call :=
  [.enqueue 3 [1, 2], .enqueue 1 [], .dequeue 1, .dequeue 0, .enqueue 7 [5], .dequeue 4,
    .dequeue 4]

theorem packetQueue_history_marker :
    ∃ s, exec State.step (State.init fun _ => none) markerCalls = some s ∧
      s.returned = [(1, [1]), (0, []), (1, [2]), (0, [])] ∧ s.fault = none := by
  obtain ⟨s, hs⟩ : ∃ s, exec State.step (State.init fun _ => none) markerCalls = some s := ⟨_, rfl⟩
  refine ⟨s, hs, ?_, (packetQueue_history _ hs).1⟩
  obtain rfl := Option.some.inj hs
  rfl

end NetworkStack.Stcp.PacketQueue
