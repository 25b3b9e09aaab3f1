import NetworkStack.Listen.Backlog

/-!
# Listeners with another number of slots

The scans of a listener stop at `max_len`, and so nothing sees free slots that lie
behind it (`pad`). Free slots within it do not matter to the invariant (`grow`). A
call of `_mysock_set_backlog` that leaves room for the connections therefore gives a
listener that keeps the invariant, with free slots behind it.
-/

namespace NetworkStack.Listen

open Slots Transition

/-- The same queue with free slots behind those in use. -/
def ListenQueue.pad (j : Nat) (q : ListenQueue) : ListenQueue :=
  { q with connectionQueue := q.connectionQueue ++ List.replicate j invalidConnectRequest }

def Listener.pad (j : Nat) (s : Listener) : Listener := { s with queue := s.queue.pad j }

/-- The free slots hold no connection. -/
theorem sd_of_mem_replicate {j : Nat} {r : ConnectRequest}
    (h : r ∈ List.replicate j invalidConnectRequest) : r.sd = -1 := by
  rw [List.eq_of_mem_replicate h]
  rfl

section Pad

variable {n j : Nat} {q : ListenQueue} {d : Descriptors} {s : Listener}

@[simp]
theorem ListenQueue.pad_maxLen : (q.pad j).maxLen = q.maxLen := rfl

@[simp]
theorem ListenQueue.pad_curLen : (q.pad j).curLen = q.curLen := rfl

@[simp]
theorem ListenQueue.pad_completedQueue : (q.pad j).completedQueue = q.completedQueue := rfl

@[simp]
theorem Listener.pad_listenSd : (s.pad j).listenSd = s.listenSd := rfl

@[simp]
theorem Listener.pad_queue : (s.pad j).queue = s.queue.pad j := rfl

@[simp]
theorem Listener.pad_descriptors : (s.pad j).descriptors = s.descriptors := rfl

@[simp]
theorem Listener.pad_incomplete : (s.pad j).incomplete = s.incomplete := rfl

@[simp]
theorem Listener.pad_failed : (s.pad j).failed = s.failed := rfl

theorem ListenQueue.take_pad (hlen : q.connectionQueue.length = q.maxLen) :
    (q.pad j).connectionQueue.take (q.pad j).maxLen = q.connectionQueue :=
  List.take_left' hlen

theorem ListenQueue.getElem?_pad {k : Nat} (hk : k < q.connectionQueue.length) :
    (q.pad j).connectionQueue[k]? = q.connectionQueue[k]? :=
  List.getElem?_append_left hk

theorem ListenQueue.set_pad {k : Nat} {r : ConnectRequest} (hk : k < q.connectionQueue.length) :
    (q.pad j).connectionQueue.set k r =
      q.connectionQueue.set k r ++ List.replicate j invalidConnectRequest :=
  List.set_append_left k r hk

/-- The scans of an arriving connection stop at the bound. -/
theorem mysockEnqueueConnection_pad (hlen : q.connectionQueue.length = q.maxLen) (l : Int)
    (packet : List Byte) (addr : Sockaddr) (len : Nat) :
    mysockEnqueueConnection l packet addr len (q.pad j) d =
      (mysockEnqueueConnection l packet addr len q d).map fun r => (r.1, r.2.1.pad j, r.2.2) := by
  have htake : q.connectionQueue.take q.maxLen = q.connectionQueue :=
    List.take_of_length_le hlen.le
  unfold mysockEnqueueConnection
  rw [ListenQueue.take_pad hlen, htake]
  split
  · rfl
  cases isRetransmission addr len q.connectionQueue with
  | error e => rfl
  | ok dup =>
      cases dup with
      | true => rfl
      | false =>
          simp only [bind, Except.bind, Bool.false_eq_true, if_false, ListenQueue.pad_curLen,
            ListenQueue.pad_maxLen]
          by_cases hroom : q.curLen < q.maxLen
          case neg =>
            simp only [hroom, if_false]
            rfl
          simp only [hroom, if_true]
          cases hfind : q.connectionQueue.findIdx? (·.sd < 0) with
          | none => rfl
          | some k =>
              have hk : k < q.connectionQueue.length :=
                (List.findIdx?_eq_some_iff_getElem.mp hfind).1
              simp only [ListenQueue.getElem?_pad hk]
              split
              · rfl
              cases mysockNewMysocket d with
              | none => simp [pure, Except.pure, Except.map, ListenQueue.pad, hk]
              | some r =>
                  simp only [establish, bind, Except.bind]
                  cases mysockGetContext r.2 r.1 with
                  | error e => rfl
                  | ok ctx => simp [pure, Except.pure, Except.map, ListenQueue.pad, hk]

theorem mysockPassiveConnectionComplete_pad (hlen : q.connectionQueue.length = q.maxLen)
    (ctx : Mysocket) :
    mysockPassiveConnectionComplete ctx (q.pad j) d =
      (mysockPassiveConnectionComplete ctx q d).map (·.pad j) := by
  have htake : q.connectionQueue.take q.maxLen = q.connectionQueue :=
    List.take_of_length_le hlen.le
  unfold mysockPassiveConnectionComplete
  rw [ListenQueue.take_pad hlen, htake]
  split
  · rfl
  cases mysockGetContext d ctx.listenSd with
  | error e => rfl
  | ok listenCtx =>
      simp only [bind, Except.bind]
      cases q.connectionQueue.findIdx? fun r => r.sd == (ctx.mySd : Int) <;> rfl

theorem mysockDequeueConnection_pad
    (hpoint : ∀ k ∈ q.completedQueue, k < q.connectionQueue.length) :
    mysockDequeueConnection (q.pad j) d =
      (mysockDequeueConnection q d).map fun r => r.map fun a => (a.1, a.2.pad j) := by
  unfold mysockDequeueConnection
  rw [ListenQueue.pad_completedQueue]
  cases hq : q.completedQueue with
  | nil => rfl
  | cons k rest =>
      have hk := hpoint k (by simp [hq])
      simp only [ListenQueue.getElem?_pad hk, Option.map_some, Option.some.injEq]
      cases q.connectionQueue[k]? with
      | none => rfl
      | some r =>
          simp only [bind, Except.bind]
          cases mysockGetContext d r.sd with
          | error e => rfl
          | ok ctx =>
              simp only [ListenQueue.set_pad hk, ListenQueue.pad_curLen]
              split <;> rfl

theorem Listener.inBacklog_pad (sd : Nat) : (s.pad j).inBacklog sd ↔ s.inBacklog sd := by
  constructor
  · rintro ⟨r, hr, hsd⟩
    rcases List.mem_append.mp hr with hr | hr
    · exact ⟨r, hr, hsd⟩
    · have hneg := sd_of_mem_replicate hr
      omega
  · rintro ⟨r, hr, hsd⟩
    exact ⟨r, List.mem_append_left _ hr, hsd⟩

theorem Inv.lt_of_mem_completedQueue (h : Inv n s) {k : Nat} (hk : k ∈ s.queue.completedQueue) :
    k < s.queue.connectionQueue.length := by
  obtain ⟨id, hid⟩ := Option.isSome_iff_exists.mp (h.pointing k hk)
  obtain ⟨r, sd, ctx, hr, -⟩ := h.slot_of_idAt hid
  exact (List.getElem?_eq_some_iff.mp hr).1

theorem Inv.enqueue_pad (h : Inv n s) (packet : List Byte) (peer : Peer) :
    (s.pad j).enqueue packet peer = (s.enqueue packet peer).pad j := by
  have heq := mysockEnqueueConnection_pad (j := j) (d := s.descriptors)
    (h.length.trans h.maxLen.symm) s.listenSd packet peer.addr sockaddrLen
  simp only [Listener.enqueue, Listener.pad_listenSd, Listener.pad_queue,
    Listener.pad_descriptors, heq]
  cases mysockEnqueueConnection s.listenSd packet peer.addr sockaddrLen s.queue
    s.descriptors <;> rfl

theorem Inv.complete_pad (h : Inv n s) (id : Nat) :
    (s.pad j).complete id = (s.complete id).map (Listener.pad j) := by
  simp only [Listener.complete, Listener.pad_incomplete, Listener.pad_descriptors,
    Listener.pad_queue]
  by_cases hmem : id ∈ s.incomplete
  case neg =>
    simp only [hmem, if_false]
    rfl
  simp only [hmem, if_true]
  cases s.descriptors.byId id with
  | none => rfl
  | some ctx =>
      have heq := mysockPassiveConnectionComplete_pad (j := j) (d := s.descriptors)
        (h.length.trans h.maxLen.symm) ctx
      simp only [heq]
      cases mysockPassiveConnectionComplete ctx s.queue s.descriptors <;> rfl

theorem Inv.dequeue_pad (h : Inv n s) : (s.pad j).dequeue = s.dequeue.map (Listener.pad j) := by
  have heq := mysockDequeueConnection_pad (j := j) (d := s.descriptors) (q := s.queue)
    fun k hk => h.lt_of_mem_completedQueue hk
  rw [Listener.dequeue, Listener.dequeue, Listener.pad_queue, Listener.pad_descriptors, heq,
    Option.map_map, Option.map_map]
  congr 1
  funext r
  cases r <;> rfl

/-- No operation sees the slots behind the bound. -/
theorem Inv.step_pad (h : Inv n s) (op : Op) :
    (s.pad j).step op = (s.step op).map (Listener.pad j) := by
  unfold Listener.step
  rw [Listener.pad_failed, h.failed, if_neg Bool.false_ne_true, if_neg Bool.false_ne_true]
  cases op with
  | enqueue packet peer =>
      simp only [Option.map_some]
      rw [h.enqueue_pad]
  | complete id => exact h.complete_pad id
  | dequeue => exact h.dequeue_pad
  | mysocket =>
      simp only [Listener.pad_descriptors, Option.map_map]
      rfl
  | close sd =>
      simp only [Listener.inBacklog_pad, Listener.pad_listenSd]
      by_cases hin : sd = s.listenSd ∨ s.inBacklog sd <;> simp only [hin, if_true, if_false] <;> rfl

/-- A run does not see them either. -/
theorem Inv.exec_pad (h : Inv n s) (ops : List Op) :
    exec Listener.step (s.pad j) ops = (exec Listener.step s ops).map (Listener.pad j) := by
  induction ops generalizing s with
  | nil => rfl
  | cons op rest ih =>
      rw [exec, exec, h.step_pad]
      cases hstep : s.step op with
      | none => rfl
      | some t => exact ih (h.step hstep)

/-! ## Another number of slots -/

/-- The same listener with more slots, all of them free. -/
def Listener.grow (j : Nat) (s : Listener) : Listener :=
  { s with queue := { s.queue.pad j with maxLen := s.queue.maxLen + j } }

theorem idAt_grow (k : Nat) : (s.grow j).idAt k = s.idAt k := by
  have hget : (s.grow j).queue.connectionQueue[k]? =
      (s.queue.connectionQueue ++ List.replicate j invalidConnectRequest)[k]? := rfl
  by_cases hk : k < s.queue.connectionQueue.length
  · rw [List.getElem?_append_left hk] at hget
    unfold Listener.idAt
    rw [hget]
    rfl
  · have hnone : s.queue.connectionQueue[k]? = none := List.getElem?_eq_none (not_lt.mp hk)
    have hfree : s.idAt k = none := by simp [Listener.idAt, hnone]
    rw [List.getElem?_append_right (not_lt.mp hk), List.getElem?_replicate] at hget
    split at hget
    · rw [hfree, idAt_invalid hget]
    · rw [hfree]
      simp [Listener.idAt, hget]

theorem mem_grow {r : ConnectRequest} : r ∈ (s.grow j).queue.connectionQueue ↔
    r ∈ s.queue.connectionQueue ∨ r ∈ List.replicate j invalidConnectRequest :=
  List.mem_append

theorem keyed_grow_iff {κ : Type} {key : ConnectRequest → Option κ}
    (hkey : key invalidConnectRequest = none) :
    Keyed key (s.grow j).queue.connectionQueue ↔ Keyed key s.queue.connectionQueue :=
  keyed_append_iff fun r hr => by rw [List.eq_of_mem_replicate hr, hkey]

theorem countP_grow : (s.grow j).queue.connectionQueue.countP ConnectRequest.occupied =
    s.queue.connectionQueue.countP ConnectRequest.occupied := by
  have hfree : (List.replicate j invalidConnectRequest).countP ConnectRequest.occupied = 0 :=
    List.countP_eq_zero.mpr fun r hr => by
      rw [List.eq_of_mem_replicate hr]
      decide
  exact (List.countP_append).trans (by rw [hfree, Nat.add_zero])

/-- Free slots at the end do not matter to the invariant. -/
theorem inv_grow_iff : Inv (n + j) (s.grow j) ↔ Inv n s := by
  have hidAt : (s.grow j).idAt = s.idAt := funext idAt_grow
  have hlength : (s.grow j).queue.connectionQueue.length = s.queue.connectionQueue.length + j := by
    simp [Listener.grow, ListenQueue.pad]
  constructor
  · intro h
    exact
      { wellFormed := h.wellFormed
        listening := h.listening
        maxLen := Nat.add_right_cancel h.maxLen
        length := Nat.add_right_cancel (hlength.symm.trans h.length)
        curLen := h.curLen.trans countP_grow
        slots := fun r hr => h.slots r (mem_grow.mpr (.inl hr))
        sds := (keyed_grow_iff rfl).mp h.sds
        addrs := (keyed_grow_iff rfl).mp h.addrs
        nodup := h.nodup
        pointing := fun k hk => hidAt ▸ h.pointing k hk
        order := hidAt ▸ h.order
        waiting := fun id => hidAt ▸ h.waiting id
        old := h.old
        once := h.once
        failed := h.failed }
  · intro h
    exact
      { wellFormed := h.wellFormed
        listening := h.listening
        maxLen := congrArg (· + j) h.maxLen
        length := hlength.trans (congrArg (· + j) h.length)
        curLen := h.curLen.trans countP_grow.symm
        slots := by
          intro r hr
          rcases mem_grow.mp hr with hr | hr
          · exact h.slots r hr
          · exact .inl (List.eq_of_mem_replicate hr)
        sds := (keyed_grow_iff rfl).mpr h.sds
        addrs := (keyed_grow_iff rfl).mpr h.addrs
        nodup := h.nodup
        pointing := fun k hk => hidAt.symm ▸ h.pointing k hk
        order := hidAt.symm ▸ h.order
        waiting := fun id => hidAt.symm ▸ h.waiting id
        old := h.old
        once := h.once
        failed := h.failed }

/-- Slots beyond the bound that hold no connection are free ones. -/
theorem Inv.drop_eq_replicate (h : Inv n s) {m : Nat}
    (hfree : ∀ r ∈ s.queue.connectionQueue.drop m, r.sd = -1) :
    s.queue.connectionQueue.drop m = List.replicate (n - m) invalidConnectRequest := by
  refine List.eq_replicate_iff.mpr ⟨by rw [List.length_drop, h.length], fun r hr => ?_⟩
  obtain hinv | hok := h.slots r (List.mem_of_mem_drop hr)
  · exact hinv
  · obtain ⟨sd, ctx, hsd, -⟩ := hok.context
    have hneg := hfree r hr
    omega

/-- A new bound above the connections gives a listener with that many slots. -/
theorem Inv.exists_setBacklog (h : Inv n s) {backlog : Nat}
    (hfree : ∀ r ∈ (s.queue.pad j).connectionQueue.drop ((backlog + 1) % 2 ^ 32), r.sd = -1) :
    ∃ t i, Inv ((backlog + 1) % 2 ^ 32) t ∧
      { s.pad j with queue := mysockSetBacklog (s.queue.pad j) backlog } = t.pad i := by
  generalize hm : (backlog + 1) % 2 ^ 32 = m at hfree
  obtain rfl := h.maxLen
  have htake := ListenQueue.take_pad (j := j) h.length
  by_cases hgrow : s.queue.maxLen < m
  · have hbound := Nat.add_sub_cancel' hgrow.le
    refine ⟨s.grow (m - s.queue.maxLen), 0, ?_, ?_⟩
    · have hinv := (inv_grow_iff (j := m - s.queue.maxLen)).mpr h
      rwa [hbound] at hinv
    · have hlt : (s.queue.pad j).maxLen < m := hgrow
      simp only [mysockSetBacklog, hm, hlt, if_true, htake]
      simp [Listener.pad, Listener.grow, ListenQueue.pad, hbound]
  · have hbound := Nat.add_sub_cancel' (not_lt.mp hgrow)
    have hdrop : s.queue.connectionQueue.drop m =
        List.replicate (s.queue.maxLen - m) invalidConnectRequest :=
      h.drop_eq_replicate fun r hr => hfree r (by
        rw [ListenQueue.pad, List.drop_append]
        exact List.mem_append_left _ hr)
    generalize ht : ({ s with queue := { s.queue with
      maxLen := m
      connectionQueue := s.queue.connectionQueue.take m } } : Listener) = t
    have hs : t.grow (s.queue.maxLen - m) = s := by
      subst ht
      simp only [Listener.grow, ListenQueue.pad, ← hdrop, List.take_append_drop, hbound]
    refine ⟨t, s.queue.maxLen - m + j, ?_, ?_⟩
    · rw [← inv_grow_iff (j := s.queue.maxLen - m), hs, hbound]
      exact h
    · have hnlt : ¬(s.queue.pad j).maxLen < m := hgrow
      simp only [mysockSetBacklog, hm, hnlt, if_false]
      subst ht
      simp only [Listener.pad, ListenQueue.pad, ← List.replicate_append_replicate, ← hdrop,
        ← List.append_assoc, List.take_append_drop]

end Pad

end NetworkStack.Listen
