import NetworkStack.Listen.Listener

/-!
# The backlog stays consistent

Every operation keeps the invariant, so the counter, the slots and the completed
queue agree in every run, no assertion fails, and connections are accepted in the
order in which they completed.
-/

namespace NetworkStack.Listen

open Slots Transition

section Slots

variable {n : Nat} {s : Listener} {i j k id : Nat}

/-- The slot, the descriptor and the context behind an identity. -/
theorem Inv.slot_of_idAt (h : Inv n s) (hid : s.idAt k = some id) :
    ∃ r sd ctx, s.queue.connectionQueue[k]? = some r ∧ SlotOk s.listenSd s.descriptors r ∧
      r.sd = (sd : Nat) ∧ s.descriptors.globalCtx[sd]? = some (some ctx) ∧ ctx.id = id ∧
      ctx.mySd = sd ∧ ctx.listenSd = s.listenSd := by
  obtain ⟨r, hr, hid⟩ := Option.bind_eq_some_iff.mp hid
  obtain rfl | hok := h.slots r (List.mem_of_getElem? hr)
  · simp [invalidConnectRequest, ConnectRequest.occupied] at hid
  · obtain ⟨sd, ctx, hsd, hctx, hlisten⟩ := hok.context
    rw [if_pos hok.occupied, hsd, Int.toNat_natCast, hctx] at hid
    exact ⟨r, sd, ctx, hr, hok, hsd, hctx, by simpa using hid,
      (h.wellFormed.mySd sd ctx hctx).1, hlisten⟩

theorem Inv.idAt_lt (h : Inv n s) (hid : s.idAt k = some id) : id < s.descriptors.created := by
  obtain ⟨r, sd, ctx, -, -, -, hctx, rfl, -⟩ := h.slot_of_idAt hid
  exact (h.wellFormed.mySd sd ctx hctx).2

/-- A connection is in one slot only. -/
theorem Inv.idAt_inj (h : Inv n s) (hi : s.idAt i = some id) (hj : s.idAt j = some id) :
    i = j := by
  obtain ⟨r, sd, ctx, hr, hok, hsd, hctx, hid, -⟩ := h.slot_of_idAt hi
  obtain ⟨r', sd', ctx', hr', hok', hsd', hctx', hid', -⟩ := h.slot_of_idAt hj
  have hsame : sd = sd' :=
    h.wellFormed.ids sd sd' _ _ id hctx hctx' (by simp [hid]) (by simp [hid'])
  exact index_eq_of_sd h.sds hr hr' (ConnectRequest.occupied_iff.mp hok.occupied)
    (by rw [hsd, hsd', hsame])

theorem idAt_invalid (hk : s.queue.connectionQueue[k]? = some invalidConnectRequest) :
    s.idAt k = none := by
  simp [Listener.idAt, hk, invalidConnectRequest, ConnectRequest.occupied]

/-- The table still has the listening mysocket and the contexts of the backlog. -/
def Agree (s : Listener) (d : Descriptors) : Prop :=
  ∀ (sd : Nat) ctx, sd = s.listenSd ∨ s.inBacklog sd → s.descriptors.globalCtx[sd]? = some (some ctx) →
    d.globalCtx[sd]? = some (some ctx)

theorem Agree.slotOk {d : Descriptors} {r : ConnectRequest} (ha : Agree s d)
    (hr : r ∈ s.queue.connectionQueue) (hok : SlotOk s.listenSd s.descriptors r) :
    SlotOk s.listenSd d r := by
  obtain ⟨sd, ctx, hsd, hctx, hlisten⟩ := hok.context
  exact ⟨hok.addrLen, sd, ctx, hsd, ha sd ctx (.inr ⟨r, hr, hsd⟩) hctx, hlisten⟩

theorem Agree.idAt {d : Descriptors} (ha : Agree s d) (h : Inv n s) (k : Nat) :
    ({ s with descriptors := d } : Listener).idAt k = s.idAt k := by
  cases hr : s.queue.connectionQueue[k]? with
  | none => simp [Listener.idAt, hr]
  | some r =>
      obtain rfl | hok := h.slots r (List.mem_of_getElem? hr)
      · rw [idAt_invalid hr, idAt_invalid (s := { s with descriptors := d }) hr]
      · obtain ⟨sd, ctx, hsd, hctx, -⟩ := hok.context
        have hctx' := ha sd ctx (.inr ⟨r, List.mem_of_getElem? hr, hsd⟩) hctx
        simp [Listener.idAt, hr, hok.occupied, hsd, hctx, hctx']

/-- Changes to the table that spare the backlog. -/
theorem Inv.withDescriptors {d : Descriptors} (h : Inv n s) (ha : Agree s d)
    (hwf : d.WellFormed) (hcreated : s.descriptors.created ≤ d.created) :
    Inv n { s with descriptors := d } where
  wellFormed := hwf
  listening := by
    obtain ⟨ctx, hctx⟩ := h.listening
    exact ⟨ctx, ha s.listenSd ctx (.inl rfl) hctx⟩
  maxLen := h.maxLen
  length := h.length
  curLen := h.curLen
  slots := fun r hr => (h.slots r hr).imp_right (ha.slotOk hr)
  sds := h.sds
  addrs := h.addrs
  nodup := h.nodup
  pointing := fun k hk => by
    rw [ha.idAt h]
    exact h.pointing k hk
  order := by
    rw [funext (ha.idAt h)]
    exact h.order
  waiting := fun id => by
    simp only [ha.idAt h]
    exact h.waiting id
  old := fun id hid => ⟨lt_of_lt_of_le (h.old id hid).1 hcreated, (h.old id hid).2⟩
  once := h.once
  failed := h.failed

/-- The connections in the slots after one slot was overwritten. -/
theorem idAt_set {q : ListenQueue} {r : ConnectRequest} (hk : k < s.queue.connectionQueue.length)
    (hq : q.connectionQueue = s.queue.connectionQueue.set k r) (t : Listener)
    (ht : t.queue = q) (hd : t.descriptors = s.descriptors) (j : Nat) :
    t.idAt j = if j = k then
        if r.occupied then (s.descriptors.globalCtx[r.sd.toNat]?).join.map Mysocket.id else none
      else s.idAt j := by
  unfold Listener.idAt
  rw [ht, hq, hd]
  by_cases hjk : j = k
  · subst hjk
    simp [hk]
  · rw [List.getElem?_set_ne (Ne.symm hjk), if_neg hjk]

/-- A free slot is given to a new connection. -/
def Listener.fill (s : Listener) (k sd : Nat) (addr : Sockaddr) (id : Nat) : Listener :=
  { s with
    queue := { s.queue with
      curLen := s.queue.curLen + 1
      connectionQueue := s.queue.connectionQueue.set k ⟨addr, sockaddrLen, sd⟩ }
    incomplete := s.incomplete ++ [id] }

theorem occupied_new (addr : Sockaddr) (len sd : Nat) :
    ConnectRequest.occupied ⟨addr, len, sd⟩ = true :=
  ConnectRequest.occupied_of_sd rfl

/-- A connection whose descriptor is in no slot has not been established yet. -/
theorem Inv.not_incomplete {sd : Nat} {ctx : Mysocket} (h : Inv n s)
    (hctx : s.descriptors.globalCtx[sd]? = some (some ctx)) (hout : ¬s.inBacklog sd) :
    ctx.id ∉ s.incomplete := by
  intro hmem
  obtain ⟨j, hj, -⟩ := (h.waiting ctx.id).mp hmem
  obtain ⟨r, sd', ctx', hr, -, hsd', hctx', hid, -⟩ := h.slot_of_idAt hj
  have hsd : sd' = sd :=
    h.wellFormed.ids sd' sd _ _ ctx.id hctx' hctx (by simp [hid]) (by simp)
  exact hout ⟨r, List.mem_of_getElem? hr, hsd ▸ hsd'⟩

section Fill

variable {sd : Nat} {ctx : Mysocket} {addr : Sockaddr} (h : Inv n s)
  (hfree : s.queue.connectionQueue[k]? = some invalidConnectRequest)
  (hctx : s.descriptors.globalCtx[sd]? = some (some ctx))

include h hfree

theorem Inv.not_mem_completedQueue : k ∉ s.queue.completedQueue := by
  intro hmem
  have hsome := h.pointing k hmem
  rw [idAt_invalid hfree] at hsome
  cases hsome

theorem Inv.curLen_fill (id : Nat) : (s.fill k sd addr id).queue.curLen =
    (s.fill k sd addr id).queue.connectionQueue.countP ConnectRequest.occupied := by
  have hcount := countP_set_add (p := ConnectRequest.occupied) (a := ⟨addr, sockaddrLen, sd⟩) hfree
  rw [if_pos (occupied_new addr sockaddrLen sd), if_neg (by decide), Nat.add_zero] at hcount
  exact (congrArg (· + 1) h.curLen).trans hcount.symm

omit h in
include hctx in
/-- The connections in the slots then. -/
theorem idAt_fill (j : Nat) :
    (s.fill k sd addr ctx.id).idAt j = if j = k then some ctx.id else s.idAt j := by
  have hk : k < s.queue.connectionQueue.length := (List.getElem?_eq_some_iff.mp hfree).1
  rw [idAt_set hk rfl (s.fill k sd addr ctx.id) rfl rfl]
  simp [occupied_new, hctx]

include hctx in
/-- The completed queue does not point to the new slot. -/
theorem Inv.idAt_fill_of_mem {j : Nat} (hj : j ∈ s.queue.completedQueue) :
    (s.fill k sd addr ctx.id).idAt j = s.idAt j := by
  have hjk : j ≠ k := by
    rintro rfl
    exact h.not_mem_completedQueue hfree hj
  rw [idAt_fill hfree hctx, if_neg hjk]

include hctx in
theorem Inv.waiting_fill (id : Nat) : id ∈ (s.fill k sd addr ctx.id).incomplete ↔
    ∃ j, (s.fill k sd addr ctx.id).idAt j = some id ∧ j ∉ s.queue.completedQueue := by
  have hmem : id ∈ (s.fill k sd addr ctx.id).incomplete ↔ id ∈ s.incomplete ∨ id = ctx.id := by
    rw [Listener.fill, List.mem_append, List.mem_singleton]
  simp only [hmem, h.waiting, idAt_fill hfree hctx]
  constructor
  · rintro (⟨j, hj, hnot⟩ | rfl)
    · have hjk : j ≠ k := by
        rintro rfl
        rw [idAt_invalid hfree] at hj
        cases hj
      exact ⟨j, by rw [if_neg hjk, hj], hnot⟩
    · exact ⟨k, by rw [if_pos rfl], h.not_mem_completedQueue hfree⟩
  · rintro ⟨j, hj, hnot⟩
    split at hj
    · exact .inr (Option.some.inj hj).symm
    · exact .inl ⟨j, hj, hnot⟩

include hctx in
/-- A free slot is filled with a connection that is in no slot. -/
theorem Inv.fill (hlisten : ctx.listenSd = s.listenSd) (hout : ¬s.inBacklog sd)
    (haddr : ∀ r ∈ s.queue.connectionQueue, r.peerAddr ≠ addr) (hnew : ctx.id ∉ s.completed) :
    Inv n (s.fill k sd addr ctx.id) where
  wellFormed := h.wellFormed
  listening := h.listening
  maxLen := h.maxLen
  length := by
    rw [Listener.fill, List.length_set]
    exact h.length
  curLen := h.curLen_fill hfree ctx.id
  slots := by
    intro r hr
    obtain ⟨j, hj⟩ := List.mem_iff_getElem?.mp hr
    obtain ⟨-, rfl⟩ | ⟨-, hj⟩ := getElem?_set_cases hj
    · exact .inr ⟨rfl, sd, ctx, rfl, hctx, hlisten⟩
    · exact h.slots r (List.mem_of_getElem? hj)
  sds := by
    apply h.sds.set
    intro x hx r hr hrx
    rw [ConnectRequest.sdKey, if_pos (occupied_new addr sockaddrLen sd)] at hx
    unfold ConnectRequest.sdKey at hrx
    split at hrx
    · exact hout ⟨r, hr, (Option.some.inj hrx).trans (Option.some.inj hx).symm⟩
    · cases hrx
  addrs := by
    apply h.addrs.set
    intro x hx r hr hrx
    rw [ConnectRequest.addrKey, if_pos (occupied_new addr sockaddrLen sd)] at hx
    unfold ConnectRequest.addrKey at hrx
    split at hrx
    · exact haddr r hr ((Option.some.inj hrx).trans (Option.some.inj hx).symm)
    · cases hrx
  nodup := h.nodup
  pointing := by
    intro j hj
    rw [h.idAt_fill_of_mem hfree hctx hj]
    exact h.pointing j hj
  order := by
    have hsame : s.queue.completedQueue.map (s.fill k sd addr ctx.id).idAt =
        s.queue.completedQueue.map s.idAt :=
      List.map_congr_left fun j hj => h.idAt_fill_of_mem hfree hctx hj
    exact h.order.trans (congrArg _ hsame.symm)
  waiting := h.waiting_fill hfree hctx
  old := by
    intro id hid
    obtain ⟨hlt, hwait⟩ := h.old id hid
    refine ⟨hlt, ?_⟩
    rw [Listener.fill, List.mem_append, List.mem_singleton]
    rintro (hmem | rfl)
    · exact hwait hmem
    · exact hnew hid
  once := by
    refine ⟨h.once.1, ?_⟩
    apply List.Nodup.append h.once.2 (List.nodup_singleton _)
    simpa using h.not_incomplete hctx hout
  failed := h.failed

end Fill

/-- A place that is not in use is in no slot. -/
theorem Inv.not_inBacklog {sd : Nat} (h : Inv n s)
    (hnone : s.descriptors.globalCtx[sd]? = some none) : ¬(sd = s.listenSd ∨ s.inBacklog sd) := by
  rintro (rfl | ⟨r, hr, hsd⟩)
  · obtain ⟨ctx, hctx⟩ := h.listening
    simp [hnone] at hctx
  obtain rfl | hok := h.slots r hr
  · simp only [invalidConnectRequest] at hsd
    omega
  · obtain ⟨sd', ctx, hsd', hctx, -⟩ := hok.context
    obtain rfl : sd' = sd := by omega
    simp [hnone] at hctx

theorem Inv.agree_set {sd : Nat} {c : Option Mysocket} {created : Nat}
    (hout : ¬(sd = s.listenSd ∨ s.inBacklog sd)) :
    Agree s { globalCtx := s.descriptors.globalCtx.set sd c, created := created } := by
  intro sd' ctx hin hctx
  have hne : sd ≠ sd' := by
    rintro rfl
    exact hout hin
  rw [List.getElem?_set_ne hne]
  exact hctx

theorem Inv.enqueue (h : Inv n s) (packet : List Byte) (peer : Peer) :
    Inv n (s.enqueue packet peer) := by
  obtain ⟨haccept, hdrop⟩ := h.enqueue_spec packet peer
  by_cases hacc : s.accepts packet peer
  · obtain ⟨k, sd, ctx, he⟩ := haccept hacc
    have hout := h.not_inBacklog he.unused
    have hlt : sd < s.descriptors.globalCtx.length := (List.getElem?_eq_some_iff.mp he.unused).1
    have h' := h.withDescriptors (Inv.agree_set hout)
      (h.wellFormed.set_new he.id he.mySd) (Nat.le_succ _)
    have hnew : ctx.id ∉ s.completed := by
      intro hmem
      exact absurd (h.old ctx.id hmem).1 (by rw [he.id]; exact lt_irrefl _)
    have hfill := h'.fill he.free (by simp [hlt]) he.listenSd (fun hin => hout (.inr hin)) he.fresh hnew
    rw [he.id] at hfill
    rw [he.result]
    exact hfill
  · rw [hdrop hacc]
    exact h

/-- The context of a connection in the backlog is found by its identity. -/
theorem Inv.byId (h : Inv n s) {sd : Nat} {ctx : Mysocket}
    (hctx : s.descriptors.globalCtx[sd]? = some (some ctx)) :
    s.descriptors.byId ctx.id = some ctx := by
  have hmem : ctx ∈ s.descriptors.globalCtx.filterMap fun c => c :=
    List.mem_filterMap.mpr ⟨some ctx, List.mem_of_getElem? hctx, rfl⟩
  cases hfind : s.descriptors.byId ctx.id with
  | none =>
      have hno := List.find?_eq_none.mp hfind ctx hmem
      simp at hno
  | some ctx' =>
      have hid : ctx'.id = ctx.id := by simpa using List.find?_some hfind
      obtain ⟨c, hc, rfl⟩ := List.mem_filterMap.mp (List.mem_of_find?_eq_some hfind)
      obtain ⟨sd', hsd'⟩ := List.mem_iff_getElem?.mp hc
      obtain rfl : sd' = sd := h.wellFormed.ids sd' sd _ _ ctx.id hsd' hctx (by simp [hid]) rfl
      exact Option.some.inj (hsd'.symm.trans hctx)

/-- The slot of a connection is the one with its descriptor. -/
theorem Inv.findIdx_sd (h : Inv n s) {r : ConnectRequest} {sd : Nat}
    (hr : s.queue.connectionQueue[k]? = some r) (hsd : r.sd = (sd : Nat)) :
    s.queue.connectionQueue.findIdx? (fun r => r.sd == (sd : Int)) = some k := by
  cases hfind : s.queue.connectionQueue.findIdx? (fun r => r.sd == (sd : Int)) with
  | none =>
      have hno := List.findIdx?_eq_none_iff.mp hfind r (List.mem_of_getElem? hr)
      simp [hsd] at hno
  | some j =>
      obtain ⟨hlt, heq, -⟩ := List.findIdx?_eq_some_iff_getElem.mp hfind
      have heq : s.queue.connectionQueue[j].sd = sd := by simpa using heq
      rw [index_eq_of_sd h.sds (List.getElem?_eq_getElem hlt) hr (by omega) (heq.trans hsd.symm)]

/-- The announcement of a connection finds its slot. -/
theorem Inv.mysockPassiveConnectionComplete_eq (h : Inv n s) {r : ConnectRequest} {sd : Nat}
    {ctx : Mysocket} (hr : s.queue.connectionQueue[k]? = some r) (hsd : r.sd = (sd : Nat))
    (hctx : s.descriptors.globalCtx[sd]? = some (some ctx)) (hlisten : ctx.listenSd = s.listenSd) :
    mysockPassiveConnectionComplete ctx s.queue s.descriptors =
      .ok { s.queue with completedQueue := s.queue.completedQueue ++ [k] } := by
  have htake : s.queue.connectionQueue.take s.queue.maxLen = s.queue.connectionQueue :=
    List.take_of_length_le (by rw [h.length, h.maxLen])
  obtain ⟨listenCtx, hlistening⟩ := h.listening
  have hget := mysockGetContext_ok h.wellFormed hlistening
  have hnonneg : ¬((s.listenSd : Int) < 0) := not_lt.mpr (Int.natCast_nonneg _)
  have hmy := (h.wellFormed.mySd sd ctx hctx).1
  simp only [mysockPassiveConnectionComplete, hlisten, hnonneg, if_false, hget, bind, Except.bind,
    htake, hmy, h.findIdx_sd hr hsd, pure, Except.pure]

/-- A connection that is announced goes to the end of the completed queue. -/
theorem Inv.complete_eq (h : Inv n s) (hmem : id ∈ s.incomplete) :
    ∃ k, s.idAt k = some id ∧ k ∉ s.queue.completedQueue ∧
      s.complete id = some { s with
        queue := { s.queue with completedQueue := s.queue.completedQueue ++ [k] }
        incomplete := s.incomplete.erase id
        completed := s.completed ++ [id] } := by
  obtain ⟨k, hk, hnot⟩ := (h.waiting id).mp hmem
  obtain ⟨r, sd, ctx, hr, -, hsd, hctx, rfl, -, hlisten⟩ := h.slot_of_idAt hk
  refine ⟨k, hk, hnot, ?_⟩
  rw [Listener.complete, if_pos hmem, h.byId hctx]
  simp only [h.mysockPassiveConnectionComplete_eq hr hsd hctx hlisten]

theorem Inv.complete {t : Listener} (h : Inv n s) (hstep : s.complete id = some t) :
    Inv n t := by
  have hmem : id ∈ s.incomplete := by
    by_contra hnot
    rw [Listener.complete, if_neg hnot] at hstep
    cases hstep
  obtain ⟨k, hk, hnot, heq⟩ := h.complete_eq hmem
  obtain rfl := Option.some.inj (heq.symm.trans hstep)
  have hidAt (j : Nat) : ({ s with
      queue := { s.queue with completedQueue := s.queue.completedQueue ++ [k] }
      incomplete := s.incomplete.erase id
      completed := s.completed ++ [id] } : Listener).idAt j = s.idAt j := rfl
  refine { h with nodup := ?_, pointing := ?_, order := ?_, waiting := ?_, old := ?_, once := ?_ }
  · apply List.Nodup.append h.nodup (List.nodup_singleton _)
    simpa using hnot
  · intro j hj
    rcases List.mem_append.mp hj with hj | hj
    · exact h.pointing j hj
    · obtain rfl := List.mem_singleton.mp hj
      rw [hidAt, hk]
      rfl
  · simp only [List.map_append, h.order, List.map_cons, List.map_nil, hidAt, hk,
      List.append_assoc]
    rfl
  · intro id
    simp only [h.once.2.mem_erase_iff, h.waiting, hidAt, List.mem_append, List.mem_singleton,
      not_or]
    constructor
    · rintro ⟨hne, j, hj, hnotj⟩
      refine ⟨j, hj, hnotj, ?_⟩
      rintro rfl
      exact hne (Option.some.inj (hj.symm.trans hk))
    · rintro ⟨j, hj, hnotj, hjk⟩
      refine ⟨?_, j, hj, hnotj⟩
      rintro rfl
      exact hjk (h.idAt_inj hj hk)
  · intro id hid
    rw [h.once.2.mem_erase_iff]
    rcases List.mem_append.mp hid with hid | hid
    · exact ⟨(h.old id hid).1, fun hm => (h.old id hid).2 hm.2⟩
    · obtain rfl := List.mem_singleton.mp hid
      exact ⟨h.idAt_lt hk, fun hm => hm.1 rfl⟩
  · refine ⟨?_, h.once.2.erase _⟩
    apply List.Nodup.append h.once.1 (List.nodup_singleton _)
    simp only [List.disjoint_singleton]
    exact fun hc => (h.old _ hc).2 hmem

/-- The slot at the head of the completed queue is given back. -/
theorem Inv.free {rest : List Nat} (h : Inv n s) (hq : s.queue.completedQueue = k :: rest)
    (hid : s.idAt k = some id) :
    Inv n { s with
      queue := { s.queue with
        connectionQueue := s.queue.connectionQueue.set k invalidConnectRequest
        completedQueue := rest
        curLen := s.queue.curLen - 1 }
      accepted := s.accepted ++ [id] } := by
  obtain ⟨r, sd, ctx, hr, hok, -⟩ := h.slot_of_idAt hid
  have hk : k < s.queue.connectionQueue.length := (List.getElem?_eq_some_iff.mp hr).1
  have hnodup := h.nodup
  rw [hq, List.nodup_cons] at hnodup
  generalize ht : ({ s with
      queue := { s.queue with
        connectionQueue := s.queue.connectionQueue.set k invalidConnectRequest
        completedQueue := rest
        curLen := s.queue.curLen - 1 }
      accepted := s.accepted ++ [id] } : Listener) = t
  have hidAt (j : Nat) : t.idAt j = if j = k then none else s.idAt j := by
    rw [idAt_set hk rfl t (by rw [← ht]) (by rw [← ht])]
    simp [invalidConnectRequest, ConnectRequest.occupied]
  have hsame : ∀ j ∈ rest, t.idAt j = s.idAt j := by
    intro j hj
    rw [hidAt, if_neg (fun hjk : j = k => hnodup.1 (hjk ▸ hj))]
  subst ht
  refine { h with length := ?_, curLen := ?_, slots := ?_, sds := ?_, addrs := ?_, nodup := hnodup.2, pointing := ?_, order := ?_, waiting := ?_ }
  · simpa using h.length
  · have hcount := countP_set_add (p := ConnectRequest.occupied) (a := invalidConnectRequest) hr
    rw [if_pos hok.occupied, if_neg (by decide), Nat.add_zero, ← h.curLen] at hcount
    exact (Nat.eq_sub_of_add_eq hcount).symm
  · intro r' hr'
    obtain ⟨j, hj⟩ := List.mem_iff_getElem?.mp hr'
    obtain ⟨-, rfl⟩ | ⟨-, hj⟩ := getElem?_set_cases hj
    · exact .inl rfl
    · exact h.slots r' (List.mem_of_getElem? hj)
  · exact h.sds.set_none rfl
  · exact h.addrs.set_none rfl
  · intro j hj
    rw [hsame j hj]
    apply h.pointing
    rw [hq]
    exact List.mem_cons_of_mem _ hj
  · rw [h.order, hq, List.map_cons, hid, List.map_append, List.append_assoc,
      List.map_congr_left hsame]
    rfl
  · intro id'
    rw [h.waiting, hq]
    constructor
    · rintro ⟨j, hj, hnot⟩
      rw [List.mem_cons, not_or] at hnot
      exact ⟨j, by rw [hidAt, if_neg hnot.1, hj], hnot.2⟩
    · rintro ⟨j, hj, hnot⟩
      rw [hidAt] at hj
      split at hj
      · cases hj
      · rename_i hjk
        exact ⟨j, hj, by simp [hjk, hnot]⟩

/-- A dequeue takes the connection at the head of the completed queue. -/
theorem Inv.dequeue_eq {rest : List Nat} (h : Inv n s)
    (hq : s.queue.completedQueue = k :: rest) (hid : s.idAt k = some id) :
    s.dequeue = some { s with
      queue := { s.queue with
        connectionQueue := s.queue.connectionQueue.set k invalidConnectRequest
        completedQueue := rest
        curLen := s.queue.curLen - 1 }
      accepted := s.accepted ++ [id] } := by
  obtain ⟨r, sd, ctx, hr, hok, hsd, hctx, rfl, -⟩ := h.slot_of_idAt hid
  have hpos : s.queue.curLen ≠ 0 := by
    have hcount := h.curLen
    have hpos := List.countP_pos_iff.mpr ⟨r, List.mem_of_getElem? hr, hok.occupied⟩
    omega
  unfold Listener.dequeue mysockDequeueConnection
  rw [hq]
  simp only [hr, hsd, mysockGetContext_ok h.wellFormed hctx, bind, Except.bind, hpos, if_false,
    pure, Except.pure, Option.map_some]

theorem Inv.dequeue {t : Listener} (h : Inv n s) (hstep : s.dequeue = some t) : Inv n t := by
  cases hq : s.queue.completedQueue with
  | nil => simp [Listener.dequeue, mysockDequeueConnection, hq] at hstep
  | cons k rest =>
      obtain ⟨id, hid⟩ := Option.isSome_iff_exists.mp (h.pointing k (by simp [hq]))
      rw [h.dequeue_eq hq hid] at hstep
      obtain rfl := Option.some.inj hstep
      exact h.free hq hid

theorem Inv.step {t : Listener} {op : Op} (h : Inv n s) (hstep : s.step op = some t) :
    Inv n t := by
  unfold Listener.step at hstep
  rw [if_neg (by simp [h.failed])] at hstep
  cases op with
  | enqueue packet peer =>
      obtain rfl := Option.some.inj hstep
      exact h.enqueue packet peer
  | complete id => exact h.complete hstep
  | dequeue => exact h.dequeue hstep
  | mysocket =>
      obtain ⟨⟨sd, d⟩, hnew, rfl⟩ := Option.map_eq_some_iff.mp hstep
      obtain ⟨hunused, -, ctx, hid, hsd, rfl⟩ := mysockNewMysocket_spec hnew
      exact h.withDescriptors (Inv.agree_set (h.not_inBacklog hunused))
        (h.wellFormed.set_new hid hsd) (Nat.le_succ _)
  | close sd =>
      simp only at hstep
      split at hstep
      · cases hstep
      · rename_i hout
        obtain rfl := Option.some.inj hstep
        exact h.withDescriptors (Inv.agree_set hout) (h.wellFormed.set_none sd) le_rfl

end Slots

/-- A listener starts with free slots only. -/
theorem inv_listen {b listenSd : Nat} {d : Descriptors} {ctx : Mysocket} (hd : d.WellFormed)
    (hctx : d.globalCtx[listenSd]? = some (some ctx)) :
    Inv ((b + 1) % 2 ^ 32) (.listen b listenSd d) := by
  have hqueue : (Listener.listen b listenSd d).queue.connectionQueue =
      List.replicate ((b + 1) % 2 ^ 32) invalidConnectRequest := by
    change (if 0 < (b + 1) % 2 ^ 32 then
      [] ++ List.replicate ((b + 1) % 2 ^ 32 - 0) invalidConnectRequest else []) = _
    split
    · rw [List.nil_append, Nat.sub_zero]
    · rename_i hzero
      rw [Nat.eq_zero_of_not_pos hzero, List.replicate_zero]
  have hslot : ∀ r ∈ (Listener.listen b listenSd d).queue.connectionQueue,
      r = invalidConnectRequest := by
    rw [hqueue]
    exact fun r hr => List.eq_of_mem_replicate hr
  have hidAt (k : Nat) : (Listener.listen b listenSd d).idAt k = none := by
    cases hr : (Listener.listen b listenSd d).queue.connectionQueue[k]? with
    | none => simp [Listener.idAt, hr]
    | some r => exact idAt_invalid (by rw [hr, hslot r (List.mem_of_getElem? hr)])
  refine
    { wellFormed := hd
      listening := ⟨ctx, hctx⟩
      maxLen := rfl
      length := by rw [hqueue, List.length_replicate]
      curLen := (List.countP_eq_zero.mpr fun r hr => by rw [hslot r hr]; decide).symm
      slots := fun r hr => .inl (hslot r hr)
      sds := keyed_of_none fun r hr => by rw [hslot r hr]; rfl
      addrs := keyed_of_none fun r hr => by rw [hslot r hr]; rfl
      nodup := List.nodup_nil
      pointing := nofun
      order := rfl
      waiting := fun id => ⟨nofun, fun ⟨k, hk, _⟩ => by rw [hidAt] at hk; cases hk⟩
      old := nofun
      once := ⟨List.nodup_nil, List.nodup_nil⟩
      failed := rfl }

theorem inv_listen_of_lt {b listenSd : Nat} {d : Descriptors} {ctx : Mysocket} (hb : b < 2 ^ 31)
    (hd : d.WellFormed) (hctx : d.globalCtx[listenSd]? = some (some ctx)) :
    Inv (b + 1) (.listen b listenSd d) := by
  rw [← Nat.mod_eq_of_lt (show b + 1 < 2 ^ 32 by omega)]
  exact inv_listen hd hctx

/-- The backlog is consistent and its connections come out in order. -/
structure BacklogOk (b : Nat) (s : Listener) : Prop where
  /-- The counter is the number of occupied slots, and bounded. -/
  curLen : s.queue.curLen = s.queue.connectionQueue.countP fun r => r.sd != -1
  bound : s.queue.curLen ≤ b + 1
  /-- Occupied slots have different descriptors and different peers. -/
  sds : ∀ (i j : Nat) r r', s.queue.connectionQueue[i]? = some r →
    s.queue.connectionQueue[j]? = some r' → r.sd ≠ -1 → r'.sd ≠ -1 → r.sd = r'.sd → i = j
  peers : ∀ (i j : Nat) r r', s.queue.connectionQueue[i]? = some r →
    s.queue.connectionQueue[j]? = some r' → r.sd ≠ -1 → r'.sd ≠ -1 →
    r.peerAddr = r'.peerAddr → i = j
  /-- The completed queue points at different occupied slots. -/
  distinct : s.queue.completedQueue.Nodup
  pointing : ∀ k ∈ s.queue.completedQueue, ∃ r,
    s.queue.connectionQueue[k]? = some r ∧ r.sd ≠ -1
  asserts : s.failed = false
  /-- What was accepted is what completed first, each connection once. -/
  order : s.accepted <+: s.completed
  once : s.completed.Nodup
  /-- The next to be accepted is the next that completed. -/
  next : ∀ id rest, s.completed = s.accepted ++ id :: rest →
    ∃ t, s.step .dequeue = some t ∧ t.accepted = s.accepted ++ [id]

theorem Inv.backlogOk {b : Nat} {s : Listener} (h : Inv (b + 1) s) : BacklogOk b s := by
  have hocc {r : ConnectRequest} (hr : r.sd ≠ -1) : r.occupied = true :=
    ConnectRequest.occupied_iff.mpr hr
  refine
    { curLen := h.curLen
      bound := ?_
      sds := ?_
      peers := ?_
      distinct := h.nodup
      pointing := ?_
      asserts := h.failed
      order := ?_
      once := h.once.1
      next := ?_ }
  · rw [h.curLen, ← h.length]
    exact List.countP_le_length
  · intro i j r r' hi hj hr hr' heq
    exact index_eq_of_sd h.sds hi hj hr heq
  · intro i j r r' hi hj hr hr' heq
    apply h.addrs i j r r' r.peerAddr hi hj
    · simp [ConnectRequest.addrKey, hocc hr]
    · simp [ConnectRequest.addrKey, hocc hr', heq]
  · intro k hk
    obtain ⟨id, hid⟩ := Option.isSome_iff_exists.mp (h.pointing k hk)
    obtain ⟨r, sd, ctx, hr, hok, -⟩ := h.slot_of_idAt hid
    exact ⟨r, hr, ConnectRequest.occupied_iff.mp hok.occupied⟩
  · have hmap : s.accepted.map some <+: s.completed.map some := by
      rw [h.order]
      exact List.prefix_append _ _
    exact (List.prefix_map_iff_of_injective (Option.some_injective _)).mp hmap
  · intro id rest hcompleted
    have horder := h.order
    rw [hcompleted, List.map_append, List.append_cancel_left_eq, List.map_cons] at horder
    cases hq : s.queue.completedQueue with
    | nil => simp [hq] at horder
    | cons k ks =>
        rw [hq, List.map_cons] at horder
        have hid := (List.cons.inj horder).1.symm
        have hstep : s.step .dequeue = s.dequeue := if_neg (by simp [h.failed])
        exact ⟨_, hstep.trans (h.dequeue_eq hq hid), rfl⟩

/-- Every run of a listener keeps its backlog in order. -/
theorem backlogOk_exec {b listenSd : Nat} {d : Descriptors} {ctx : Mysocket} {ops : List Op}
    {t : Listener} (hb : b < 2 ^ 31) (hd : d.WellFormed)
    (hctx : d.globalCtx[listenSd]? = some (some ctx))
    (h : exec Listener.step (.listen b listenSd d) ops = some t) : BacklogOk b t := by
  have hinv : Inv (b + 1) t :=
    exec_keeps (P := Inv (b + 1)) (fun _ _ _ hs hstep => hs.step hstep)
      (inv_listen_of_lt hb hd hctx) h
  exact hinv.backlogOk

/-- A table with no mysockets. -/
def Descriptors.empty : Descriptors where
  globalCtx := List.replicate maxNumConnections none
  created := 0

theorem Descriptors.wellFormed_empty : Descriptors.empty.WellFormed where
  length := List.length_replicate
  mySd := by
    intro k ctx hk
    have hmem := List.eq_of_mem_replicate (List.mem_of_getElem? hk)
    cases hmem
  ids := keyed_of_none fun c hc => by rw [List.eq_of_mem_replicate hc]; rfl

/-- The table of a program that has opened the listening mysocket. -/
def oneMysocket : Descriptors where
  globalCtx := Descriptors.empty.globalCtx.set 0 (some
    { id := 0
      mySd := 0
      listenSd := -1
      peerAddr := none
      networkRecvQueue := []
      transportThreadStarted := false })
  created := 1

/-- A packet that sets up a connection. -/
def synPacket : List Byte := Stcp.STCPHeader.toBytes { thSeq := 0, thAck := 0, thFlags := Stcp.thSYN }

/-- Two peers connect and complete in the other order; the first is accepted. -/
def twoPeers : List Op :=
  [.enqueue synPacket ⟨1000, 1⟩, .enqueue synPacket ⟨2000, 2⟩, .complete 2, .complete 1, .dequeue]

theorem backlogOk_twoPeers :
    ∃ t, exec Listener.step (.listen 1 0 oneMysocket) twoPeers = some t ∧ BacklogOk 1 t := by
  have hsome : (exec Listener.step (.listen 1 0 oneMysocket) twoPeers).isSome = true := by
    decide +kernel
  obtain ⟨t, ht⟩ := Option.isSome_iff_exists.mp hsome
  have hd : oneMysocket.WellFormed := Descriptors.wellFormed_empty.set_new rfl rfl
  exact ⟨t, ht, backlogOk_exec (by decide) hd rfl ht⟩

end NetworkStack.Listen
