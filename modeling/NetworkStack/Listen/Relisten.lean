import NetworkStack.Listen.Resize

/-!
# Specifying the backlog again

A program may call `mylisten` again on a mysocket that is listening. A shorter backlog
leaves the array of slots as it is, so that slots beyond the new bound are out of
reach of every scan; a longer one reallocates the array and clears what lies beyond
the old bound. The completed queue points into the array, and its pointers dangle
once `realloc` has moved it.

A listener that was only given backlogs with room for its connections is one that
keeps the invariant, with free slots behind it that nothing reads (`Held`). From such
a listener on, the connections are kept exactly as long as the calls leave room for
them.
-/

namespace NetworkStack.Listen

open Slots Transition

/-- A call of `_mysock_set_backlog`, and whether `realloc` moves the array in it. -/
structure BacklogCall where
  backlog : Nat
  moves : Bool
  deriving DecidableEq, Repr

def BacklogCall.maxLen (c : BacklogCall) : Nat := (c.backlog + 1) % 2 ^ 32

/-- A listener, and the entries at the head of its completed queue that point into an
array which `realloc` has given back. -/
structure Relistener where
  listener : Listener
  dangling : Nat

inductive RelistenAction where
  | on (op : Op)
  | setBacklog (call : BacklogCall)
  deriving DecidableEq, Repr

namespace Relistener

def setBacklog (s : Relistener) (c : BacklogCall) : Relistener where
  listener := { s.listener with queue := mysockSetBacklog s.listener.queue c.backlog }
  dangling :=
    if c.moves ∧ s.listener.queue.maxLen < c.maxLen then
      s.listener.queue.completedQueue.length
    else s.dangling

def step (s : Relistener) : RelistenAction → Option Relistener
  | .on op =>
      -- The request at the head of the completed queue is read from freed memory.
      if op = .dequeue ∧ 0 < s.dangling ∧ s.listener.failed = false then
        some { s with listener := s.listener.fail }
      else (s.listener.step op).map fun l => { s with listener := l }
  | .setBacklog c => if s.listener.failed then none else some (s.setBacklog c)

/-- A mysocket that starts to listen. -/
def listen (backlog listenSd : Nat) (d : Descriptors) : Relistener where
  listener := .listen backlog listenSd d
  dangling := 0

/-- The announcements of these connections, and then `n` calls of `myaccept`. -/
def acceptAll (ids : List Nat) (n : Nat) : List Op :=
  ids.map .complete ++ List.replicate n .dequeue

/-- The connections of `s` are not lost in `t`. -/
structure Kept (s t : Relistener) : Prop where
  /-- Each request is still there, with its descriptor and its peer. -/
  present : ∀ r ∈ s.listener.queue.connectionQueue, r.sd ≠ -1 →
    ∃ r' ∈ t.listener.queue.connectionQueue, r'.sd = r.sd ∧ r'.peerAddr = r.peerAddr
  /-- It is found when its connection is announced. -/
  found : ∀ r ∈ s.listener.queue.connectionQueue, r.sd ≠ -1 →
    ∃ ctx q, mysockGetContext s.listener.descriptors r.sd = .ok ctx ∧
      mysockPassiveConnectionComplete ctx t.listener.queue t.listener.descriptors = .ok q
  /-- Those that were announced are accepted, and so are the others once they are
  announced, in whichever order. -/
  delivered : ∀ ids : List Nat, ids.Perm s.listener.incomplete →
    ∃ u, exec step t ((acceptAll ids
        (s.listener.queue.completedQueue.length + ids.length)).map .on) = some u ∧
      u.listener.failed = false ∧ u.listener.accepted = s.listener.completed ++ ids

/-- The slots beyond the new bound are free, and the array does not move away from
under the completed queue. -/
def Careful (s : Relistener) (c : BacklogCall) : Prop :=
  (∀ r ∈ s.listener.queue.connectionQueue.drop c.maxLen, r.sd = -1) ∧
    (c.moves = true → s.listener.queue.maxLen < c.maxLen →
      s.listener.queue.completedQueue = [])

instance (s : Relistener) (c : BacklogCall) : Decidable (s.Careful c) := by
  unfold Careful
  infer_instance

/-- The calls of a run that specify the backlog are careful. -/
def Allowed (s : Relistener) : RelistenAction → Prop
  | .on _ => True
  | .setBacklog c => s.Careful c

instance (s : Relistener) : (a : RelistenAction) → Decidable (s.Allowed a)
  | .on _ => .isTrue trivial
  | .setBacklog c => inferInstanceAs (Decidable (s.Careful c))

end Relistener

/-! ## Everything is accepted in the end -/

section Accept

variable {n : Nat} {s : Listener}

theorem Inv.step_eq (h : Inv n s) :
    (∀ id, s.step (.complete id) = s.complete id) ∧ s.step .dequeue = s.dequeue := by
  simp [Listener.step, h.failed]

/-- The connections that were not announced yet are announced, in some order. -/
theorem Inv.exec_complete (h : Inv n s) {ids : List Nat} (hids : ids.Perm s.incomplete) :
    ∃ t, exec Listener.step s (ids.map .complete) = some t ∧ Inv n t ∧
      t.completed = s.completed ++ ids ∧
      t.queue.completedQueue.length = s.queue.completedQueue.length + ids.length := by
  induction ids generalizing s with
  | nil => exact ⟨s, rfl, h, (List.append_nil _).symm, rfl⟩
  | cons id rest ih =>
      obtain ⟨hmem, hrest⟩ := List.cons_perm_iff_perm_erase.mp hids
      obtain ⟨k, -, -, heq⟩ := h.complete_eq hmem
      obtain ⟨t, ht, hinv, hcompleted, hlen⟩ := ih (h.complete heq) hrest
      refine ⟨t, exec_cons.mpr ⟨_, (h.step_eq.1 id).trans heq, ht⟩, hinv, ?_, ?_⟩
      · rw [hcompleted, List.append_assoc]
        rfl
      · rw [hlen, List.length_append, List.length_singleton, List.length_cons]
        omega

/-- All connections that were announced are accepted. -/
theorem Inv.exec_dequeue (h : Inv n s) :
    ∃ t, exec Listener.step s (List.replicate s.queue.completedQueue.length .dequeue) = some t ∧
      Inv n t ∧ t.accepted = s.completed := by
  induction hq : s.queue.completedQueue generalizing s with
  | nil =>
      refine ⟨s, rfl, h, ?_⟩
      have horder := h.order
      rw [hq, List.map_nil, List.append_nil] at horder
      exact (List.map_injective_iff.mpr (Option.some_injective _) horder).symm
  | cons k rest ih =>
      obtain ⟨id, hid⟩ := Option.isSome_iff_exists.mp (h.pointing k (by simp [hq]))
      obtain ⟨t, ht, hinv, haccepted⟩ := ih (h.free hq hid) rfl
      exact ⟨t, exec_cons.mpr ⟨_, h.step_eq.2.trans (h.dequeue_eq hq hid), ht⟩, hinv, haccepted⟩

theorem Inv.exec_acceptAll (h : Inv n s) {ids : List Nat} (hids : ids.Perm s.incomplete) :
    ∃ t, exec Listener.step s (Relistener.acceptAll ids
        (s.queue.completedQueue.length + ids.length)) = some t ∧
      t.failed = false ∧ t.accepted = s.completed ++ ids := by
  obtain ⟨u, hu, hinv, hcompleted, hlen⟩ := h.exec_complete hids
  obtain ⟨t, ht, hinv', haccepted⟩ := hinv.exec_dequeue
  refine ⟨t, ?_, hinv'.failed, haccepted.trans hcompleted⟩
  rw [Relistener.acceptAll, exec_append, hu, Option.bind_some, ← hlen]
  exact ht

end Accept

/-! ## Listeners with room for their connections -/

/-- The listener keeps the invariant, with free slots behind the bound, and its
completed queue points into the array. -/
def Relistener.Held (s : Relistener) : Prop :=
  s.dangling = 0 ∧ ∃ l j, Inv l.queue.maxLen l ∧ s.listener = l.pad j

namespace Relistener

variable {s t : Relistener} {c : BacklogCall}

theorem held_listen {b listenSd : Nat} {d : Descriptors} {ctx : Mysocket} (hd : d.WellFormed)
    (hctx : d.globalCtx[listenSd]? = some (some ctx)) : (listen b listenSd d).Held := by
  refine ⟨rfl, .listen b listenSd d, 0, inv_listen hd hctx, ?_⟩
  simp [listen, Listener.pad, ListenQueue.pad]

theorem Held.setBacklog (h : s.Held) (hc : s.Careful c) : (s.setBacklog c).Held := by
  obtain ⟨hdangling, l, j, hinv, hl⟩ := h
  obtain ⟨hfree, hmoves⟩ := hc
  rw [hl] at hfree
  obtain ⟨l', i, hinv', heq⟩ := hinv.exists_setBacklog hfree
  refine ⟨?_, l', i, ?_, ?_⟩
  · unfold Relistener.setBacklog
    simp only
    split
    · rename_i hmove
      rw [hmoves hmove.1 hmove.2, List.length_nil]
    · exact hdangling
  · rw [hinv'.maxLen]
    exact hinv'
  · rw [← heq, Relistener.setBacklog, hl]
    rfl

/-- Without dangling pointers the operations are those of the listener. -/
theorem step_on (h : s.dangling = 0) (op : Op) :
    s.step (.on op) = (s.listener.step op).map fun l => { s with listener := l } := by
  simp [step, h]

theorem Held.step {a : RelistenAction} (h : s.Held) (ha : s.Allowed a)
    (hstep : s.step a = some t) : t.Held := by
  cases a with
  | setBacklog c =>
      simp only [Relistener.step] at hstep
      split at hstep
      · cases hstep
      · obtain rfl := Option.some.inj hstep
        exact h.setBacklog ha
  | on op =>
      obtain ⟨hdangling, l, j, hinv, hl⟩ := h
      rw [step_on hdangling, hl, hinv.step_pad, Option.map_map] at hstep
      obtain ⟨l', hl', rfl⟩ := Option.map_eq_some_iff.mp hstep
      have hinv' := hinv.step hl'
      refine ⟨hdangling, l', j, ?_, rfl⟩
      rw [hinv'.maxLen]
      exact hinv'

/-- Every run with careful calls. -/
theorem held_exec {b listenSd : Nat} {d : Descriptors} {ctx : Mysocket}
    {acts : List RelistenAction} (hd : d.WellFormed)
    (hctx : d.globalCtx[listenSd]? = some (some ctx))
    (hcareful : Guarded Relistener.step Allowed (listen b listenSd d) acts)
    (h : exec Relistener.step (listen b listenSd d) acts = some s) : s.Held :=
  exec_invariant (fun _ _ _ hs ha hstep => hs.step ha hstep) (held_listen hd hctx) hcareful h

theorem exec_on (h : s.dangling = 0) (ops : List Op) :
    exec Relistener.step s (ops.map .on) =
      (exec Listener.step s.listener ops).map fun l => { s with listener := l } := by
  induction ops generalizing s with
  | nil => rfl
  | cons op rest ih =>
      rw [List.map_cons, exec, exec, step_on h]
      cases s.listener.step op with
      | none => rfl
      | some l => exact ih h

/-- The connections of such a listener are there to be found and delivered. -/
theorem Held.kept (h : s.Held) : Kept s s := by
  obtain ⟨hdangling, l, j, hinv, hl⟩ := h
  refine ⟨fun r hr _ => ⟨r, hr, rfl, rfl⟩, ?_, ?_⟩
  · intro r hr hsd
    rw [hl] at hr ⊢
    rcases List.mem_append.mp hr with hr | hr
    · obtain rfl | hok := hinv.slots r hr
      · exact absurd rfl hsd
      · obtain ⟨sd, ctx, hrsd, hctx, hlisten⟩ := hok.context
        obtain ⟨k, hk⟩ := List.mem_iff_getElem?.mp hr
        have hfound := hinv.mysockPassiveConnectionComplete_eq hk hrsd hctx hlisten
        refine ⟨ctx, ListenQueue.pad j { l.queue with
          completedQueue := l.queue.completedQueue ++ [k] }, ?_, ?_⟩
        · rw [hrsd]
          exact mysockGetContext_ok hinv.wellFormed hctx
        · rw [Listener.pad_queue, Listener.pad_descriptors,
            mysockPassiveConnectionComplete_pad hinv.length, hfound]
          rfl
    · exact absurd (sd_of_mem_replicate hr) hsd
  · intro ids hids
    rw [hl] at hids
    obtain ⟨u, hu, hfailed, haccepted⟩ := hinv.exec_acceptAll hids
    refine ⟨{ s with listener := u.pad j }, ?_, hfailed, ?_⟩
    · rw [exec_on hdangling, hl, hinv.exec_pad]
      exact congrArg _ (congrArg _ hu)
    · rw [hl]
      exact haccepted

/-! ## What a careless call loses -/

@[simp]
theorem maxLen_setBacklog : (s.setBacklog c).listener.queue.maxLen = c.maxLen := rfl

theorem connectionQueue_setBacklog : (s.setBacklog c).listener.queue.connectionQueue =
    if s.listener.queue.maxLen < c.maxLen then
      s.listener.queue.connectionQueue.take s.listener.queue.maxLen ++
        List.replicate (c.maxLen - s.listener.queue.maxLen) invalidConnectRequest
    else s.listener.queue.connectionQueue := rfl

theorem Held.hidden (h : s.Held) {r : ConnectRequest}
    (hr : r ∈ s.listener.queue.connectionQueue.drop s.listener.queue.maxLen) : r.sd = -1 := by
  obtain ⟨-, l, j, hinv, hl⟩ := h
  rw [hl] at hr
  have hdrop : (l.queue.pad j).connectionQueue.drop (l.queue.pad j).maxLen =
      List.replicate j invalidConnectRequest := List.drop_left' hinv.length
  have hmem : r ∈ List.replicate j invalidConnectRequest := by
    rw [← hdrop]
    exact hr
  exact sd_of_mem_replicate hmem

/-- One call leaves the connections in the array. -/
theorem Held.mem_setBacklog_iff (h : s.Held) {r : ConnectRequest} (hsd : r.sd ≠ -1) :
    r ∈ (s.setBacklog c).listener.queue.connectionQueue ↔
      r ∈ s.listener.queue.connectionQueue := by
  rw [connectionQueue_setBacklog]
  split
  · constructor
    · intro hr
      rcases List.mem_append.mp hr with hr | hr
      · exact List.mem_of_mem_take hr
      · exact absurd (sd_of_mem_replicate hr) hsd
    · intro hr
      rw [← List.take_append_drop s.listener.queue.maxLen s.listener.queue.connectionQueue] at hr
      rcases List.mem_append.mp hr with hr | hr
      · exact List.mem_append_left _ hr
      · exact absurd (h.hidden hr) hsd
  · rfl

theorem Held.kept_setBacklog_iff (h : s.Held) : Kept (s.setBacklog c) t ↔ Kept s t := by
  constructor
  · rintro ⟨hpresent, hfound, hdelivered⟩
    exact ⟨fun r hr hsd => hpresent r ((h.mem_setBacklog_iff hsd).mpr hr) hsd,
      fun r hr hsd => hfound r ((h.mem_setBacklog_iff hsd).mpr hr) hsd, hdelivered⟩
  · rintro ⟨hpresent, hfound, hdelivered⟩
    exact ⟨fun r hr hsd => hpresent r ((h.mem_setBacklog_iff hsd).mp hr) hsd,
      fun r hr hsd => hfound r ((h.mem_setBacklog_iff hsd).mp hr) hsd, hdelivered⟩

/-- No slot within the bound has the descriptor. -/
def Unseen (s : Relistener) (sd : Int) : Prop :=
  ∀ r ∈ s.listener.queue.connectionQueue.take s.listener.queue.maxLen, r.sd ≠ sd

/-- A descriptor that is out of reach stays so: a growth clears its slot. -/
theorem Unseen.setBacklog {sd : Int} (h : s.Unseen sd) (hsd : sd ≠ -1) (c : BacklogCall) :
    (s.setBacklog c).Unseen sd := by
  intro r hr
  rw [connectionQueue_setBacklog, maxLen_setBacklog] at hr
  split at hr
  · rcases List.mem_append.mp (List.mem_of_mem_take hr) with hr | hr
    · exact h r hr
    · rw [sd_of_mem_replicate hr]
      exact hsd.symm
  · rename_i hle
    exact h r ((List.take_subset_take_left _ (not_lt.mp hle)) hr)

theorem mySd_of_mysockGetContext {d : Descriptors} {sd : Int} {ctx : Mysocket}
    (h : mysockGetContext d sd = .ok ctx) : (ctx.mySd : Int) = sd := by
  unfold mysockGetContext at h
  split at h
  · split at h
    · split at h
      · rename_i hmy
        obtain rfl := Except.ok.inj h
        exact hmy
      · cases h
    · cases h
  · cases h

theorem Unseen.not_kept {r : ConnectRequest} (h : t.Unseen r.sd)
    (hr : r ∈ s.listener.queue.connectionQueue) (hsd : r.sd ≠ -1) : ¬Kept s t := by
  intro hkept
  obtain ⟨ctx, q, hctx, hfound⟩ := hkept.found r hr hsd
  have hmy := mySd_of_mysockGetContext hctx
  have hnone : (t.listener.queue.connectionQueue.take t.listener.queue.maxLen).findIdx?
      (fun r => r.sd == (ctx.mySd : Int)) = none :=
    List.findIdx?_eq_none_iff.mpr fun r' hr' => by simpa [hmy] using h r' hr'
  unfold mysockPassiveConnectionComplete at hfound
  rw [hnone] at hfound
  split at hfound
  · cases hfound
  · cases hget : mysockGetContext t.listener.descriptors ctx.listenSd with
    | error e => simp [hget, bind, Except.bind] at hfound
    | ok listenCtx => simp [hget, bind, Except.bind] at hfound

/-- A bound below a connection hides it. -/
theorem Held.unseen_setBacklog (h : s.Held) {r : ConnectRequest}
    (hr : r ∈ s.listener.queue.connectionQueue.drop c.maxLen) (hsd : r.sd ≠ -1) :
    (s.setBacklog c).Unseen r.sd := by
  obtain ⟨i, hi⟩ := List.mem_iff_getElem?.mp hr
  rw [List.getElem?_drop] at hi
  have hle : ¬s.listener.queue.maxLen < c.maxLen := by
    intro hlt
    apply hsd
    apply h.hidden
    exact List.mem_iff_getElem?.mpr ⟨c.maxLen - s.listener.queue.maxLen + i, by
      rw [List.getElem?_drop, ← hi]
      congr 1
      omega⟩
  intro r' hr' heq
  rw [connectionQueue_setBacklog, maxLen_setBacklog, if_neg hle] at hr'
  obtain ⟨k, hk⟩ := List.mem_iff_getElem?.mp hr'
  rw [List.getElem?_take] at hk
  split at hk
  · rename_i hlt
    obtain ⟨-, l, j, hinv, hl⟩ := h
    rw [hl] at hi hk
    have hsds : Keyed ConnectRequest.sdKey (l.pad j).queue.connectionQueue :=
      (keyed_grow_iff rfl).mpr hinv.sds
    have hindex := index_eq_of_sd hsds hi hk hsd heq.symm
    omega
  · cases hk

/-- A completed queue that points into freed memory. -/
def Dangles (s : Relistener) : Prop :=
  0 < s.dangling ∧ s.listener.queue.completedQueue ≠ []

theorem Dangles.setBacklog (h : s.Dangles) (c : BacklogCall) : (s.setBacklog c).Dangles := by
  refine ⟨?_, h.2⟩
  unfold Relistener.setBacklog
  simp only
  split
  · exact List.length_pos_iff.mpr h.2
  · exact h.1

/-- A call that moves the array under the completed queue. -/
theorem dangles_setBacklog (hmoves : c.moves = true)
    (hgrow : s.listener.queue.maxLen < c.maxLen)
    (hq : s.listener.queue.completedQueue ≠ []) : (s.setBacklog c).Dangles := by
  refine ⟨?_, hq⟩
  unfold setBacklog
  rw [if_pos ⟨hmoves, hgrow⟩]
  exact List.length_pos_iff.mpr hq

/-- The announcements leave the pointers as they are. -/
theorem dangling_exec_complete {ids : List Nat}
    (h : exec Relistener.step s (ids.map fun id => .on (.complete id)) = some t) :
    t.dangling = s.dangling := by
  induction ids generalizing s with
  | nil => rw [Option.some.inj h]
  | cons id rest ih =>
      obtain ⟨u, hu, hrest⟩ := exec_cons.mp h
      simp only [step, reduceCtorEq, false_and, if_false] at hu
      obtain ⟨l, -, rfl⟩ := Option.map_eq_some_iff.mp hu
      have hsame := ih hrest
      exact hsame

/-- Accepting a connection through a dangling pointer fails. -/
theorem failed_exec_dequeue {n : Nat} (hn : 0 < n) (h : 0 < s.dangling)
    (he : exec Relistener.step s (List.replicate n (.on .dequeue)) = some t) :
    t.listener.failed = true := by
  obtain ⟨m, rfl⟩ := Nat.exists_eq_succ_of_ne_zero hn.ne'
  obtain ⟨u, hu, hrest⟩ := exec_cons.mp he
  simp only [step, h, true_and] at hu
  split at hu
  · obtain rfl := Option.some.inj hu
    cases m with
    | zero =>
        obtain rfl := Option.some.inj hrest
        rfl
    | succ m =>
        obtain ⟨v, hv, -⟩ := exec_cons.mp hrest
        simp [step, Listener.step, Listener.fail] at hv
  · rename_i hfailed
    simp [Listener.step, hfailed] at hu

theorem not_kept_of_dangling (h : 0 < t.dangling)
    (hq : s.listener.queue.completedQueue ≠ []) : ¬Kept s t := by
  intro hkept
  obtain ⟨u, hu, hfailed, -⟩ := hkept.delivered s.listener.incomplete (List.Perm.refl _)
  rw [acceptAll, List.map_append, exec_append, List.map_map, List.map_replicate] at hu
  obtain ⟨v, hv, hrest⟩ := Option.bind_eq_some_iff.mp hu
  have hpos : 0 < s.listener.queue.completedQueue.length + s.listener.incomplete.length :=
    Nat.add_pos_left (List.length_pos_iff.mpr hq) _
  have hdangling : 0 < v.dangling := by
    rw [dangling_exec_complete hv]
    exact h
  rw [failed_exec_dequeue hpos hdangling hrest] at hfailed
  cases hfailed

/-- What every call keeps, all of them keep. -/
theorem foldl_setBacklog {P : Relistener → Prop}
    (hstep : ∀ s c, P s → P (s.setBacklog c)) (hs : P s) (calls : List BacklogCall) :
    P (calls.foldl setBacklog s) := by
  induction calls generalizing s with
  | nil => exact hs
  | cons c rest ih => exact ih (hstep s c hs)

/-- After a careless call a connection is lost for good. -/
theorem Held.not_kept (h : s.Held) (hc : ¬s.Careful c) (calls : List BacklogCall) :
    ¬Kept s (calls.foldl Relistener.setBacklog (s.setBacklog c)) := by
  rw [Careful, not_and_or] at hc
  rcases hc with hfree | hmoves
  · push Not at hfree
    obtain ⟨r, hr, hsd⟩ := hfree
    have hunseen := foldl_setBacklog (P := fun s => s.Unseen r.sd)
      (fun _ c hs => hs.setBacklog hsd c) (h.unseen_setBacklog hr hsd) calls
    exact hunseen.not_kept (List.mem_of_mem_drop hr) hsd
  · push Not at hmoves
    obtain ⟨hmove, hgrow, hq⟩ := hmoves
    have hdangles := foldl_setBacklog (P := Dangles) (fun _ c hs => hs.setBacklog c)
      (dangles_setBacklog hmove hgrow hq) calls
    exact not_kept_of_dangling hdangles.1 hq

/-- From a listener with room for its connections. -/
theorem Held.kept_iff (h : s.Held) (calls : List BacklogCall) :
    Kept s (calls.foldl Relistener.setBacklog s) ↔
      Guarded (fun s c => some (s.setBacklog c)) Careful s calls := by
  induction calls generalizing s with
  | nil => exact ⟨fun _ => trivial, fun _ => h.kept⟩
  | cons c rest ih =>
      rw [List.foldl_cons, Guarded]
      by_cases hc : s.Careful c
      · rw [← h.kept_setBacklog_iff (c := c), ih (h.setBacklog hc)]
        simp [hc]
      · exact iff_of_false (h.not_kept hc rest) fun hguard => hc hguard.1

/-- In every run with careful calls, further calls keep the connections exactly if
they are careful too. -/
theorem kept_iff_careful {b listenSd : Nat} {d : Descriptors} {ctx : Mysocket}
    {acts : List RelistenAction} (hd : d.WellFormed)
    (hctx : d.globalCtx[listenSd]? = some (some ctx))
    (hcareful : Guarded Relistener.step Allowed (listen b listenSd d) acts)
    (h : exec Relistener.step (listen b listenSd d) acts = some s) (calls : List BacklogCall) :
    Kept s (calls.foldl setBacklog s) ↔
      Guarded (fun s c => some (s.setBacklog c)) Careful s calls :=
  (held_exec hd hctx hcareful h).kept_iff calls

/-- A longer backlog before the second connection; the first one is announced. -/
def longerBacklog : List RelistenAction :=
  [.on (.enqueue synPacket ⟨1000, 1⟩), .setBacklog ⟨3, true⟩, .on (.enqueue synPacket ⟨2000, 2⟩),
    .on (.complete 1)]

theorem kept_longerBacklog :
    ∃ s, exec Relistener.step (listen 0 0 oneMysocket) longerBacklog = some s ∧
      Kept s ([⟨1, false⟩, ⟨5, false⟩].foldl setBacklog s) := by
  have hd : oneMysocket.WellFormed := Descriptors.wellFormed_empty.set_new rfl rfl
  have hcareful : Guarded Relistener.step Allowed (listen 0 0 oneMysocket) longerBacklog := by
    decide +kernel
  have hrun : (exec Relistener.step (listen 0 0 oneMysocket) longerBacklog).any (fun s =>
      decide (Guarded (fun s c => some (s.setBacklog c)) Careful s
        [⟨1, false⟩, ⟨5, false⟩])) = true := by decide +kernel
  obtain ⟨s, hs, hcalls⟩ := (Option.any_eq_true _ _).mp hrun
  exact ⟨s, hs, (kept_iff_careful hd rfl hcareful hs _).mpr (of_decide_eq_true hcalls)⟩

instance (s : Relistener) (sd : Int) : Decidable (s.Unseen sd) := by
  unfold Unseen
  infer_instance

/-- Two connections are pending, and the backlog is shortened to one: the announcement
of the second no longer finds it. -/
theorem not_kept_shorterBacklog :
    ∃ s, exec Relistener.step (listen 1 0 oneMysocket)
        [.on (.enqueue synPacket ⟨1000, 1⟩), .on (.enqueue synPacket ⟨2000, 2⟩)] = some s ∧
      ¬Kept s ([⟨0, false⟩].foldl setBacklog s) := by
  have hrun : (exec Relistener.step (listen 1 0 oneMysocket)
      [.on (.enqueue synPacket ⟨1000, 1⟩), .on (.enqueue synPacket ⟨2000, 2⟩)]).any (fun s =>
      decide (∃ r ∈ s.listener.queue.connectionQueue, r.sd ≠ -1 ∧
        (s.setBacklog ⟨0, false⟩).Unseen r.sd)) = true := by decide +kernel
  obtain ⟨s, hs, hunseen⟩ := (Option.any_eq_true _ _).mp hrun
  obtain ⟨r, hr, hsd, hr'⟩ := of_decide_eq_true hunseen
  exact ⟨s, hs, hr'.not_kept hr hsd⟩

end Relistener

end NetworkStack.Listen
