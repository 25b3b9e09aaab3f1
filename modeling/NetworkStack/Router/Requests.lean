import NetworkStack.Lib.KeyedList
import NetworkStack.Router.HandlePacket

/-!
# The requests of the ARP cache

The list of requests is a map from addresses to the packets that wait for them. Each
operation changes the request of one address.
-/

namespace NetworkStack.Router

open KeyedList

variable {c : SrArpcache} {ip ip' : Addr} {id : Nat} {f : SrArpreq → SrArpreq}

namespace SrArpcache

/-- No two requests are for the same address, and each has a packet. -/
structure WellFormed (c : SrArpcache) : Prop where
  ids : (c.requests.map SrArpreq.id).Nodup
  created : ∀ req ∈ c.requests, req.id < c.created
  ips : (c.requests.map SrArpreq.ip).Nodup
  packets : ∀ req ∈ c.requests, req.packets ≠ []

def request (c : SrArpcache) (ip : Addr) : Option SrArpreq := c.requests.find? (·.ip = ip)

/-- The packets that wait for an address. -/
def packetsFor (c : SrArpcache) (ip : Addr) : List SrPacket := (c.request ip).elim [] SrArpreq.packets

/-- The update leaves a request what it is, and a packet in it. -/
structure Keeps (f : SrArpreq → SrArpreq) : Prop where
  id : ∀ req, (f req).id = req.id
  ip : ∀ req, (f req).ip = req.ip
  packets : ∀ req, req.packets ≠ [] → (f req).packets ≠ []

/-- The update of one request as an update of all. -/
def pointwise (id : Nat) (f : SrArpreq → SrArpreq) (req : SrArpreq) : SrArpreq :=
  if req.id = id then f req else req

theorem update_requests : (c.update id f).requests = c.requests.map (pointwise id f) := rfl

theorem keeps_pointwise (hf : Keeps f) : Keeps (pointwise id f) where
  id := by
    intro req
    unfold pointwise
    split
    · exact hf.id req
    · rfl
  ip := by
    intro req
    unfold pointwise
    split
    · exact hf.ip req
    · rfl
  packets := by
    intro req hreq
    unfold pointwise
    split
    · exact hf.packets req hreq
    · exact hreq

theorem WellFormed.update (h : c.WellFormed) (hf : Keeps f) : (c.update id f).WellFormed := by
  have hp : Keeps (pointwise id f) := keeps_pointwise hf
  constructor
  · rw [update_requests, map_key_map hp.id]
    exact h.ids
  · intro req hreq
    obtain ⟨old, hold, rfl⟩ := List.mem_map.mp hreq
    change (pointwise id f old).id < _
    rw [hp.id]
    exact h.created old hold
  · rw [update_requests, map_key_map hp.ip]
    exact h.ips
  · intro req hreq
    obtain ⟨old, hold, rfl⟩ := List.mem_map.mp hreq
    exact hp.packets old (h.packets old hold)

theorem request_update (hf : Keeps f) :
    (c.update id f).request ip = (c.request ip).map (pointwise id f) :=
  find_map (keeps_pointwise hf).ip

/-- Through the pointer to the request of one address no other is changed. -/
theorem WellFormed.request_update_ne (h : c.WellFormed) (hf : Keeps f) {req : SrArpreq}
    (hreq : c.request ip = some req) (hne : ip' ≠ ip) :
    (c.update req.id f).request ip' = c.request ip' := by
  rw [request_update hf]
  cases hother : c.request ip' with
  | none => rfl
  | some other =>
      obtain ⟨hmem, hip⟩ := key_of_find hreq
      obtain ⟨hmem', hip'⟩ := key_of_find hother
      have hid : other.id ≠ req.id := by
        intro heq
        have hsame := List.inj_on_of_nodup_map h.ids hmem' hmem heq
        apply hne
        rw [← hip, ← hip', hsame]
      simp [pointwise, hid]

theorem update_self : c.update id (fun req => req) = c := by
  unfold SrArpcache.update
  simp

theorem packetsFor_update (hf : Keeps f) (hp : ∀ req, (f req).packets = req.packets) :
    (c.update id f).packetsFor ip = c.packetsFor ip := by
  unfold packetsFor
  rw [request_update hf]
  cases c.request ip with
  | none => rfl
  | some req =>
      simp only [Option.map_some, Option.elim_some, pointwise]
      split
      · exact hp req
      · rfl

end SrArpcache

open SrArpcache

/-! ## Queueing -/

section Queuereq

variable {packet : List Byte} {iface : IfName}

/-- The packet as `sr_arpcache_queuereq` stores it. -/
def queuedPacket (packet : List Byte) (iface : IfName) : SrPacket where
  buf := packet
  iface := iface.take srIfaceNamelen

/-- A packet is put in front of those of the request. -/
def addPacket (p : SrPacket) (req : SrArpreq) : SrArpreq := { req with packets := p :: req.packets }

theorem keeps_addPacket (p : SrPacket) : Keeps (addPacket p) where
  id _ := rfl
  ip _ := rfl
  packets _ _ := List.cons_ne_nil _ _

theorem srArpcacheQueuereq_old (hp : packet ≠ []) {req : SrArpreq} (h : c.request ip = some req) :
    srArpcacheQueuereq c ip packet iface =
      (c.update req.id (addPacket (queuedPacket packet iface)), req.id) := by
  unfold srArpcacheQueuereq findRequest
  rw [show c.requests.find? (·.ip = ip) = some req from h]
  exact if_neg hp

theorem srArpcacheQueuereq_new (hwf : c.WellFormed) (hp : packet ≠ []) (iface : IfName)
    (h : c.request ip = none) :
    srArpcacheQueuereq c ip packet iface =
      ({ c with
          requests :=
            { id := c.created
              ip := ip
              sent := 0
              timesSent := 0
              packets := [queuedPacket packet iface] } :: c.requests
          created := c.created + 1 }, c.created) := by
  have hold : c.requests.map (pointwise c.created (addPacket (queuedPacket packet iface))) =
      c.requests := by
    conv_rhs => rw [← List.map_id c.requests]
    apply List.map_congr_left
    intro req hreq
    exact if_neg (hwf.created req hreq).ne
  unfold srArpcacheQueuereq findRequest
  rw [show c.requests.find? (·.ip = ip) = none from h]
  simp only [if_neg hp, Prod.mk.injEq, and_true]
  change SrArpcache.mk c.entries (List.map (pointwise c.created
    (addPacket (queuedPacket packet iface))) (_ :: c.requests)) (c.created + 1) = _
  rw [List.map_cons, hold]
  simp [pointwise, addPacket]

theorem entries_srArpcacheQueuereq (c : SrArpcache) (ip : Addr) (packet : List Byte)
    (iface : IfName) :
    (srArpcacheQueuereq c ip packet iface).1.entries = c.entries := by
  have hfind : (findRequest c ip).1.entries = c.entries := by
    unfold findRequest
    split <;> rfl
  unfold srArpcacheQueuereq
  simp only
  split
  · exact hfind
  · exact hfind

/-- Queueing puts the packet in front of those that wait for the address. -/
theorem packetsFor_srArpcacheQueuereq (hwf : c.WellFormed) (hp : packet ≠ []) (iface : IfName)
    (ip ip' : Addr) :
    (srArpcacheQueuereq c ip packet iface).1.packetsFor ip' =
      if ip = ip' then queuedPacket packet iface :: c.packetsFor ip' else c.packetsFor ip' := by
  cases h : c.request ip with
  | some req =>
      rw [srArpcacheQueuereq_old hp h]
      split
      · rename_i heq
        subst heq
        unfold packetsFor
        rw [request_update (keeps_addPacket _), h]
        simp [pointwise, addPacket]
      · rename_i hne
        unfold packetsFor
        rw [hwf.request_update_ne (keeps_addPacket _) h (Ne.symm hne)]
  | none =>
      rw [srArpcacheQueuereq_new hwf hp iface h]
      unfold packetsFor
      split
      · rename_i heq
        subst heq
        rw [h]
        simp [request]
      · rename_i hne
        simp [request, hne]

/-- What holds of every waiting packet and of the new one holds of all that wait then. -/
theorem forall_packetsFor_queuereq {P : Addr → SrPacket → Prop} (hwf : c.WellFormed)
    (hp : packet ≠ []) (h : ∀ ip, ∀ p ∈ c.packetsFor ip, P ip p)
    (hnew : P ip (queuedPacket packet iface)) :
    ∀ ip', ∀ p ∈ (srArpcacheQueuereq c ip packet iface).1.packetsFor ip', P ip' p := by
  intro ip' p hmem
  rw [packetsFor_srArpcacheQueuereq hwf hp] at hmem
  split at hmem
  · rename_i heq
    subst heq
    obtain rfl | hmem := List.mem_cons.mp hmem
    · exact hnew
    · exact h ip p hmem
  · exact h ip' p hmem

theorem SrArpcache.WellFormed.queuereq (hwf : c.WellFormed) (hp : packet ≠ []) :
    (srArpcacheQueuereq c ip packet iface).1.WellFormed := by
  cases h : c.request ip with
  | some req =>
      rw [srArpcacheQueuereq_old hp h]
      exact hwf.update (keeps_addPacket _)
  | none =>
      rw [srArpcacheQueuereq_new hwf hp iface h]
      constructor
      · rw [List.map_cons, List.nodup_cons]
        refine ⟨?_, hwf.ids⟩
        intro hmem
        obtain ⟨req, hreq, hid⟩ := List.mem_map.mp hmem
        exact (hwf.created req hreq).ne hid
      · intro req hreq
        obtain rfl | hreq := List.mem_cons.mp hreq
        · exact Nat.lt_succ_self _
        · exact Nat.lt_succ_of_lt (hwf.created req hreq)
      · rw [List.map_cons, List.nodup_cons]
        refine ⟨?_, hwf.ips⟩
        intro hmem
        obtain ⟨req, hreq, hip⟩ := List.mem_map.mp hmem
        exact find_eq_none.mp h req hreq hip
      · intro req hreq
        obtain rfl | hreq := List.mem_cons.mp hreq
        · exact List.cons_ne_nil _ _
        · exact hwf.packets req hreq

/-- The request that is returned is on the list. -/
theorem exists_srArpcacheQueuereq (hwf : c.WellFormed) (hp : packet ≠ []) (ip : Addr)
    (iface : IfName) :
    ∃ req ∈ (srArpcacheQueuereq c ip packet iface).1.requests,
      req.id = (srArpcacheQueuereq c ip packet iface).2 := by
  cases h : c.request ip with
  | some req =>
      rw [srArpcacheQueuereq_old hp h]
      obtain ⟨hmem, -⟩ := key_of_find h
      refine ⟨_, List.mem_map_of_mem hmem, ?_⟩
      exact (keeps_pointwise (keeps_addPacket _)).id req
  | none =>
      rw [srArpcacheQueuereq_new hwf hp iface h]
      exact ⟨_, List.mem_cons_self, rfl⟩

end Queuereq

/-! ## Replies -/

/-- Taking the request of an address off the list leaves nothing to be removed by
`sr_arpreq_destroy`. -/
theorem SrArpcache.WellFormed.insert_destroy (hwf : c.WellFormed) (mac : Mac) (ip : Addr)
    (now : Int) :
    srArpreqDestroy (srArpcacheInsert c mac ip now).1 (srArpcacheInsert c mac ip now).2 =
      { c with
        entries := insertEntry c.entries mac ip now
        requests := c.requests.filter (·.ip ≠ ip) } := by
  have herase : c.requests.eraseP (·.ip = ip) = c.requests.filter (·.ip ≠ ip) :=
    eraseP_eq_filter hwf.ips
  unfold srArpcacheInsert srArpreqDestroy
  rw [herase]
  cases h : c.requests.find? (·.ip = ip) with
  | none => rfl
  | some req =>
      obtain ⟨hmem, hip⟩ := key_of_find h
      have hgone : (c.requests.filter (·.ip ≠ ip)).eraseP (·.id = req.id) =
          c.requests.filter (·.ip ≠ ip) := by
        apply List.eraseP_of_forall_not
        intro other hother hid
        obtain ⟨hin, hne⟩ := List.mem_filter.mp hother
        have hsame := List.inj_on_of_nodup_map hwf.ids hin hmem (by simpa using hid)
        simp [hsame, hip] at hne
      simp only [hgone]

theorem SrArpcache.WellFormed.filter (hwf : c.WellFormed) (entries : List SrArpentry)
    (p : SrArpreq → Bool) :
    SrArpcache.WellFormed { c with entries := entries, requests := c.requests.filter p } where
  ids := (List.filter_sublist.map _).nodup hwf.ids
  created req hreq := hwf.created req (List.mem_of_mem_filter hreq)
  ips := (List.filter_sublist.map _).nodup hwf.ips
  packets req hreq := hwf.packets req (List.mem_of_mem_filter hreq)

theorem packetsFor_filter (entries : List SrArpentry) (ip' : Addr) :
    SrArpcache.packetsFor { c with entries := entries, requests := c.requests.filter (·.ip ≠ ip) }
      ip' = if ip = ip' then [] else c.packetsFor ip' := by
  unfold packetsFor request
  split
  · rename_i heq
    subst heq
    rw [show (c.requests.filter (·.ip ≠ ip)).find? (·.ip = ip) = none by simp]
    rfl
  · rename_i hne
    rw [show (c.requests.filter (·.ip ≠ ip)).find? (·.ip = ip') = c.requests.find? (·.ip = ip') from
      find_filter_ne hne]

theorem forall_packetsFor_filter {P : Addr → SrPacket → Prop}
    (h : ∀ ip, ∀ p ∈ c.packetsFor ip, P ip p) (entries : List SrArpentry) :
    ∀ ip', ∀ p ∈ SrArpcache.packetsFor
      { c with entries := entries, requests := c.requests.filter (·.ip ≠ ip) } ip', P ip' p := by
  intro ip' p hmem
  rw [packetsFor_filter] at hmem
  split at hmem
  · cases hmem
  · exact h ip' p hmem

/-- The frames depend on the interfaces only. -/
theorem flushLoop_cache (sr : SrInstance) (c : SrArpcache) (mac : Mac) (packets : List SrPacket) :
    flushLoop { sr with cache := c } mac packets = flushLoop sr mac packets := by
  induction packets with
  | nil => rfl
  | cons p rest ih =>
      rw [flushLoop, flushLoop, ih]
      rfl

/-- What an ARP reply does, apart from the frames. -/
theorem handleReply_eq {sr : SrInstance} {packet : List Byte} {sha : Mac} {sip : Addr} {now : Int}
    (hwf : sr.cache.WellFormed) (hsha : Buffer.load48 packet 22 = some sha)
    (hsip : Buffer.load32 packet 28 = some sip) :
    handleReply sr packet now =
      (flushLoop sr sha (sr.cache.packetsFor (Bytes.swap32 sip))).map fun calls =>
        ({ sr with cache := { sr.cache with
            entries := insertEntry sr.cache.entries sha (Bytes.swap32 sip) now
            requests := sr.cache.requests.filter (·.ip ≠ Bytes.swap32 sip) } }, calls) := by
  have hdestroy := hwf.insert_destroy sha (Bytes.swap32 sip) now
  simp only [handleReply, hsha, hsip, Option.bind_eq_bind, Option.bind_some, Option.pure_def,
    flushLoop_cache]
  rw [hdestroy]
  change (flushLoop sr sha (sr.cache.packetsFor (Bytes.swap32 sip))).bind _ = _
  cases flushLoop sr sha (sr.cache.packetsFor (Bytes.swap32 sip)) <;> rfl

/-! ## Resending -/

/-- What `handle_arpreq` does to the cache and sends. -/
theorem handleArpreq_cases {sr t : SrInstance} {now : Int} {calls : List SendCall}
    (h : handleArpreq sr id now = some (t, calls)) :
    ∃ f, Keeps f ∧ (∀ req, (f req).packets = req.packets) ∧
      t = { sr with cache := sr.cache.update id f } ∧ ∀ call ∈ calls, call.origin = .arpRequest := by
  have hsame : ∃ f, Keeps f ∧ (∀ req, (f req).packets = req.packets) ∧
      sr = { sr with cache := sr.cache.update id f } :=
    ⟨fun req => req, ⟨fun _ => rfl, fun _ => rfl, fun _ h => h⟩, fun _ => rfl, by rw [update_self]⟩
  unfold handleArpreq at h
  obtain ⟨req, -, h⟩ := Option.bind_eq_some_iff.mp h
  split at h
  · split at h
    · cases h
      obtain ⟨f, hf, hp, ht⟩ := hsame
      exact ⟨f, hf, hp, ht, nofun⟩
    · obtain ⟨pack, -, h⟩ := Option.bind_eq_some_iff.mp h
      obtain ⟨interf, -, h⟩ := Option.bind_eq_some_iff.mp h
      cases h
      refine ⟨fun req => { req with sent := now, timesSent := req.timesSent + 1 },
        ⟨fun _ => rfl, fun _ => rfl, fun _ h => h⟩, fun _ => rfl, rfl, ?_⟩
      simp
  · cases h
    obtain ⟨f, hf, hp, ht⟩ := hsame
    exact ⟨f, hf, hp, ht, nofun⟩

/-- A request with a packet whose interface is known can be handled. -/
theorem handleArpreq_isSome {sr : SrInstance} {req : SrArpreq} (hwf : sr.cache.WellFormed)
    (hreq : req ∈ sr.cache.requests)
    (hifaces : ∀ p ∈ sr.cache.packetsFor req.ip, (srGetInterface sr p.iface).isSome) (now : Int) :
    (handleArpreq sr req.id now).isSome := by
  have hfind : sr.cache.requests.find? (·.id = req.id) = some req := find_of_mem hwf.ids hreq
  have hrequest : sr.cache.request req.ip = some req := find_of_mem hwf.ips hreq
  obtain ⟨p, rest, hp⟩ := List.exists_cons_of_ne_nil (hwf.packets req hreq)
  have hmem : p ∈ sr.cache.packetsFor req.ip := by
    rw [packetsFor, hrequest, Option.elim_some, hp]
    exact List.mem_cons_self
  obtain ⟨interf, hinterf⟩ := Option.isSome_iff_exists.mp (hifaces p hmem)
  unfold handleArpreq
  simp only [hfind, hp, hinterf, List.head?_cons, Option.bind_eq_bind, Option.bind_some]
  split
  · split <;> rfl
  · rfl

end NetworkStack.Router
