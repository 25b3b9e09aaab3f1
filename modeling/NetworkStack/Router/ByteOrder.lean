import NetworkStack.Router.NextHop

/-!
# Which next hops are resolved

The router keeps its promises to a next hop exactly if the routes to it have its address
as their destination and the address is the same in both byte orders. For any other one
there is a run of one or two frames that breaks them.
-/

namespace NetworkStack.Router

open Bytes Buffer Transition SrArpcache

namespace RouterRun

variable {ifList : List SrIf} {routingTable : List SrRt} {nextHop : SrRt → Addr} {x : Addr}
  {frame : List Byte} {r : SrRt} {s t : RouterRun}

/-- The cache has no valid mapping. -/
def Blank (s : RouterRun) : Prop := ∀ e ∈ s.sr.cache.entries, e.valid = false

theorem blank_start : (start ifList routingTable).Blank := by
  intro e he
  rw [List.eq_of_mem_replicate he]

theorem Blank.not_maps (h : s.Blank) {e : SrArpentry} {ip : Addr} (he : e ∈ s.sr.cache.entries) :
    ¬e.Maps ip :=
  fun hmaps => Bool.noConfusion ((h e he).symm.trans hmaps.1)

theorem Blank.consistent (h : s.Blank) (a : RouterAction) : Consistent x s a := by
  cases a with
  | handlepacket frame interface env => exact fun _ _ _ e he hmaps => absurd hmaps (h.not_maps he)
  | expire curtime => trivial
  | handleArpreq id now => trivial

theorem Blank.lookup (h : s.Blank) (ip : Addr) : srArpcacheLookup s.sr.cache ip = none := by
  by_contra hsome
  obtain ⟨e, he⟩ := Option.ne_none_iff_exists'.mp hsome
  obtain hnone | ⟨hmem, hmaps⟩ := lookupLoop_mem he
  · cases hnone
  · exact h.not_maps hmem hmaps

/-- An ARP reply that announces this mapping. -/
def announce (sip : Addr) (sha : Mac) : RouterAction :=
  .handlepacket (arpReplyFrame sha sip 0 0) [] ⟨0, 0, 0⟩

/-- The mapping is recorded and the packets that wait for it are sent. -/
theorem step_announce {s : RouterRun} {calls : List SendCall} (hwf : s.sr.cache.WellFormed)
    (sip : Addr) (sha : Mac)
    (hcalls : flushLoop s.sr sha (s.sr.cache.packetsFor (swap32 sip)) = some calls) :
    s.step (announce sip sha) = some
      { sr := { s.sr with cache := { s.sr.cache with
          entries := insertEntry s.sr.cache.entries sha (swap32 sip) 0
          requests := s.sr.cache.requests.filter (·.ip ≠ swap32 sip) } }
        learned := (sip, sha) :: s.learned
        sent := s.sent ++ calls.filter (srSendPacket s.sr) } := by
  have hframe := announced_arpReplyFrame sha sip 0 0
  obtain ⟨hsip, hsha, hhandle⟩ := srHandlepacket_announced s.sr [] ⟨0, 0, 0⟩ hframe
  rw [announce, step, hhandle, handleReply_eq hwf hsha hsip, hcalls, hframe]
  rfl

/-- A packet in transit waits while the cache has no mapping for it. -/
theorem step_queue (htransit : InTransit (start ifList routingTable).sr frame r) :
    ∃ u, (start ifList routingTable).step (.handlepacket frame [] ⟨0, 0, 0⟩) = some u ∧
      InTransit u.sr frame r ∧ u.sr.cache.WellFormed ∧ u.Blank ∧ u.learned = [] ∧
      u.sr.cache.packetsFor (swap32 r.dest) = [queuedPacket frame r.interface] := by
  have hne : frame ≠ [] := by
    rintro rfl
    exact absurd htransit.length (by decide)
  have hwf : srArpcacheInit.WellFormed := ⟨List.nodup_nil, nofun, List.nodup_nil, nofun⟩
  have hforward : forward (start ifList routingTable).sr frame r 0 =
      some ({ (start ifList routingTable).sr with
        cache := (srArpcacheQueuereq srArpcacheInit (swap32 r.dest) frame r.interface).1 }, []) := by
    have hblank : (start ifList routingTable).Blank := blank_start
    have hqueue := srArpcacheQueuereq_new hwf hne r.interface
      (show srArpcacheInit.request (swap32 r.dest) = none from rfl)
    simp only [forward, hblank.lookup r.dest]
    change handleArpreq { (start ifList routingTable).sr with
      cache := (srArpcacheQueuereq srArpcacheInit (swap32 r.dest) frame r.interface).1 }
      (srArpcacheQueuereq srArpcacheInit (swap32 r.dest) frame r.interface).2 0 = _
    rw [hqueue]
    -- The request is new, and at time zero it counts as just sent.
    simp [handleArpreq]
  have hstep : (start ifList routingTable).step (.handlepacket frame [] ⟨0, 0, 0⟩) =
      some { start ifList routingTable with sr := { (start ifList routingTable).sr with
        cache := (srArpcacheQueuereq srArpcacheInit (swap32 r.dest) frame r.interface).1 } } := by
    rw [step, htransit.srHandlepacket, hforward, htransit.announced]
    rfl
  refine ⟨_, hstep, inTransit_cache.mpr htransit, hwf.queuereq hne, ?_, rfl, ?_⟩
  · intro e he
    change e ∈ (srArpcacheQueuereq srArpcacheInit _ _ _).1.entries at he
    rw [entries_srArpcacheQueuereq] at he
    rw [List.eq_of_mem_replicate he]
  · change (srArpcacheQueuereq srArpcacheInit _ _ _).1.packetsFor _ = _
    rw [packetsFor_srArpcacheQueuereq hwf hne, if_pos rfl]
    rfl

section Necessary

variable (hall : ∀ acts t, exec step (start ifList routingTable) acts = some t →
    Guarded step (Consistent x) (start ifList routingTable) acts → Direct nextHop x t)
  (htransit : InTransit (start ifList routingTable).sr frame r) (hhop : nextHop r = x)

include hall htransit hhop

/-- After a reply the mapping has to be found under the destination of the route. -/
theorem dest_eq_swap32 : r.dest = swap32 x := by
  have hwf : (start ifList routingTable).sr.cache.WellFormed :=
    (inv_start ifList routingTable (x := x)).wellFormed
  have hstep := step_announce hwf x 0 rfl
  have hdirect := hall [announce x 0] _ (exec_cons.mpr ⟨_, hstep, rfl⟩)
    ⟨blank_start.consistent _, fun _ _ => trivial⟩
  obtain ⟨buf, hhandle, -⟩ := hdirect.atOnce 0 frame [] ⟨0, 0, 0⟩ r List.mem_cons_self
    ⟨newEntry 0 (swap32 x) 0, List.mem_cons_self, maps_newEntry, rfl⟩
    (inTransit_cache.mpr htransit) hhop
  rw [(inTransit_cache.mpr htransit).srHandlepacket] at hhandle
  by_contra hne
  have hmiss (c : SrArpcache)
      (hc : c.entries = insertEntry srArpcacheInit.entries 0 (swap32 x) 0) :
      srArpcacheLookup c r.dest = none := by
    by_contra hsome
    obtain ⟨e, he⟩ := Option.ne_none_iff_exists'.mp hsome
    obtain hnone | ⟨hmem, hmaps⟩ := lookupLoop_mem he
    · cases hnone
    · rw [hc] at hmem
      obtain rfl | hmem := mem_insertEntry hmem
      · exact hne hmaps.2.symm
      · have hblank : (start ifList routingTable).Blank := blank_start
        exact hblank.not_maps hmem hmaps
  have horigin := forward_miss (hmiss _ rfl) hhandle _ List.mem_cons_self
  cases horigin

/-- A packet that waits is sent to the Ethernet address of the destination of its route. -/
theorem dest_eq : r.dest = x := by
  obtain ⟨u, hu, htransit', hwf, hblank, hlearned, hpackets⟩ := step_queue htransit
  have hsendable : ∀ p ∈ u.sr.cache.packetsFor (swap32 r.dest), etherLen ≤ p.buf.length ∧
      (srGetInterface u.sr p.iface).isSome := by
    rw [hpackets]
    intro p hp
    rw [List.mem_singleton.mp hp]
    constructor
    · exact le_trans (by decide) htransit.length
    · change (srGetInterface _ (r.interface.take srIfaceNamelen)).isSome
      rw [srGetInterface_take]
      exact (routeOf_spec htransit'.routeOf).2
  obtain ⟨calls, hcalls, hflushed⟩ := flushLoop_spec 0 hsendable
  have hstep := step_announce hwf r.dest 0 hcalls
  rw [hpackets] at hflushed
  obtain ⟨call, _, hcall, hnil, rfl⟩ := List.forall₂_cons_right_iff.mp hflushed
  have hguarded : Guarded step (Consistent x) (start ifList routingTable)
      [.handlepacket frame [] ⟨0, 0, 0⟩, announce r.dest 0] := by
    refine ⟨blank_start.consistent _, fun v hv => ?_⟩
    obtain rfl := Option.some.inj (hu.symm.trans hv)
    exact ⟨hblank.consistent _, fun _ _ => trivial⟩
  have hdirect := hall _ _ (exec_cons.mpr ⟨_, hu, exec_cons.mpr ⟨_, hstep, rfl⟩⟩) hguarded
  have hin : InTransit u.sr call.buf r :=
    InTransit.flushed (p := queuedPacket frame r.interface) htransit' hcall
  obtain ⟨m, -, hm⟩ := hdirect.announced call
    (List.mem_append_right _ (List.mem_filter.mpr ⟨List.mem_cons_self, hcall.passes⟩))
    (.inr hcall.origin) r (inTransit_cache.mpr hin) hhop
  rw [hlearned, List.mem_singleton] at hm
  exact (Prod.mk.inj hm).1.symm

end Necessary

/-- Packets to the next hop `x` are resolved as they should be, in every run that is
consistent about `x`, exactly if the routes to `x` that packets can take have `x` as their
destination and `x` is the same in both byte orders. -/
theorem direct_iff (nextHop : SrRt → Addr) (x : Addr) (ifList : List SrIf)
    (routingTable : List SrRt) :
    (∀ acts t, exec step (start ifList routingTable) acts = some t →
      Guarded step (Consistent x) (start ifList routingTable) acts → Direct nextHop x t) ↔
    ∀ frame r, InTransit (start ifList routingTable).sr frame r → nextHop r = x →
      r.dest = x ∧ swap32 x = x := by
  constructor
  · intro hall frame r htransit hhop
    have hdest := dest_eq hall htransit hhop
    have hswap := dest_eq_swap32 hall htransit hhop
    exact ⟨hdest, hswap.symm.trans hdest⟩
  · intro hroutes acts t hexec hguarded
    have hinv : Inv x t ∧ ∃ c, t.sr = { (start ifList routingTable).sr with cache := c } := by
      refine exec_invariant (P := fun s => Inv x s ∧
        ∃ c, s.sr = { (start ifList routingTable).sr with cache := c }) ?_
        ⟨inv_start ifList routingTable, srArpcacheInit, rfl⟩ hguarded hexec
      rintro s a u ⟨hs, c, hc⟩ hg hstep
      obtain ⟨c', hc'⟩ := step_config hstep
      exact ⟨hs.step hg hstep, c', by rw [hc', hc]⟩
    obtain ⟨hinv, c, hc⟩ := hinv
    apply hinv.direct
    intro frame r htransit
    rw [hc] at htransit
    exact hroutes frame r (inTransit_cache.mp htransit)

/-- A route to 10.0.0.10, whose bytes read the same in both directions. -/
def palindromeRoute : SrRt where
  dest := 0x0a00000a
  gw := 0x0a00000a
  mask := 0xffffffff
  interface := eth3.name

theorem direct_palindrome :
    ∀ acts t, exec step (start [eth3] [palindromeRoute]) acts = some t →
      Guarded step (Consistent palindromeRoute.dest) (start [eth3] [palindromeRoute]) acts →
      Direct SrRt.dest palindromeRoute.dest t :=
  (direct_iff SrRt.dest palindromeRoute.dest [eth3] [palindromeRoute]).mpr
    fun _ _ _ hhop => ⟨hhop, by decide⟩

/-- The route to the client, 10.0.1.100. -/
def clientRoute : SrRt where
  dest := 0x6401000a
  gw := 0x6401000a
  mask := 0xffffffff
  interface := eth3.name

/-- A packet from another host to the client. -/
def clientFrame : List Byte :=
  le48 eth3.addr ++ le48 9 ++ le16 (swap16 ethertypeIp) ++
    [0x45, 0, 0, 20, 0, 0, 0, 0, 64, 17, 0, 0] ++ le32 0x0202a8c0 ++ le32 clientRoute.dest

/-- After the client has announced its Ethernet address, a packet to it waits and the
router asks for the address again. -/
theorem not_direct_client :
    ∃ t, exec step (start [eth3] [clientRoute]) [announce clientRoute.dest 7] = some t ∧
      Guarded step (Consistent clientRoute.dest) (start [eth3] [clientRoute])
        [announce clientRoute.dest 7] ∧
      ¬Direct SrRt.dest clientRoute.dest t := by
  have hwf : (start [eth3] [clientRoute]).sr.cache.WellFormed :=
    (inv_start (x := clientRoute.dest) [eth3] [clientRoute]).wellFormed
  have hstep := step_announce hwf clientRoute.dest 7 rfl
  have htransit : InTransit (start [eth3] [clientRoute]).sr clientFrame clientRoute :=
    ⟨by decide +kernel, by decide +kernel, by decide +kernel⟩
  have hsent : ((start [eth3] [clientRoute]).step (announce clientRoute.dest 7)).bind (fun t =>
      (srHandlepacket t.sr clientFrame eth3.name ⟨10, 0, 0⟩).map fun r =>
        r.2.map SendCall.origin) = some [.arpRequest] := by
    decide +kernel
  refine ⟨_, exec_cons.mpr ⟨_, hstep, rfl⟩, ⟨blank_start.consistent _, fun _ _ => trivial⟩, ?_⟩
  intro hdirect
  obtain ⟨buf, hhandle, -⟩ := hdirect.atOnce 7 clientFrame eth3.name ⟨10, 0, 0⟩ clientRoute
    List.mem_cons_self ⟨newEntry 7 (swap32 clientRoute.dest) 0, List.mem_cons_self, maps_newEntry, rfl⟩
    (inTransit_cache.mpr htransit) rfl
  rw [hstep, Option.bind_some, hhandle] at hsent
  cases hsent

end RouterRun

end NetworkStack.Router
