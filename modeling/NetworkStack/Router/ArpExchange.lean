import NetworkStack.Router.Entries
import NetworkStack.Router.MainLoop

/-!
# Address resolution between two routers

One router asks for an address, the other has it on an interface and replies, and the
first one gets the reply at any later time. The key of the request, the address in the
frames and the address of the interface are in different byte orders; they agree.
-/

namespace NetworkStack.Router

open Bytes Buffer Transition SrArpcache KeyedList

variable {sr s t : SrInstance} {x : Addr} {mac : Mac} {i j : IfName} {asker owner : SrIf}
  {session : Session}

/-- What the owner of the address does with the request: one reply to `asker`. -/
structure Replies (asker : Mac) (sr : SrInstance) (j : IfName) (env : Env)
    (request reply : SendCall) : Prop where
  handled : handleVnsPacket sr request.buf j env = some
    { ret := 1, sr := sr, handled := some (request.buf, j), calls := [reply], sent := [] }
  origin : reply.origin = .arpReply
  unicast : load48 reply.buf 0 = some asker
  iface : reply.iface = j
  passes : srSendPacket sr reply = true

/-- The packet is sent out of `i` to `mac`. -/
structure SentOut (sr : SrInstance) (i : IfName) (mac : Mac) (call : SendCall) (p : SrPacket) :
    Prop where
  iface : call.iface = i
  dhost : load48 call.buf 0 = some mac
  shost : ∃ inter, srGetInterface sr i = some inter ∧ load48 call.buf 6 = some inter.addr
  payload : call.buf.drop etherLen = p.buf.drop etherLen
  length : call.buf.length = p.buf.length
  passes : srSendPacket sr call = true

/-- What the router that asked for `x` does with the reply. -/
structure Learns (sr : SrInstance) (x : Addr) (mac : Mac) (i : IfName) (env : Env)
    (reply : SendCall) (t : SrInstance) (calls : List SendCall) : Prop where
  handled : handleVnsPacket sr reply.buf i env = some
    { ret := 1, sr := t, handled := some (reply.buf, i), calls := calls, sent := [] }
  removed : t.cache.request x = none
  others : ∀ y, y ≠ x → t.cache.request y = sr.cache.request y
  recorded : (∃ e ∈ sr.cache.entries, e.valid = false) →
    ∃ e ∈ t.cache.entries, e.Maps x ∧ e.mac = mac
  sends : List.Forall₂ (SentOut sr i mac) calls (sr.cache.packetsFor x)

/-! ## The request -/

/-- What `handle_arpreq` asks with. -/
theorem handleArpreq_request {id : Nat} {now : Int} {calls : List SendCall} {call : SendCall}
    (h : handleArpreq sr id now = some (t, calls)) (hcall : call ∈ calls) :
    ∃ req p interf, sr.cache.requests.find? (·.id = id) = some req ∧ p ∈ req.packets ∧
      srGetInterface sr p.iface = some interf ∧
      calls = [⟨.arpRequest, arpRequestFrame interf (swap32 req.ip), p.iface⟩] := by
  obtain ⟨req, hreq, h⟩ := Option.bind_eq_some_iff.mp h
  split at h
  · split at h
    · cases h
      cases hcall
    · obtain ⟨p, hp, h⟩ := Option.bind_eq_some_iff.mp h
      obtain ⟨interf, hinterf, h⟩ := Option.bind_eq_some_iff.mp h
      cases h
      exact ⟨req, p, interf, hreq, List.mem_of_mem_head? hp, hinterf, rfl⟩
  · cases h
    cases hcall

/-! ## The fields of an ARP frame -/

/-- A frame with this Ethernet header and these fields. -/
def arpFrame (dhost shost : Mac) (op : BitVec 16) (sha : Mac) (sip : Addr) (tha : Mac) (tip : Addr) :
    List Byte :=
  le48 dhost ++ le48 shost ++ le16 (swap16 ethertypeArp) ++
    le16 (swap16 1) ++ le16 (swap16 2048) ++ [6, 4] ++ le16 op ++
    le48 sha ++ le32 sip ++ le48 tha ++ le32 tip

section Fields

variable (dhost shost sha tha mac : Mac) (op op' : BitVec 16) (sip tip ip : Addr)

/-- The frame up to the operation. -/
def arpPrefix (dhost shost : Mac) : List Byte :=
  le48 dhost ++ le48 shost ++ le16 (swap16 ethertypeArp) ++
    le16 (swap16 1) ++ le16 (swap16 2048) ++ [6, 4]

theorem arpFrame_eq : arpFrame dhost shost op sha sip tha tip =
    arpPrefix dhost shost ++ le16 op ++ le48 sha ++ le32 sip ++ le48 tha ++ le32 tip := rfl

theorem load_type : load16 (arpFrame dhost shost op sha sip tha tip) 12 =
    some (swap16 ethertypeArp) := by
  simpa only [arpFrame, List.append_assoc] using load16_le16 (i := 12) (le48 dhost ++ le48 shost) (swap16 ethertypeArp) rfl

theorem load_op : load16 (arpFrame dhost shost op sha sip tha tip) 20 = some op := by
  simpa only [arpFrame_eq, List.append_assoc] using
    load16_le16 (i := 20) (arpPrefix dhost shost) op rfl

theorem load_dhost : load48 (arpFrame dhost shost op sha sip tha tip) 0 = some dhost := by
  simp only [arpFrame, List.append_assoc]
  exact load48_dhost

theorem load_shost : load48 (arpFrame dhost shost op sha sip tha tip) 6 = some shost := by
  simpa only [arpFrame, List.append_assoc] using load48_le48 (i := 6) (le48 dhost) shost rfl

theorem load_sha : load48 (arpFrame dhost shost op sha sip tha tip) 22 = some sha := by
  simpa only [arpFrame_eq, List.append_assoc] using
    load48_le48 (i := 22) (arpPrefix dhost shost ++ le16 op) sha rfl

theorem load_sip : load32 (arpFrame dhost shost op sha sip tha tip) 28 = some sip := by
  simpa only [arpFrame_eq, List.append_assoc] using
    load32_le32 (i := 28) (arpPrefix dhost shost ++ le16 op ++ le48 sha) sip rfl

theorem load_tip : load32 (arpFrame dhost shost op sha sip tha tip) 38 = some tip := by
  rw [arpFrame_eq, ← List.append_nil (le32 tip)]
  exact load32_le32 _ tip rfl

theorem store_dhost : store48 (arpFrame dhost shost op sha sip tha tip) 0 mac =
    some (arpFrame mac shost op sha sip tha tip) := by
  simp [store48, store, arpFrame, le48, le16, le32]

theorem store_shost : store48 (arpFrame dhost shost op sha sip tha tip) 6 mac =
    some (arpFrame dhost mac op sha sip tha tip) := by
  simp [store48, store, arpFrame, le48, le16, le32]

theorem store_op : store16 (arpFrame dhost shost op sha sip tha tip) 20 op' =
    some (arpFrame dhost shost op' sha sip tha tip) := by
  simp [store16, store, arpFrame, le48, le16, le32]

theorem store_sha : store48 (arpFrame dhost shost op sha sip tha tip) 22 mac =
    some (arpFrame dhost shost op mac sip tha tip) := by
  simp [store48, store, arpFrame, le48, le16, le32]

theorem store_sip : store32 (arpFrame dhost shost op sha sip tha tip) 28 ip =
    some (arpFrame dhost shost op sha ip tha tip) := by
  simp [store32, store, arpFrame, le48, le16, le32]

theorem store_tha : store48 (arpFrame dhost shost op sha sip tha tip) 32 mac =
    some (arpFrame dhost shost op sha sip mac tip) := by
  simp [store48, store, arpFrame, le48, le16, le32]

theorem store_tip : store32 (arpFrame dhost shost op sha sip tha tip) 38 ip =
    some (arpFrame dhost shost op sha sip tha ip) := by
  simp [store32, store, arpFrame, le48, le16, le32]

theorem load_frame : load (arpFrame dhost shost op sha sip tha tip) 0 42 =
    some (arpFrame dhost shost op sha sip tha tip) := by
  simp [load, arpFrame, le48, le16, le32]

end Fields

theorem arpRequestFrame_eq (asker : SrIf) (tip : Addr) :
    arpRequestFrame asker tip = arpFrame (BitVec.allOnes 48) asker.addr (swap16 arpOpRequest)
      asker.addr asker.ip (BitVec.allOnes 48) tip := rfl

theorem arpReplyFrame_eq (sha : Mac) (sip : Addr) (tha : Mac) (tip : Addr) :
    arpReplyFrame sha sip tha tip = arpFrame tha sha (swap16 arpOpReply) sha sip tha tip := rfl

/-! ## The reply -/

theorem replyToRequest_arpRequestFrame (asker owner : SrIf) (tip : Addr) (j : IfName) :
    replyToRequest (arpRequestFrame asker tip) owner j =
      some ⟨.arpReply, arpReplyFrame owner.addr tip asker.addr asker.ip, j⟩ := by
  rw [arpRequestFrame_eq, arpReplyFrame_eq]
  simp only [replyToRequest, load_tip, store_op, load_sha, store_tha, store_sha, load_sip, store_sip,
    store_tip, load_shost, store_dhost, store_shost, load_frame, Option.bind_eq_bind,
    Option.bind_some, Option.pure_def]

/-- The filter lets the request through, and it is answered. -/
theorem handleVnsPacket_request (hj : srGetInterface sr j = some owner) (asker : SrIf) (env : Env) :
    handleVnsPacket sr (arpRequestFrame asker owner.ip) j env = some
      { ret := 1
        sr := sr
        handled := some (arpRequestFrame asker owner.ip, j)
        calls := [⟨.arpReply, arpReplyFrame owner.addr owner.ip asker.addr asker.ip, j⟩]
        sent := [] } := by
  have htype : load16 (arpRequestFrame asker owner.ip) 12 = some (swap16 ethertypeArp) :=
    load_type ..
  have hop : load16 (arpRequestFrame asker owner.ip) 20 = some (swap16 arpOpRequest) := load_op ..
  have htip : load32 (arpRequestFrame asker owner.ip) 38 = some owner.ip := load_tip ..
  have hfilter : srArpReqNotForUs sr (arpRequestFrame asker owner.ip) j = some false := by
    simp [srArpReqNotForUs, hj, htip, hop, htype]
  have hhandle : srHandlepacket sr (arpRequestFrame asker owner.ip) j env = some (sr,
      [⟨.arpReply, arpReplyFrame owner.addr owner.ip asker.addr asker.ip, j⟩]) := by
    rw [srHandlepacket, htype, Option.bind_eq_bind, Option.bind_some, if_neg (by decide),
      if_pos (by decide), handleArp, hop, Option.bind_eq_bind, Option.bind_some,
      if_pos (by decide), hj, Option.bind_eq_bind, Option.bind_some, htip, Option.bind_eq_bind,
      Option.bind_some, if_pos rfl, replyToRequest_arpRequestFrame]
    rfl
  simp only [handleVnsPacket, hfilter, hhandle, Option.bind_eq_bind, Option.bind_some,
    Bool.false_eq_true, if_false, Option.pure_def]

theorem replies_request (hj : srGetInterface sr j = some owner) (asker : SrIf) (env : Env)
    {request : SendCall} (hbuf : request.buf = arpRequestFrame asker owner.ip) :
    Replies asker.addr sr j env request
      ⟨.arpReply, arpReplyFrame owner.addr owner.ip asker.addr asker.ip, j⟩ where
  handled := by
    rw [hbuf]
    exact handleVnsPacket_request hj asker env
  origin := rfl
  unicast := load_dhost ..
  iface := rfl
  passes := by
    simp only [arpReplyFrame, List.append_assoc]
    apply srSendPacket_addresses hj
    simp [le16]

/-- The filter is for requests only. -/
theorem handleVnsPacket_reply {inter : SrIf} {sha tha : Mac} {sip tip : Addr} (env : Env)
    (hi : srGetInterface sr i = some inter) :
    handleVnsPacket sr (arpReplyFrame sha sip tha tip) i env =
      (handleReply sr (arpReplyFrame sha sip tha tip) env.now).map fun r =>
        { ret := 1
          sr := r.1
          handled := some (arpReplyFrame sha sip tha tip, i)
          calls := r.2
          sent := [] } := by
  have htype : load16 (arpReplyFrame sha sip tha tip) 12 = some (swap16 ethertypeArp) :=
    load_type ..
  have hop : load16 (arpReplyFrame sha sip tha tip) 20 = some (swap16 arpOpReply) := load_op ..
  have htip : load32 (arpReplyFrame sha sip tha tip) 38 = some tip := load_tip ..
  have hfilter : srArpReqNotForUs sr (arpReplyFrame sha sip tha tip) i = some false := by
    have hne : swap16 arpOpReply ≠ swap16 arpOpRequest := by decide
    simp [srArpReqNotForUs, hi, htip, hop, htype, hne]
  obtain ⟨-, -, hhandle⟩ :=
    srHandlepacket_announced sr i env (announced_arpReplyFrame sha sip tha tip)
  simp only [handleVnsPacket, hfilter, hhandle, Option.bind_eq_bind, Option.bind_some,
    Bool.false_eq_true, if_false, Option.pure_def]
  cases handleReply sr (arpReplyFrame sha sip tha tip) env.now <;> rfl

theorem sentOut_of_flushed {call : SendCall} {p : SrPacket} (h : Flushed sr mac call p)
    (hp : p.iface = i) : SentOut sr i mac call p where
  iface := h.iface.trans hp
  dhost := h.dhost
  shost := by
    have hpasses := h.passes
    unfold srSendPacket at hpasses
    rw [h.iface, hp] at hpasses
    cases hinter : srGetInterface sr i with
    | none => simp [hinter] at hpasses
    | some inter =>
        simp only [hinter, Bool.and_eq_true, beq_iff_eq] at hpasses
        exact ⟨inter, rfl, hpasses.2⟩
  payload := h.payload
  length := h.length
  passes := h.passes

theorem forall₂_sentOut {calls : List SendCall} {packets : List SrPacket}
    (h : List.Forall₂ (Flushed sr mac) calls packets) (hon : ∀ p ∈ packets, p.iface = i) :
    List.Forall₂ (SentOut sr i mac) calls packets := by
  induction h with
  | nil => exact .nil
  | cons hp _ ih =>
      apply List.Forall₂.cons
      · exact sentOut_of_flushed hp (hon _ List.mem_cons_self)
      · exact ih fun q hq => hon q (List.mem_cons_of_mem _ hq)

theorem Queued.learns {inter : SrIf} (h : Queued sr) (hi : srGetInterface sr i = some inter)
    (hon : ∀ p ∈ sr.cache.packetsFor x, p.iface = i) (env : Env) (mac tha : Mac) (tip : Addr)
    (j : IfName) :
    ∃ t calls, Learns sr x mac i env ⟨.arpReply, arpReplyFrame mac (swap32 x) tha tip, j⟩ t calls := by
  have hsha : load48 (arpReplyFrame mac (swap32 x) tha tip) 22 = some mac := load_sha ..
  have hsip : load32 (arpReplyFrame mac (swap32 x) tha tip) 28 = some (swap32 x) := load_sip ..
  obtain ⟨calls, hall, hreply⟩ := h.handleReply_eq hsha hsip env.now
  rw [swap32_swap32] at hall hreply
  refine ⟨{ sr with cache := { sr.cache with
    entries := insertEntry sr.cache.entries mac x env.now
    requests := sr.cache.requests.filter (·.ip ≠ x) } }, calls, ?_⟩
  constructor
  · rw [handleVnsPacket_reply env hi, hreply]
    rfl
  · simp [request]
  · intro y hy
    exact find_filter_ne hy.symm
  · intro hfree
    exact ⟨_, newEntry_mem_insertEntry hfree, maps_newEntry, rfl⟩
  · exact forall₂_sentOut hall hon

/-! ## The exchange -/

theorem mainStep_interface {a : MainAction} (h : (srGetInterface sr i).isSome)
    (hstep : mainStep session sr a = some t) : (srGetInterface t i).isSome := by
  cases a with
  | command command buf env uninit =>
      obtain ⟨outcome, houtcome, hstep⟩ := Option.bind_eq_some_iff.mp hstep
      split at hstep
      · obtain rfl := Option.some.inj hstep
        obtain hgrows | ⟨frame, now, calls, hhandled⟩ := dispatch_cases houtcome
        · exact hgrows.interfaces i h
        · obtain ⟨c, hc⟩ := hhandled.config
          rw [hc]
          exact h
      · cases hstep
  | expire curtime =>
      obtain rfl := Option.some.inj hstep
      exact h
  | handleArpreq id now =>
      obtain ⟨⟨u, calls⟩, hu, rfl⟩ := Option.map_eq_some_iff.mp hstep
      obtain ⟨f, -, -, rfl, -⟩ := handleArpreq_cases hu
      exact h

/-- A router that asks for `x` on `i` is answered by a router with this address, and when it
gets the answer, whatever it has done in between, it sends all that waits for `x`. -/
theorem arp_exchange {ifList : List SrIf} {routingTable : List SrRt} {acts later : List MainAction}
    {asking asked receiving other : SrInstance} {req : SrArpreq} {now : Int}
    {calls : List SendCall} {request : SendCall}
    (hasking : exec (mainStep session) (srInit ifList routingTable) acts = some asking)
    (hreq : asking.cache.request x = some req) (hon : ∀ p ∈ req.packets, p.iface = i)
    (hask : handleArpreq asking req.id now = some (asked, calls)) (hrequest : request ∈ calls)
    (hj : srGetInterface other j = some owner) (hip : owner.ip = swap32 x)
    (hlater : exec (mainStep session) asked later = some receiving)
    (hwaiting : ∀ p ∈ receiving.cache.packetsFor x, p.iface = i) (env env' : Env) :
    ∃ asker reply learned sent,
      calls = [request] ∧ request.iface = i ∧ srSendPacket asking request = true ∧
      srGetInterface asking i = some asker ∧
      Replies asker.addr other j env request reply ∧
      Learns receiving x owner.addr i env' reply learned sent := by
  have hq : Queued asking := queued_exec hasking
  obtain ⟨req', p, asker, hfind, hp, hasker, hcalls⟩ := handleArpreq_request hask hrequest
  obtain ⟨hmem, hx⟩ := key_of_find hreq
  obtain rfl : req = req' := Option.some.inj ((find_of_mem hq.wellFormed.ids hmem).symm.trans hfind)
  rw [hx, ← hip, hon p hp] at hcalls
  rw [hon p hp] at hasker
  have hrequest' : request = ⟨.arpRequest, arpRequestFrame asker owner.ip, i⟩ := by
    rw [hcalls] at hrequest
    exact List.mem_singleton.mp hrequest
  have hasked : Queued asked ∧ (srGetInterface asked i).isSome := by
    refine ⟨hq.handleArpreq hask, ?_⟩
    obtain ⟨f, -, -, rfl, -⟩ := handleArpreq_cases hask
    exact Option.isSome_iff_exists.mpr ⟨asker, hasker⟩
  have hreceiving : Queued receiving ∧ (srGetInterface receiving i).isSome :=
    exec_keeps (P := fun sr => Queued sr ∧ (srGetInterface sr i).isSome)
      (fun _ _ _ hs hstep => ⟨hs.1.step hstep, mainStep_interface hs.2 hstep⟩) hasked hlater
  obtain ⟨hq', hi⟩ := hreceiving
  obtain ⟨inter, hi⟩ := Option.isSome_iff_exists.mp hi
  obtain ⟨learned, sent, hlearns⟩ :=
    hq'.learns hi hwaiting env' owner.addr asker.addr asker.ip j
  rw [← hip] at hlearns
  refine ⟨asker, _, learned, sent, ?_, ?_, ?_, hasker, ?_, hlearns⟩
  · rw [hcalls, hrequest']
  · rw [hrequest']
  · rw [hrequest']
    simp only [arpRequestFrame, List.append_assoc]
    apply srSendPacket_addresses hasker
    simp [le16]
  · exact replies_request hj asker env (by rw [hrequest'])

/-- The interface of the router at 10.0.1.100. -/
def hostIf : SrIf where
  name := [0x65, 0x74, 0x68, 0x30]
  addr := 0x040000000002
  ip := hostRoute.dest

theorem arp_exchange_host :
    ∃ asking asked request reply learned sent,
      exec (mainStep ⟨[], fun _ => none, true⟩) (srInit [eth3] [hostRoute]) hostWaits =
        some asking ∧
      handleArpreq asking 0 14 = some (asked, [request]) ∧
      Replies eth3.addr (srInit [hostIf] []) hostIf.name ⟨15, 0, 0⟩ request reply ∧
      Learns asked (swap32 hostRoute.dest) hostIf.addr eth3.name ⟨16, 0, 0⟩ reply learned sent := by
  have hrun : ((exec (mainStep ⟨[], fun _ => none, true⟩) (srInit [eth3] [hostRoute])
      hostWaits).bind fun asking => (asking.cache.request (swap32 hostRoute.dest)).bind fun req =>
        (handleArpreq asking req.id 14).bind fun r => r.2.head?.map fun _ =>
          (req.id, decide (∀ p ∈ req.packets, p.iface = eth3.name),
            decide (∀ p ∈ r.1.cache.packetsFor (swap32 hostRoute.dest), p.iface = eth3.name),
            decide (srGetInterface asking eth3.name = some eth3))) =
      some (0, true, true, true) := by
    decide +kernel
  obtain ⟨asking, hasking, hrun⟩ := Option.bind_eq_some_iff.mp hrun
  obtain ⟨req, hreq, hrun⟩ := Option.bind_eq_some_iff.mp hrun
  obtain ⟨⟨asked, calls⟩, hask, hrun⟩ := Option.bind_eq_some_iff.mp hrun
  obtain ⟨request, hrequest, hrun⟩ := Option.map_eq_some_iff.mp hrun
  simp only [Prod.mk.injEq, decide_eq_true_eq] at hrun
  obtain ⟨hid, hon, hwaiting, heth3⟩ := hrun
  obtain ⟨asker, reply, learned, sent, rfl, -, -, hasker, hreplies, hlearns⟩ :=
    arp_exchange hasking hreq hon hask (List.mem_of_mem_head? hrequest)
      (show srGetInterface (srInit [hostIf] []) hostIf.name = some hostIf from rfl)
      (show hostIf.ip = swap32 (swap32 hostRoute.dest) by decide)
      (show exec (mainStep _) asked [] = some asked from rfl) hwaiting ⟨15, 0, 0⟩ ⟨16, 0, 0⟩
  obtain rfl := Option.some.inj (heth3.symm.trans hasker)
  rw [hid] at hask
  exact ⟨asking, asked, request, reply, learned, sent, hasking, hask, hreplies, hlearns⟩

end NetworkStack.Router
