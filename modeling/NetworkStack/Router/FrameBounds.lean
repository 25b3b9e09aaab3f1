import NetworkStack.Router.Entries
import NetworkStack.Router.FrameAccess
import NetworkStack.Router.SourceCheck

/-!
# Frames that are too short

What the router reads of a frame depends on what the frame says it is, and nothing is compared
with its length. `Overrun` says exactly which frames make it read or write beyond their end.
A frame that has all its headers is safe, and apart from a few ARP packets no other is.
-/

namespace NetworkStack.Router

open Bytes Buffer Access

/-- An ICMP packet for the router. -/
def isEcho (frame : List Byte) (sendRouter : Bool) : Bool :=
  sendRouter ∧ load8 frame 23 = some ipProtocolIcmp

/-- The length of the headers of an IP packet in its frame, with the data that an ICMP error
about it quotes. -/
def neededIp (frame : List Byte) (sendRouter : Bool) : Nat :=
  if isEcho frame sendRouter then 38
  else if sendRouter ∨ load8 frame 22 = some 1 then 42
  else 34

/-- The length that a frame needs. -/
def neededLen (sr : SrInstance) (frame : List Byte) : Nat :=
  match load16 frame 12 with
  | none => etherLen
  | some etherType =>
      if swap16 etherType = ethertypeIp then
        (routed sr frame).elim 34 fun route => neededIp frame route.1
      else if swap16 etherType = ethertypeArp then 42
      else etherLen

/-- The frame when the interface is looked up: the sender of an echo request is by then its
receiver. -/
def lookupFrame (sr : SrInstance) (frame : List Byte) : List Byte :=
  if (routed sr frame).any fun route => isEcho frame route.1 then
    (frame.drop 6).take 6 ++ frame.drop 6
  else frame

/-- The accesses to a frame go beyond its end. -/
def Overrun (sr : SrInstance) (lookup : List Byte → Except Fault SrIf) (frame : List Byte) : Prop :=
  match load16 frame 12 with
  | none => True
  | some etherType =>
      if swap16 etherType = ethertypeIp then
        frame.length < 34 ∨ frame.length < neededLen sr frame ∧
          ∃ inter, lookup (lookupFrame sr frame) = .ok inter
      else if swap16 etherType = ethertypeArp then
        match load16 frame 20 with
        | none => True
        | some op =>
            if swap16 op = arpOpRequest then
              frame.length < 42 ∧ ∃ inter, lookup frame = .ok inter
            else swap16 op = arpOpReply ∧ frame.length < 32
      else False

variable {sr : SrInstance} {lookup : List Byte → Except Fault SrIf} {packet : List Byte}
  {interface : IfName}

/-! ## ICMP -/

theorem violates_icmp {type code : Byte} {unused : BitVec 32} (h : 34 ≤ packet.length)
    (hlookup : ¬Violates (lookup packet)) :
    Violates (Checked.icmp lookup packet type code interface unused) ↔
      (∃ inter, lookup packet = .ok inter) ∧ packet.length < 42 := by
  unfold Checked.icmp
  refine violates_access (isSome_load48.mpr (by omega)) fun shost _ => ?_
  refine violates_bind_iff hlookup fun inter _ => ?_
  refine violates_access (isSome_load16.mpr (by omega)) fun etherType _ => ?_
  refine violates_access (isSome_load.mpr (by omega)) fun origIp horigIp => ?_
  refine violates_access (isSome_load32.mpr (by omega)) fun ipSrc _ => ?_
  obtain ⟨_, hload, hlen⟩ := exists_load (show 14 + 20 ≤ packet.length by omega)
  obtain rfl := Option.some.inj (hload.symm.trans horigIp)
  refine violates_defined (icmpIpHeader_isSome hlen _ _) fun ip _ => ?_
  by_cases hfits : 42 ≤ packet.length
  · refine violates_access (isSome_load.mpr (by omega)) fun data _ => ?_
    refine iff_of_false ?_ (by omega)
    exact not_violates_bind (not_violates_defined _) fun _ _ => not_violates_ok _
  · refine iff_of_true ?_ (by omega)
    exact violates_access_none fun hsome => hfits (isSome_load.mp hsome)

/-- The sender's address is written over the receiver's. -/
theorem store_sender {shost : Mac} {packet' : List Byte} (hload : load48 packet 6 = some shost)
    (hstore : store48 packet 0 shost = some packet') :
    packet' = (packet.drop 6).take 6 ++ packet.drop 6 := by
  unfold store48 store at hstore
  split at hstore
  · obtain rfl := Option.some.inj hstore
    rw [List.take_zero, List.nil_append, le48_of_load48 hload]
    rfl
  · cases hstore

theorem violates_echo {longs : SrRt} (h : 34 ≤ packet.length)
    (hlookup : ∀ p, p.length = packet.length → ¬Violates (lookup p))
    (hout : (srGetInterface sr longs.interface).isSome) :
    Violates (Checked.echo sr lookup packet longs interface) ↔
      (∃ inter, lookup ((packet.drop 6).take 6 ++ packet.drop 6) = .ok inter) ∧
        packet.length < 38 := by
  unfold Checked.echo
  refine violates_access (isSome_load48.mpr (by omega)) fun _ _ => ?_
  refine violates_access (isSome_load48.mpr (by omega)) fun shost hshost => ?_
  refine violates_store (show 0 + 6 ≤ _ by omega) fun p₁ h₁ hlen₁ => ?_
  rw [← store_sender hshost h₁, ← hlen₁]
  refine violates_bind_iff (hlookup p₁ hlen₁) fun inter _ => ?_
  refine violates_store (show 6 + 6 ≤ _ by omega) fun p₂ _ hlen₂ => ?_
  refine violates_access (isSome_load32.mpr (by omega)) fun ipSrc _ => ?_
  refine violates_store (show 30 + 4 ≤ _ by omega) fun p₃ _ hlen₃ => ?_
  refine violates_defined hout fun out _ => ?_
  refine violates_store (show 26 + 4 ≤ _ by omega) fun p₄ _ hlen₄ => ?_
  refine violates_store (show 24 + 2 ≤ _ by omega) fun p₅ _ hlen₅ => ?_
  refine violates_access (isSome_load.mpr (by omega)) fun header _ => ?_
  refine violates_store (show 24 + 2 ≤ _ by omega) fun p₆ _ hlen₆ => ?_
  -- The ICMP header: its first byte is written before its checksum.
  by_cases hfirst : 35 ≤ packet.length
  · refine violates_store (show 34 + 1 ≤ _ by omega) fun p₇ _ hlen₇ => ?_
    by_cases hfits : 38 ≤ packet.length
    · refine violates_store (show 36 + 2 ≤ _ by omega) fun p₈ _ hlen₈ => ?_
      refine violates_access (isSome_load.mpr (by omega)) fun icmpHeader _ => ?_
      refine violates_store (show 36 + 2 ≤ _ by omega) fun p₉ _ _ => ?_
      exact iff_of_false (not_violates_ok _) (by omega)
    · refine iff_of_true (violates_access_none fun hsome => ?_) (by omega)
      have hbound : 36 + 2 ≤ p₇.length := isSome_store.mp hsome
      omega
  · refine iff_of_true (violates_access_none fun hsome => ?_) (by omega)
    have hbound : 34 + 1 ≤ p₆.length := isSome_store.mp hsome
    omega

/-! ## IP packets -/

/-- A packet for the router has the route that named it. -/
theorem exists_of_routeLoop_true {destIp longest : Addr} {longs init : Option SrRt}
    {table : List SrRt} (h : routeLoop sr destIp table longest init = some (true, longs)) :
    ∃ r, longs = some r := by
  induction table generalizing longest init with
  | nil => cases h
  | cons route rest ih =>
      obtain ⟨inter, -, h⟩ := Option.bind_eq_some_iff.mp h
      split at h
      · obtain ⟨-, rfl⟩ := Prod.mk.inj (Option.some.inj h)
        exact ⟨route, rfl⟩
      · simp only at h
        split at h
        · exact ih h
        · exact ih h

theorem not_violates_forward (h : 34 ≤ packet.length) (longs : SrRt) (now : Int) :
    ¬Violates (Checked.forward sr packet longs now) := by
  unfold Checked.forward
  split
  case h_1 entry _ =>
    refine mt (violates_access (isSome_load.mpr (by omega)) fun _ _ => ?_).mp id
    refine iff_of_false (not_violates_bind (not_violates_defined _) fun inter _ => ?_) id
    refine mt (violates_store (show 0 + 6 ≤ _ by omega) fun p₁ _ hlen₁ => ?_).mp id
    refine violates_store (show 6 + 6 ≤ _ by omega) fun p₂ _ _ => ?_
    exact iff_of_false (not_violates_ok _) id
  case h_2 => exact not_violates_defined _

theorem violates_portUnreachable {unused : BitVec 32} (h : 34 ≤ packet.length)
    (hlookup : ¬Violates (lookup packet)) (sendRouter : Bool) :
    Violates (Checked.portUnreachable lookup packet sendRouter interface unused) ↔
      sendRouter ∧ (∃ inter, lookup packet = .ok inter) ∧ packet.length < 42 := by
  unfold Checked.portUnreachable
  cases sendRouter with
  | false => exact iff_of_false (not_violates_ok _) (by simp)
  | true =>
      rw [if_pos rfl, violates_bind_pure, violates_icmp h hlookup]
      simp only [true_and]

theorem violates_transit {longs : Option SrRt} {answer : List SendCall} {env : Env}
    (h : 34 ≤ packet.length) (hlookup : ¬Violates (lookup packet)) :
    Violates (Checked.transit sr lookup packet longs answer interface env) ↔
      load8 packet 22 = some 1 ∧ (∃ inter, lookup packet = .ok inter) ∧ packet.length < 42 := by
  unfold Checked.transit
  refine violates_access (isSome_load8.mpr (by omega)) fun ttl httl => ?_
  rw [httl, Option.some.injEq]
  split
  case isTrue hone =>
    rw [and_iff_right hone, violates_bind_pure, violates_icmp h hlookup]
  case isFalse hone =>
    refine iff_of_false ?_ fun hout => hone hout.1
    refine not_violates_bind (not_violates_defined _) fun r _ => ?_
    exact not_violates_bind (not_violates_forward h r _) fun _ _ => not_violates_ok _

/-- What is read of an IP packet once its route is known. -/
theorem violates_handleRouted {route : Bool × Option SrRt} {env : Env} (h : 34 ≤ packet.length)
    (hlookup : ∀ p, p.length = packet.length → ¬Violates (lookup p))
    (hrouted : routed sr packet = some route) :
    Violates (Checked.handleRouted sr lookup packet route interface env) ↔
      packet.length < neededIp packet route.1 ∧
        ∃ inter, lookup (lookupFrame sr packet) = .ok inter := by
  have hsecond : (routed sr packet).any (fun route => isEcho packet route.1) =
      isEcho packet route.1 := by
    rw [hrouted, Option.any_some]
  unfold Checked.handleRouted
  refine violates_access (isSome_load8.mpr (by omega)) fun proto hproto => ?_
  have hecho : isEcho packet route.1 = true ↔ route.1 = true ∧ proto = ipProtocolIcmp := by
    simp [isEcho, hproto]
  split
  case isTrue hicmp =>
    -- The answer to an ICMP packet looks the interface up in the changed frame.
    obtain ⟨ipDst, -, hloop⟩ := Option.bind_eq_some_iff.mp hrouted
    obtain ⟨b, longs⟩ := route
    obtain ⟨rfl, hp⟩ := hicmp
    obtain ⟨r, rfl⟩ := exists_of_routeLoop_true hloop
    obtain hinit | ⟨-, hout⟩ := routeLoop_mem hloop
    · cases hinit
    rw [lookupFrame, hsecond, if_pos (hecho.mpr ⟨rfl, hp⟩), neededIp,
      if_pos (hecho.mpr ⟨rfl, hp⟩), and_comm]
    refine violates_defined rfl fun r' hr => ?_
    obtain rfl := Option.some.inj hr
    rw [violates_bind_pure, violates_echo h hlookup hout]
  case isFalse hicmp =>
    have hnot : ¬isEcho packet route.1 = true := mt hecho.mp hicmp
    rw [lookupFrame, hsecond, if_neg hnot, neededIp, if_neg hnot, violates_bind,
      violates_portUnreachable h (hlookup packet rfl)]
    simp only [violates_transit h (hlookup packet rfl)]
    cases route.1 with
    | true =>
        rw [if_pos (.inl rfl)]
        constructor
        · rintro (⟨-, hinter, hshort⟩ | ⟨_, -, -, hinter, hshort⟩)
          · exact ⟨hshort, hinter⟩
          · exact ⟨hshort, hinter⟩
        · rintro ⟨hshort, hinter⟩
          exact .inl ⟨rfl, hinter, hshort⟩
    | false =>
        constructor
        · rintro (⟨hfalse, -, -⟩ | ⟨_, -, hone, hinter, hshort⟩)
          · cases hfalse
          · rw [if_pos (.inr hone)]
            exact ⟨hshort, hinter⟩
        · rintro ⟨hshort, hinter⟩
          split at hshort
          case isTrue hone => exact .inr ⟨[], rfl, hone.resolve_left Bool.false_ne_true, hinter, hshort⟩
          case isFalse => exact absurd h (Nat.not_le.mpr hshort)

theorem violates_handleIp {env : Env}
    (hlookup : ∀ p, 34 ≤ p.length → ¬Violates (lookup p)) :
    Violates (Checked.handleIp sr lookup packet interface env) ↔
      packet.length < 34 ∨
        packet.length < (routed sr packet).elim 34 (fun route => neededIp packet route.1) ∧
          ∃ inter, lookup (lookupFrame sr packet) = .ok inter := by
  unfold Checked.handleIp
  by_cases h : 34 ≤ packet.length
  · rw [or_iff_right (by omega)]
    refine violates_access (isSome_load32.mpr (by omega)) fun ipDst hdst => ?_
    have hrouted : routed sr packet = routeLoop sr (swap32 ipDst) sr.routingTable 0 none := by
      rw [routed, hdst, Option.bind_some]
    rw [← hrouted]
    cases hroute : routed sr packet with
    | none =>
        refine iff_of_false ?_ ?_
        · exact not_violates_undefined
        · rintro ⟨hlt, -⟩
          exact absurd h (Nat.not_le.mpr hlt)
    | some route =>
        refine violates_defined rfl fun _ hroute' => ?_
        obtain rfl := Option.some.inj hroute'
        exact violates_handleRouted h (fun p hp => hlookup p (by omega)) hroute
  · refine iff_of_true (violates_access_none fun hsome => ?_) (.inl (by omega))
    have hbound := isSome_load32.mp hsome
    omega

/-! ## ARP packets -/

theorem not_violates_replyToRequest (h : 42 ≤ packet.length) (inter : SrIf) :
    ¬Violates (Checked.replyToRequest packet inter interface) := by
  unfold Checked.replyToRequest
  refine mt (violates_access (isSome_load32.mpr (by omega)) fun tip _ => ?_).mp id
  refine violates_store (show 20 + 2 ≤ _ by omega) fun p₁ _ hlen₁ => ?_
  refine violates_access (isSome_load48.mpr (by omega)) fun sha _ => ?_
  refine violates_store (show 32 + 6 ≤ _ by omega) fun p₂ _ hlen₂ => ?_
  refine violates_store (show 22 + 6 ≤ _ by omega) fun p₃ _ hlen₃ => ?_
  refine violates_access (isSome_load32.mpr (by omega)) fun sip _ => ?_
  refine violates_store (show 28 + 4 ≤ _ by omega) fun p₄ _ hlen₄ => ?_
  refine violates_store (show 38 + 4 ≤ _ by omega) fun p₅ _ hlen₅ => ?_
  refine violates_access (isSome_load48.mpr (by omega)) fun shost _ => ?_
  refine violates_store (show 0 + 6 ≤ _ by omega) fun p₆ _ hlen₆ => ?_
  refine violates_store (show 6 + 6 ≤ _ by omega) fun p₇ _ hlen₇ => ?_
  refine violates_access (isSome_load.mpr (by omega)) fun buf _ => ?_
  exact iff_of_false (not_violates_ok _) id

theorem violates_handleReply {now : Int} :
    Violates (Checked.handleReply sr packet now) ↔ packet.length < 32 := by
  unfold Checked.handleReply
  by_cases hsha : 28 ≤ packet.length
  · refine violates_access (isSome_load48.mpr (by omega)) fun sha _ => ?_
    by_cases hsip : 32 ≤ packet.length
    · refine violates_access (isSome_load32.mpr (by omega)) fun sip _ => ?_
      refine iff_of_false ?_ (by omega)
      exact not_violates_bind (not_violates_defined _) fun _ _ => not_violates_ok _
    · refine iff_of_true (violates_access_none fun hsome => ?_) (by omega)
      have hbound := isSome_load32.mp hsome
      omega
  · refine iff_of_true (violates_access_none fun hsome => ?_) (by omega)
    have hbound := isSome_load48.mp hsome
    omega

theorem violates_handleArp {now : Int} (hlookup : ∀ p, 22 ≤ p.length → ¬Violates (lookup p)) :
    Violates (Checked.handleArp sr lookup packet interface now) ↔
      match load16 packet 20 with
      | none => True
      | some op =>
          if swap16 op = arpOpRequest then
            packet.length < 42 ∧ ∃ inter, lookup packet = .ok inter
          else swap16 op = arpOpReply ∧ packet.length < 32 := by
  unfold Checked.handleArp
  cases hop : load16 packet 20 with
  | none => exact iff_of_true (violates_outside 20 2) trivial
  | some op =>
      have hlen : 20 + 2 ≤ packet.length := isSome_load16.mp (Option.isSome_of_eq_some hop)
      refine violates_access rfl fun _ hop' => ?_
      obtain rfl := Option.some.inj hop'
      simp only
      split
      case isTrue =>
        rw [and_comm]
        refine violates_bind_iff (hlookup packet hlen) fun inter _ => ?_
        by_cases hfits : 42 ≤ packet.length
        · refine violates_access (isSome_load32.mpr (by omega)) fun tip _ => ?_
          refine iff_of_false ?_ (by omega)
          split
          · exact not_violates_bind (not_violates_replyToRequest hfits inter)
              fun _ _ => not_violates_ok _
          · exact not_violates_ok _
        · refine iff_of_true (violates_access_none fun hsome => ?_) (by omega)
          have hbound := isSome_load32.mp hsome
          omega
      case isFalse =>
        split
        case isTrue hreply => rw [violates_handleReply, and_iff_right hreply]
        case isFalse hreply => exact iff_of_false (not_violates_ok _) fun hout => hreply hout.1

/-- Exactly when the router reads or writes beyond the end of a frame. -/
theorem violates_srHandlepacket {env : Env} (hlookup : ∀ p, 22 ≤ p.length → ¬Violates (lookup p)) :
    Violates (Checked.srHandlepacket sr lookup packet interface env) ↔ Overrun sr lookup packet := by
  unfold Checked.srHandlepacket Overrun
  cases htype : load16 packet 12 with
  | none => exact iff_of_true (violates_outside 12 2) trivial
  | some etherType =>
      refine violates_access rfl fun _ htype' => ?_
      obtain rfl := Option.some.inj htype'
      simp only
      split
      case isTrue hip =>
        rw [violates_handleIp fun p hp => hlookup p (by omega), neededLen, htype]
        simp only [if_pos hip]
      case isFalse =>
        split
        case isTrue => exact violates_handleArp hlookup
        case isFalse => exact iff_of_false (not_violates_ok _) id

/-! ## Short frames -/

/-- No access goes beyond the end of the frame, and a frame that is too short has no effect. -/
structure FrameSafe (sr : SrInstance) (frame : List Byte) (interface : IfName) (env : Env) :
    Prop where
  inBounds : ¬Outside (Checked.srHandlepacket sr (fun _ => defined (srGetInterface sr interface))
    frame interface env)
  dropped : frame.length < neededLen sr frame → srHandlepacket sr frame interface env = some (sr, [])

/-- An ARP packet whose header is not whole, and of which nothing is used: it is neither a request
nor a reply, or it is a reply that finds the cache full and nobody waiting. -/
def HarmlessArp (sr : SrInstance) (frame : List Byte) : Prop :=
  load16 frame 12 = some (swap16 ethertypeArp) ∧
    ∃ op, load16 frame 20 = some op ∧ swap16 op ≠ arpOpRequest ∧
      (swap16 op = arpOpReply → ∃ sip, load32 frame 28 = some sip ∧
        (∀ e ∈ sr.cache.entries, e.valid = true) ∧ ∀ req ∈ sr.cache.requests, req.ip ≠ swap32 sip)

/-- A request that is answered does not stay on the list. -/
theorem eraseP_eraseP_ne {req : SrArpreq} {p q : SrArpreq → Bool} {requests : List SrArpreq}
    (hfind : requests.find? p = some req) : (requests.eraseP p).eraseP q ≠ requests := by
  intro heq
  have hmem := List.mem_of_find?_eq_some hfind
  have hlen := List.length_eraseP_of_mem hmem (List.find?_some hfind)
  have hle := (List.eraseP_sublist (p := q) (l := requests.eraseP p)).length_le
  have hpos := List.length_pos_of_mem hmem
  rw [heq] at hle
  omega

/-- A reply has no effect if its mapping has no place and its request is not there. -/
theorem handleReply_eq_self_iff {sha : Mac} {sip : Addr} {now : Int}
    (hsha : load48 packet 22 = some sha) (hsip : load32 packet 28 = some sip) :
    handleReply sr packet now = some (sr, []) ↔
      (∀ e ∈ sr.cache.entries, e.valid = true) ∧
        ∀ req ∈ sr.cache.requests, req.ip ≠ swap32 sip := by
  simp only [handleReply, hsha, hsip, Option.bind_eq_bind, Option.bind_some, srArpcacheInsert]
  cases hfind : sr.cache.requests.find? (·.ip = swap32 sip) with
  | some req =>
      refine iff_of_false (fun h => ?_) fun hnone => ?_
      · obtain ⟨calls, -, heq⟩ := Option.bind_eq_some_iff.mp h
        obtain ⟨hsr, -⟩ := Prod.mk.inj (Option.some.inj heq)
        have hrequests := congrArg (fun t : SrInstance => t.cache.requests) hsr
        exact eraseP_eraseP_ne hfind hrequests
      · exact hnone.2 req (List.mem_of_find?_eq_some hfind) (by simpa using List.find?_some hfind)
  | none =>
      have hnone : ∀ req ∈ sr.cache.requests, req.ip ≠ swap32 sip := by
        simpa using List.find?_eq_none.mp hfind
      have herase : sr.cache.requests.eraseP (·.ip = swap32 sip) = sr.cache.requests :=
        List.eraseP_of_forall_not (by simpa using hnone)
      have hfull : insertEntry sr.cache.entries sha (swap32 sip) now = sr.cache.entries ↔
          ∀ e ∈ sr.cache.entries, e.valid = true := insertEntry_eq_self_iff
      rw [herase, and_iff_left hnone, ← hfull]
      constructor
      · intro h
        obtain ⟨hsr, -⟩ := Prod.mk.inj (Option.some.inj h)
        exact congrArg (fun t : SrInstance => t.cache.entries) hsr
      · intro h
        rw [h]
        rfl

theorem le_neededIp (frame : List Byte) (sendRouter : Bool) : 34 ≤ neededIp frame sendRouter := by
  unfold neededIp
  split
  · omega
  · split
    · omega
    · omega

theorem neededLen_ip {etherType : BitVec 16} (htype : load16 packet 12 = some etherType)
    (hip : swap16 etherType = ethertypeIp) :
    neededLen sr packet = (routed sr packet).elim 34 fun route => neededIp packet route.1 := by
  rw [neededLen, htype]
  exact if_pos hip

theorem neededLen_arp {etherType : BitVec 16} (htype : load16 packet 12 = some etherType)
    (harp : swap16 etherType = ethertypeArp) : neededLen sr packet = 42 := by
  have hip : swap16 etherType ≠ ethertypeIp := by
    rw [harp]
    decide
  rw [neededLen, htype]
  exact (if_neg hip).trans (if_pos harp)

/-- A frame that has what it needs is not overrun. -/
theorem lt_neededLen_of_overrun (h : Overrun sr lookup packet) :
    packet.length < neededLen sr packet := by
  unfold Overrun at h
  cases htype : load16 packet 12 with
  | none =>
      rw [neededLen, htype]
      by_contra hlen
      have hsome := isSome_load16.mpr (Nat.not_lt.mp hlen)
      rw [htype] at hsome
      cases hsome
  | some etherType =>
      rw [htype] at h
      simp only at h
      split at h
      case isTrue hip =>
        obtain hshort | ⟨hshort, -⟩ := h
        · rw [neededLen_ip htype hip]
          cases routed sr packet with
          | none => exact hshort
          | some route => exact hshort.trans_le (le_neededIp packet route.1)
        · exact hshort
      case isFalse hip =>
        split at h
        case isTrue harp =>
          rw [neededLen_arp htype harp]
          cases hop : load16 packet 20 with
          | none =>
              by_contra hlen
              have hsome := isSome_load16.mpr (show 20 + 2 ≤ packet.length by omega)
              rw [hop] at hsome
              cases hsome
          | some op =>
              rw [hop] at h
              simp only at h
              split at h
              · exact h.1
              · exact h.2.trans (by decide)
        case isFalse => exact h.elim

/-- An IP packet without effect is not too short: the answer to it would be sent. -/
theorem neededIp_le_of_handleIp {env : Env} (h : handleIp sr packet interface env = some (sr, [])) :
    (routed sr packet).elim 34 (fun route => neededIp packet route.1) ≤ packet.length := by
  obtain ⟨ipDst, hdst, h⟩ := Option.bind_eq_some_iff.mp h
  obtain ⟨⟨sendRouter, longs⟩, hloop, h⟩ := Option.bind_eq_some_iff.mp h
  obtain ⟨proto, hproto, h⟩ := Option.bind_eq_some_iff.mp h
  have hrouted : routed sr packet = some (sendRouter, longs) := by
    rw [routed, hdst, Option.bind_some, hloop]
  rw [hrouted, Option.elim_some]
  split at h
  case isTrue hecho =>
    obtain ⟨r, -, h⟩ := Option.bind_eq_some_iff.mp h
    obtain ⟨call, -, h⟩ := Option.bind_eq_some_iff.mp h
    cases h
  case isFalse hecho =>
    obtain ⟨answer, hanswer, h⟩ := Option.bind_eq_some_iff.mp h
    obtain ⟨ttl, httl, h⟩ := Option.bind_eq_some_iff.mp h
    split at h
    case isTrue =>
      obtain ⟨call, -, h⟩ := Option.bind_eq_some_iff.mp h
      obtain ⟨-, hcalls⟩ := Prod.mk.inj (Option.some.inj h)
      exact absurd hcalls (by simp)
    case isFalse hone =>
      obtain ⟨r, -, h⟩ := Option.bind_eq_some_iff.mp h
      obtain ⟨⟨t, calls⟩, -, h⟩ := Option.bind_eq_some_iff.mp h
      obtain ⟨-, hcalls⟩ := Prod.mk.inj (Option.some.inj h)
      obtain ⟨rfl, -⟩ := List.append_eq_nil_iff.mp hcalls
      have hlocal : sendRouter = false := by
        cases sendRouter with
        | false => rfl
        | true =>
            obtain ⟨call, -, hcall⟩ := Option.map_eq_some_iff.mp hanswer
            cases hcall
      have hlen := isSome_load32.mp (Option.isSome_of_eq_some hdst)
      have hneeded : neededIp packet sendRouter = 34 := by
        rw [neededIp, hlocal, httl, if_neg (by simp [isEcho]), if_neg]
        rintro (hfalse | hsome)
        · cases hfalse
        · exact hone (Option.some.inj hsome)
      rw [hneeded]
      exact hlen

/-- An ARP packet that is too short and has no effect. -/
theorem harmlessArp_of_handleArp {now : Int}
    (htype : load16 packet 12 = some (swap16 ethertypeArp))
    (h : handleArp sr packet interface now = some (sr, [])) :
    42 ≤ packet.length ∨ HarmlessArp sr packet := by
  obtain ⟨op, hop, h⟩ := Option.bind_eq_some_iff.mp h
  split at h
  case isTrue =>
    obtain ⟨inter, -, h⟩ := Option.bind_eq_some_iff.mp h
    obtain ⟨tip, htip, -⟩ := Option.bind_eq_some_iff.mp h
    exact .inl (isSome_load32.mp (Option.isSome_of_eq_some htip))
  case isFalse hrequest =>
    refine .inr ⟨htype, op, hop, hrequest, fun hreply => ?_⟩
    rw [if_pos hreply] at h
    have hdefined := h
    obtain ⟨sha, hsha, hdefined⟩ := Option.bind_eq_some_iff.mp hdefined
    obtain ⟨sip, hsip, -⟩ := Option.bind_eq_some_iff.mp hdefined
    exact ⟨sip, hsip, (handleReply_eq_self_iff hsha hsip).mp h⟩

theorem not_outside_of_not_overrun {env : Env}
    (h : ¬Overrun sr (fun _ => defined (srGetInterface sr interface)) packet) :
    ¬Outside (Checked.srHandlepacket sr (fun _ => defined (srGetInterface sr interface)) packet
      interface env) := by
  intro hout
  have hviolates := violates_iff.mpr (.inl hout)
  rw [violates_srHandlepacket fun _ _ => not_violates_defined _] at hviolates
  exact h hviolates

theorem frameSafe_of_harmlessArp {env : Env}
    (h : HarmlessArp sr packet) : FrameSafe sr packet interface env := by
  obtain ⟨htype, op, hop, hrequest, hreply⟩ := h
  have hip : swap16 (swap16 ethertypeArp) ≠ ethertypeIp := by decide
  have harp : swap16 (swap16 ethertypeArp) = ethertypeArp := swap16_swap16 _
  constructor
  · apply not_outside_of_not_overrun
    rw [Overrun, htype]
    simp only [if_neg hip, if_pos harp, hop, if_neg hrequest]
    rintro ⟨hop', hshort⟩
    obtain ⟨sip, hsip, -⟩ := hreply hop'
    have hlen := isSome_load32.mp (Option.isSome_of_eq_some hsip)
    omega
  · intro _
    simp only [srHandlepacket, htype, Option.bind_eq_bind, Option.bind_some, if_neg hip, if_pos harp,
      handleArp, hop, if_neg hrequest]
    split
    case isTrue hop' =>
      obtain ⟨sip, hsip, hquiet⟩ := hreply hop'
      have hlen := isSome_load32.mp (Option.isSome_of_eq_some hsip)
      obtain ⟨sha, hsha⟩ := exists_load48 (show 22 + 6 ≤ packet.length by omega)
      exact (handleReply_eq_self_iff hsha hsip).mpr hquiet
    case isFalse => rfl

/-- No frame is compared with what it needs: only frames that have all of it are safe, and ARP
packets that nothing is done with. -/
theorem frameSafe_iff (sr : SrInstance) (frame : List Byte) (interface : IfName) (env : Env) :
    FrameSafe sr frame interface env ↔
      neededLen sr frame ≤ frame.length ∨ HarmlessArp sr frame := by
  constructor
  · rintro ⟨-, hdropped⟩
    rw [or_iff_not_imp_left]
    intro hlt
    have h := hdropped (Nat.not_le.mp hlt)
    obtain ⟨etherType, htype, h⟩ := Option.bind_eq_some_iff.mp h
    split at h
    case isTrue hip =>
      rw [neededLen_ip htype hip] at hlt
      exact absurd (neededIp_le_of_handleIp h) hlt
    case isFalse hip =>
      split at h
      case isTrue harp =>
        rw [neededLen_arp htype harp] at hlt
        have hswap : load16 frame 12 = some (swap16 ethertypeArp) := by
          rw [← harp, swap16_swap16, htype]
        exact (harmlessArp_of_handleArp hswap h).resolve_left hlt
      case isFalse harp =>
        rw [neededLen, htype] at hlt
        simp only [if_neg hip, if_neg harp] at hlt
        exact absurd (isSome_load16.mp (Option.isSome_of_eq_some htype)) hlt
  · rintro (hfits | hharmless)
    · constructor
      · apply not_outside_of_not_overrun
        exact fun hover => absurd hfits (Nat.not_le.mpr (lt_neededLen_of_overrun hover))
      · exact fun hlt => absurd hfits (Nat.not_le.mpr hlt)
    · exact frameSafe_of_harmlessArp hharmless

/-- A UDP packet for the interface `eth3` that ends with its IP header. -/
def bareFrame : List Byte :=
  le48 eth3.addr ++ le48 9 ++ le16 (swap16 ethertypeIp) ++
    [0x45, 0, 0, 20, 0, 0, 0, 0, 64, 17, 0, 0] ++ le32 0x0202a8c0 ++ le32 eth3.ip

/-- The type of an empty frame is read, and 28 bytes of a packet that has twenty. -/
theorem not_frameSafe_short :
    ¬FrameSafe (srInit [eth3] [hostRoute]) [] eth3.name ⟨10, 0, 0⟩ ∧
      ¬FrameSafe (srInit [eth3] [hostRoute]) bareFrame eth3.name ⟨10, 0, 0⟩ := by
  constructor
  · intro h
    exact h.inBounds ⟨12, 2, rfl⟩
  · intro h
    exact h.inBounds ⟨14, 28, rfl⟩

end NetworkStack.Router
