import NetworkStack.Lib.Greedy
import NetworkStack.Router.Forwarding

/-!
# Asking again

From the time a request is created, `handle_arpreq` is called for it when a packet is queued and
when the thread of the cache comes by. A call that is more than one second after the last ARP
request sends another one, up to five; from then on the calls have no effect, and the request
stays on the list with its packets.
-/

namespace NetworkStack.Router

open Bytes Buffer Transition SrArpcache KeyedList Greedy

/-- More than one second later. -/
def Later (a b : Int) : Prop := b - a > 1

instance (a b : Int) : Decidable (Later a b) := by
  unfold Later
  infer_instance

inductive RequestEvent where
  | handleArpreq (now : Int)
  | queuereq (ip : Addr) (packet : List Byte) (iface : IfName)
  deriving DecidableEq, Repr

/-- The packets that are queued have an Ethernet header, and their interface exists. -/
def RequestEvent.Allowed (sr : SrInstance) : RequestEvent → Prop
  | .handleArpreq _ => True
  | .queuereq _ packet iface => etherLen ≤ packet.length ∧ (srGetInterface sr iface).isSome

/-- A call of `handle_arpreq`. -/
structure ArpreqCall where
  now : Int
  before : SrInstance
  after : SrInstance
  calls : List SendCall

/-- The router, and the calls for one request so far. -/
structure RequestRun where
  sr : SrInstance
  log : List ArpreqCall

/-- The call sends an ICMP host unreachable to the source of the packet. -/
structure IsHostUnreachable (call : SendCall) (p : SrPacket) : Prop where
  type : load16 call.buf 12 = some (swap16 ethertypeIp)
  proto : load8 call.buf 23 = some ipProtocolIcmp
  icmpType : load8 call.buf 34 = some 3
  icmpCode : load8 call.buf 35 = some 1
  dst : load32 call.buf 30 = load32 p.buf 26

/-- The times at which ARP requests were sent. -/
def transmissions (log : List ArpreqCall) : List Int :=
  (log.filter fun c => c.calls.any (·.origin = .arpRequest)).map ArpreqCall.now

/-- The call is more than one second after the fifth ARP request. -/
def Overdue (log : List ArpreqCall) (c : ArpreqCall) : Prop :=
  (transmissions log).length = 5 ∧ ∀ sent ∈ transmissions log, Later sent c.now

/-- At most five ARP requests are sent for the request, each more than a second after the one
before. The first call that is more than a second after the fifth tells the sources of the
packets, and removes the request. -/
structure GivesUp (id : Nat) (log : List ArpreqCall) : Prop where
  atMost : (transmissions log).length ≤ 5
  apart : (transmissions log).Pairwise Later
  first : ∀ k c, log[k]? = some c → Overdue (log.take k) c →
    (∀ j < k, ∀ d, log[j]? = some d → ¬Overdue (log.take j) d) →
    ∃ req, c.before.cache.requests.find? (·.id = id) = some req ∧
      List.Forall₂ IsHostUnreachable c.calls req.packets ∧
      c.after.cache.requests.find? (·.id = id) = none

/-- The times of the calls. -/
def callTimes (events : List RequestEvent) : List Int :=
  events.filterMap fun
    | .handleArpreq now => some now
    | .queuereq _ _ _ => none

/-! ## Times -/

theorem Later.le_left {a b c : Int} (hab : a ≤ b) (h : Later b c) : Later a c := by
  unfold Later at *
  omega

theorem Later.trans {a b c : Int} (hab : Later a b) (hbc : Later b c) : Later a c := by
  unfold Later at *
  omega

instance : IsTrans Int Later := ⟨fun _ _ _ => Later.trans⟩

/-- What is later than the last of a chain is later than all of it. -/
theorem forall_later_iff {a now : Int} {l : List Int} (hchain : List.IsChain Later (a :: l))
    (hne : l ≠ []) : (∀ x ∈ l, Later x now) ↔ Later (l.getLastD a) now := by
  induction l generalizing a with
  | nil => exact absurd rfl hne
  | cons b l ih =>
      rw [List.getLastD_cons, List.forall_mem_cons]
      have hbl := (List.isChain_cons_cons.mp hchain).2
      cases l with
      | nil => simp
      | cons c l =>
          rw [← ih hbl (List.cons_ne_nil c l)]
          refine ⟨And.right, fun hall => ⟨?_, hall⟩⟩
          exact (List.isChain_cons_cons.mp hbl).1.trans (hall c List.mem_cons_self)

theorem transmissions_append (log : List ArpreqCall) (c : ArpreqCall) :
    transmissions (log ++ [c]) =
      transmissions log ++ if c.calls.any (·.origin = .arpRequest) then [c.now] else [] := by
  unfold transmissions
  rw [List.filter_append, List.map_append, List.filter_cons, List.filter_nil]
  split <;> rfl

/-- An overdue call is an earlier one or the last. -/
theorem exists_overdue_append {log : List ArpreqCall} {c : ArpreqCall} :
    (∃ k d, (log ++ [c])[k]? = some d ∧ Overdue ((log ++ [c]).take k) d) ↔
      (∃ k d, log[k]? = some d ∧ Overdue (log.take k) d) ∨ Overdue log c := by
  constructor
  · rintro ⟨k, d, hk, hover⟩
    by_cases hlt : k < log.length
    · rw [List.getElem?_append_left hlt] at hk
      rw [List.take_append_of_le_length hlt.le] at hover
      exact .inl ⟨k, d, hk, hover⟩
    · right
      have hle := (List.getElem?_eq_some_iff.mp hk).1
      rw [List.length_append, List.length_singleton] at hle
      obtain rfl : k = log.length := by omega
      rw [List.getElem?_concat_length] at hk
      rw [List.take_left] at hover
      obtain rfl := Option.some.inj hk
      exact hover
  · rintro (⟨k, d, hk, hover⟩ | hover)
    · have hlt := (List.getElem?_eq_some_iff.mp hk).1
      refine ⟨k, d, ?_, ?_⟩
      · rw [List.getElem?_append_left hlt]
        exact hk
      · rw [List.take_append_of_le_length hlt.le]
        exact hover
    · refine ⟨log.length, c, List.getElem?_concat_length, ?_⟩
      rw [List.take_left]
      exact hover

/-! ## One request -/

section Request

variable {sr : SrInstance} {c : SrArpcache} {id : Nat} {req : SrArpreq}

/-- The request after an ARP request was sent for it. -/
def resent (now : Int) (req : SrArpreq) : SrArpreq :=
  { req with sent := now, timesSent := req.timesSent + 1 }

theorem keeps_resent (now : Int) : Keeps (resent now) where
  id _ := rfl
  ip _ := rfl
  packets _ h := h

theorem find_update {f : SrArpreq → SrArpreq} (hf : Keeps f)
    (hreq : c.requests.find? (·.id = id) = some req) :
    (c.update id f).requests.find? (·.id = id) = some (f req) := by
  rw [update_requests, find_map (keeps_pointwise hf).id, hreq, Option.map_some, pointwise,
    if_pos (key_of_find hreq).2]

/-- Queueing a packet leaves the times of a request as they are. -/
theorem find_queuereq {packet : List Byte} (hwf : c.WellFormed) (hp : packet ≠ []) (ip : Addr)
    (iface : IfName) (hreq : c.requests.find? (·.id = id) = some req) :
    ∃ req', (srArpcacheQueuereq c ip packet iface).1.requests.find? (·.id = id) = some req' ∧
      req'.timesSent = req.timesSent ∧ req'.sent = req.sent := by
  obtain ⟨hmem, hid⟩ := key_of_find hreq
  cases h : c.request ip with
  | some old =>
      rw [srArpcacheQueuereq_old hp h]
      have hf := @keeps_pointwise old.id _ (keeps_addPacket (queuedPacket packet iface))
      refine ⟨_, by rw [update_requests, find_map hf.id, hreq, Option.map_some], ?_⟩
      unfold pointwise
      split <;> exact ⟨rfl, rfl⟩
  | none =>
      rw [srArpcacheQueuereq_new hwf hp iface h]
      refine ⟨req, ?_, rfl, rfl⟩
      have hne : c.created ≠ id := by
        rw [← hid]
        exact (hwf.created req hmem).ne'
      rw [List.find?_cons_of_neg (by simpa using hne)]
      exact hreq

/-- A call sends an ARP request or has no effect. -/
theorem Queued.handleArpreq_resent (hq : Queued sr)
    (hreq : sr.cache.requests.find? (·.id = id) = some req) (now : Int) :
    (Later req.sent now ∧ req.timesSent < 5 ∧ ∃ call : SendCall, call.origin = .arpRequest ∧
      Router.handleArpreq sr id now =
        some ({ sr with cache := sr.cache.update id (resent now) }, [call])) ∨
    (¬(Later req.sent now ∧ req.timesSent < 5) ∧ Router.handleArpreq sr id now = some (sr, [])) := by
  obtain ⟨hmem, -⟩ := key_of_find hreq
  obtain ⟨p, rest, hp⟩ := List.exists_cons_of_ne_nil (hq.wellFormed.packets req hmem)
  have hwaits : p ∈ sr.cache.packetsFor req.ip := by
    have hrequest : sr.cache.request req.ip = some req := find_of_mem hq.wellFormed.ips hmem
    rw [packetsFor, hrequest, Option.elim_some, hp]
    exact List.mem_cons_self
  obtain ⟨interf, hinterf⟩ := Option.isSome_iff_exists.mp (hq.sendable req.ip p hwaits).2
  by_cases hlater : now - req.sent > 1
  · by_cases hfive : req.timesSent ≥ 5
    · refine .inr ⟨fun h => absurd h.2 (by omega), ?_⟩
      simp only [Router.handleArpreq, hreq, Option.bind_eq_bind, Option.bind_some, hlater, hfive, if_true,
        Option.pure_def]
    · refine .inl ⟨hlater, by omega, ⟨.arpRequest, arpRequestFrame interf (swap32 req.ip), p.iface⟩,
        rfl, ?_⟩
      simp only [Router.handleArpreq, hreq, Option.bind_eq_bind, Option.bind_some, hlater, hfive, if_true,
        if_false, hp, List.head?_cons, hinterf, Option.pure_def]
      rfl
  · refine .inr ⟨fun h => absurd h.1 hlater, ?_⟩
    simp only [Router.handleArpreq, hreq, Option.bind_eq_bind, Option.bind_some, hlater, if_false,
      Option.pure_def]

end Request

namespace RequestRun

variable {id : Nat} {s t : RequestRun} {e : RequestEvent} {now : Int}

def step (id : Nat) (s : RequestRun) : RequestEvent → Option RequestRun
  | .handleArpreq now => (Router.handleArpreq s.sr id now).map fun r =>
      { sr := r.1, log := s.log ++ [⟨now, s.sr, r.1, r.2⟩] }
  | .queuereq ip packet iface =>
      some { s with
        sr := { s.sr with cache := (srArpcacheQueuereq s.sr.cache ip packet iface).1 } }

/-- What holds of the request between two events. -/
structure Retrying (id : Nat) (s : RequestRun) : Prop where
  queued : Queued s.sr
  request : ∃ req, s.sr.cache.requests.find? (·.id = id) = some req ∧
    req.timesSent = (transmissions s.log).length ∧ req.sent = (transmissions s.log).getLastD 0
  /-- It is asked again as soon as it may be. -/
  sent : transmissions s.log = (greedy Later 0 (s.log.map ArpreqCall.now)).take 5
  /-- A call is overdue if there was time for a sixth ARP request. -/
  overdue : (∃ k c, s.log[k]? = some c ∧ Overdue (s.log.take k) c) ↔
    6 ≤ (greedy Later 0 (s.log.map ArpreqCall.now)).length
  kept : ∀ c ∈ s.log, (c.after.cache.requests.find? (·.id = id)).isSome

/-! ## The run -/

/-- The greedy choice with one more time. -/
theorem greedy_concat (ts : List Int) (now : Int) :
    greedy Later 0 (ts ++ [now]) =
      greedy Later 0 ts ++ if Later ((greedy Later 0 ts).getLastD 0) now then [now] else [] := by
  rw [greedy_append]
  rfl

/-- As long as there was no time for a sixth, all ARP requests were sent. -/
theorem Retrying.sent_eq (h : Retrying id s)
    (hlen : (greedy Later 0 (s.log.map ArpreqCall.now)).length ≤ 5) :
    transmissions s.log = greedy Later 0 (s.log.map ArpreqCall.now) :=
  h.sent.trans (List.take_of_length_le hlen)

/-- Whether a call is overdue is decided by the last ARP request. -/
theorem Retrying.overdue_iff (h : Retrying id s) {c : ArpreqCall} :
    Overdue s.log c ↔
      (transmissions s.log).length = 5 ∧ Later ((transmissions s.log).getLastD 0) c.now := by
  have hchain : List.IsChain Later (0 :: transmissions s.log) := by
    rw [h.sent]
    exact isChain_greedy.take (5 + 1)
  constructor
  · rintro ⟨hfive, hall⟩
    have hne : transmissions s.log ≠ [] := List.ne_nil_of_length_pos (by omega)
    exact ⟨hfive, (forall_later_iff hchain hne).mp hall⟩
  · rintro ⟨hfive, hlater⟩
    have hne : transmissions s.log ≠ [] := List.ne_nil_of_length_pos (by omega)
    exact ⟨hfive, (forall_later_iff hchain hne).mpr hlater⟩

/-- A call that sends an ARP request. -/
theorem Retrying.sends {req : SrArpreq} {call : SendCall} (h : Retrying id s)
    (hreq : s.sr.cache.requests.find? (·.id = id) = some req)
    (htimes : req.timesSent = (transmissions s.log).length)
    (hsent : req.sent = (transmissions s.log).getLastD 0)
    (hlater : Later req.sent now) (hfive : req.timesSent < 5) (horigin : call.origin = .arpRequest)
    (hhandle : Router.handleArpreq s.sr id now =
      some ({ s.sr with cache := s.sr.cache.update id (resent now) }, [call])) :
    Retrying id
      { sr := { s.sr with cache := s.sr.cache.update id (resent now) }
        log := s.log ++ [⟨now, s.sr, { s.sr with cache := s.sr.cache.update id (resent now) },
          [call]⟩] } := by
  have hlen : (transmissions s.log).length < 5 := htimes ▸ hfive
  have hall : transmissions s.log = greedy Later 0 (s.log.map ArpreqCall.now) := by
    apply h.sent_eq
    rw [h.sent, List.length_take] at hlen
    omega
  have hmore : transmissions (s.log ++ [⟨now, s.sr, { s.sr with
      cache := s.sr.cache.update id (resent now) }, [call]⟩]) = transmissions s.log ++ [now] := by
    rw [transmissions_append, if_pos (by simp [horigin])]
  have hgreedy : greedy Later 0 (s.log.map ArpreqCall.now ++ [now]) = transmissions s.log ++ [now] := by
    rw [greedy_concat, ← hall, if_pos (hsent ▸ hlater)]
  have hfind := find_update (keeps_resent now) hreq
  constructor
  · exact h.queued.handleArpreq hhandle
  · refine ⟨_, hfind, ?_, ?_⟩
    · rw [hmore, List.length_append, ← htimes]
      rfl
    · rw [hmore, List.getLastD_concat]
      rfl
  · rw [List.map_append, List.map_singleton, hgreedy, hmore, List.take_of_length_le]
    rw [List.length_append, List.length_singleton]
    omega
  · rw [exists_overdue_append, List.map_append, List.map_singleton, hgreedy, h.overdue, ← hall,
      List.length_append, List.length_singleton]
    constructor
    · rintro (hsix | ⟨hover, -⟩) <;> omega
    · omega
  · intro c hc
    obtain hc | hc := List.mem_append.mp hc
    · exact h.kept c hc
    · rw [List.mem_singleton.mp hc]
      exact Option.isSome_iff_exists.mpr ⟨_, hfind⟩

/-- A call that has no effect. -/
theorem Retrying.idle {req : SrArpreq} (h : Retrying id s)
    (hreq : s.sr.cache.requests.find? (·.id = id) = some req)
    (htimes : req.timesSent = (transmissions s.log).length)
    (hsent : req.sent = (transmissions s.log).getLastD 0)
    (hnot : ¬(Later req.sent now ∧ req.timesSent < 5)) :
    Retrying id { s with log := s.log ++ [⟨now, s.sr, s.sr, []⟩] } := by
  have hsame : transmissions (s.log ++ [⟨now, s.sr, s.sr, []⟩]) = transmissions s.log := by
    rw [transmissions_append, if_neg (by simp), List.append_nil]
  have hlen : (transmissions s.log).length =
      min 5 (greedy Later 0 (s.log.map ArpreqCall.now)).length := by
    rw [h.sent, List.length_take]
  constructor
  · exact h.queued
  · rw [hsame]
    exact ⟨req, hreq, htimes, hsent⟩
  · rw [hsame, h.sent, List.map_append, List.map_singleton, greedy_concat]
    by_cases hfive : 5 ≤ (greedy Later 0 (s.log.map ArpreqCall.now)).length
    · rw [List.take_append_of_le_length hfive]
    · have hnow : ¬Later ((greedy Later 0 (s.log.map ArpreqCall.now)).getLastD 0) now := by
        rw [← h.sent_eq (by omega), ← hsent]
        exact fun hlater => hnot ⟨hlater, by omega⟩
      rw [if_neg hnow, List.append_nil]
  · rw [exists_overdue_append, h.overdue, h.overdue_iff, List.map_append, List.map_singleton,
      greedy_concat, List.length_append]
    by_cases hsix : 6 ≤ (greedy Later 0 (s.log.map ArpreqCall.now)).length
    · exact ⟨fun _ => Nat.le_add_right_of_le hsix, fun _ => .inl hsix⟩
    · have hall := h.sent_eq (by omega)
      rw [← hall] at hsix ⊢
      split
      · rename_i hlater
        simp only [hlater, and_true, List.length_singleton]
        omega
      · rename_i hearly
        simp only [hearly, and_false, or_false, List.length_nil, Nat.add_zero]
  · intro c hc
    obtain hc | hc := List.mem_append.mp hc
    · exact h.kept c hc
    · rw [List.mem_singleton.mp hc]
      exact Option.isSome_iff_exists.mpr ⟨req, hreq⟩

theorem Retrying.queuereq {ip : Addr} {packet : List Byte} {iface : IfName} (h : Retrying id s)
    (hlen : etherLen ≤ packet.length) (hinter : (srGetInterface s.sr iface).isSome) :
    Retrying id { s with
      sr := { s.sr with cache := (srArpcacheQueuereq s.sr.cache ip packet iface).1 } } where
  queued := h.queued.queuereq ip hlen hinter
  request := by
    have hne : packet ≠ [] := by
      rintro rfl
      exact absurd hlen (by decide)
    obtain ⟨req, hreq, htimes, hsent⟩ := h.request
    obtain ⟨req', hreq', htimes', hsent'⟩ := find_queuereq h.queued.wellFormed hne ip iface hreq
    exact ⟨req', hreq', htimes'.trans htimes, hsent'.trans hsent⟩
  sent := h.sent
  overdue := h.overdue
  kept := h.kept

/-- Every event is handled, and only the cache changes. -/
theorem Retrying.step (h : Retrying id s) (he : e.Allowed s.sr) :
    ∃ t c, s.step id e = some t ∧ Retrying id t ∧ t.sr = { s.sr with cache := c } ∧
      t.log.map ArpreqCall.now = s.log.map ArpreqCall.now ++ callTimes [e] := by
  cases e with
  | handleArpreq now =>
      obtain ⟨req, hreq, htimes, hsent⟩ := h.request
      obtain ⟨hlater, hfive, call, horigin, hhandle⟩ | ⟨hnot, hhandle⟩ :=
        h.queued.handleArpreq_resent hreq now
      · refine ⟨_, s.sr.cache.update id (resent now), by rw [RequestRun.step, hhandle]; rfl,
          h.sends hreq htimes hsent hlater hfive horigin hhandle, rfl, List.map_append⟩
      · exact ⟨_, s.sr.cache, by rw [RequestRun.step, hhandle]; rfl,
          h.idle hreq htimes hsent hnot, rfl, List.map_append⟩
  | queuereq ip packet iface =>
      exact ⟨_, _, rfl, h.queuereq he.1 he.2, rfl, (List.append_nil _).symm⟩

theorem Retrying.exec {events : List RequestEvent} (h : Retrying id s)
    (he : ∀ e ∈ events, e.Allowed s.sr) :
    ∃ t, exec (RequestRun.step id) s events = some t ∧ Retrying id t ∧
      t.log.map ArpreqCall.now = s.log.map ArpreqCall.now ++ callTimes events := by
  induction events generalizing s with
  | nil => exact ⟨s, rfl, h, (List.append_nil _).symm⟩
  | cons e rest ih =>
      obtain ⟨u, c, hu, hretrying, hsr, htimes⟩ := h.step (he e List.mem_cons_self)
      have hrest : ∀ e ∈ rest, e.Allowed u.sr := by
        rw [hsr]
        exact fun e' he' => he e' (List.mem_cons_of_mem e he')
      obtain ⟨t, ht, hretrying', htimes'⟩ := ih hretrying hrest
      refine ⟨t, exec_cons.mpr ⟨u, hu, ht⟩, hretrying', ?_⟩
      rw [htimes', htimes, List.append_assoc]
      congr 1
      exact (List.filterMap_append).symm

theorem Retrying.givesUp_iff_length (h : Retrying id s) :
    GivesUp id s.log ↔ (greedy Later 0 (s.log.map ArpreqCall.now)).length < 6 := by
  constructor
  · intro hgives
    by_contra hsix
    have hover := h.overdue.mpr (by omega)
    classical
    obtain ⟨c, hc, hfirst⟩ := Nat.find_spec hover
    obtain ⟨req, -, -, hgone⟩ := hgives.first _ c hc hfirst
      fun j hj d hd hd' => Nat.find_min hover hj ⟨d, hd, hd'⟩
    have hkept := h.kept c (List.mem_of_getElem? hc)
    rw [hgone] at hkept
    cases hkept
  · intro hsix
    have hchain := @isChain_greedy Int Later 0 (s.log.map ArpreqCall.now) _
    refine ⟨?_, ?_, ?_⟩
    · rw [h.sent, List.length_take]
      omega
    · rw [h.sent]
      exact (List.pairwise_cons.mp hchain.pairwise).2.take
    · intro k c hc hover
      have hsix' := h.overdue.mp ⟨k, c, hc, hover⟩
      omega

/-- The request that is made for a packet when there is none for the address. -/
def start (sr : SrInstance) (ip : Addr) (packet : List Byte) (iface : IfName) : RequestRun where
  sr := { sr with cache := (srArpcacheQueuereq sr.cache ip packet iface).1 }
  log := []

theorem retrying_start {sr : SrInstance} {ip : Addr} {packet : List Byte} {iface : IfName}
    (hq : Queued sr) (hnew : sr.cache.request ip = none) (hlen : etherLen ≤ packet.length)
    (hinter : (srGetInterface sr iface).isSome) :
    Retrying (srArpcacheQueuereq sr.cache ip packet iface).2 (start sr ip packet iface) where
  queued := hq.queuereq ip hlen hinter
  request := by
    have hne : packet ≠ [] := by
      rintro rfl
      exact absurd hlen (by decide)
    unfold start
    rw [srArpcacheQueuereq_new hq.wellFormed hne iface hnew]
    exact ⟨_, List.find?_cons_of_pos (by simp), rfl, rfl⟩
  sent := rfl
  overdue := by simp [start, greedy]
  kept := nofun

/-- The calls for a request are as they should be exactly if there are no six of them of which
the first is after second 1 and each is more than a second after the one before: at the sixth
the router would have to give up. -/
theorem givesUp_iff {session : Session} {ifList : List SrIf} {routingTable : List SrRt}
    {acts : List MainAction} {sr : SrInstance} {ip : Addr} {packet : List Byte} {iface : IfName}
    {events : List RequestEvent}
    (h : Transition.exec (mainStep session) (srInit ifList routingTable) acts = some sr)
    (hnew : sr.cache.request ip = none) (hlen : etherLen ≤ packet.length)
    (hinter : (srGetInterface sr iface).isSome) (hevents : ∀ e ∈ events, e.Allowed sr)
    (htimes : (callTimes events).Pairwise (· ≤ ·)) :
    ∃ t, Transition.exec (step (srArpcacheQueuereq sr.cache ip packet iface).2)
        (start sr ip packet iface) events = some t ∧
      (GivesUp (srArpcacheQueuereq sr.cache ip packet iface).2 t.log ↔
        ¬∃ six : List Int, six.Sublist (callTimes events) ∧ six.length = 6 ∧
          List.IsChain Later (0 :: six)) := by
  have hstart := retrying_start (queued_exec h) hnew hlen hinter
  obtain ⟨t, ht, hretrying, hlog⟩ := hstart.exec hevents
  refine ⟨t, ht, ?_⟩
  have hleft : ∀ a b c : Int, a ≤ b → Later b c → Later a c := fun _ _ _ => Later.le_left
  rw [hretrying.givesUp_iff_length, hlog, exists_chain_iff hleft htimes, not_le]
  rfl

/-- Five ARP requests are sent for the host, and a call comes one second after the last. -/
theorem givesUp_five :
    ∃ t, Transition.exec (step 0)
        (start (srInit [eth3] [hostRoute]) (swap32 hostRoute.dest) hostFrame eth3.name)
        ([10, 12, 14, 16, 18, 19].map .handleArpreq) = some t ∧ GivesUp 0 t.log := by
  have hinit : Transition.exec (mainStep ⟨[], fun _ => none, true⟩) (srInit [eth3] [hostRoute]) [] =
      some (srInit [eth3] [hostRoute]) := rfl
  obtain ⟨t, ht, hiff⟩ := @givesUp_iff _ _ _ _ _ (swap32 hostRoute.dest) hostFrame eth3.name
    ([10, 12, 14, 16, 18, 19].map .handleArpreq) hinit rfl (by decide) (by decide)
    (by simp [RequestEvent.Allowed]) (by decide)
  refine ⟨t, ht, hiff.mpr ?_⟩
  rintro ⟨six, hsub, hlen, hchain⟩
  obtain rfl := hsub.eq_of_length hlen
  exact absurd hchain (by decide)

/-- One second later the router would have to give up. -/
theorem not_givesUp_sixth :
    ∃ t, Transition.exec (step 0)
        (start (srInit [eth3] [hostRoute]) (swap32 hostRoute.dest) hostFrame eth3.name)
        ([10, 12, 14, 16, 18, 20].map .handleArpreq) = some t ∧ ¬GivesUp 0 t.log := by
  have hstart : Retrying 0
      (start (srInit [eth3] [hostRoute]) (swap32 hostRoute.dest) hostFrame eth3.name) :=
    @retrying_start (srInit [eth3] [hostRoute]) (swap32 hostRoute.dest) hostFrame eth3.name
      (queued_srInit _ _) rfl (by decide) (by decide)
  obtain ⟨t, ht, hretrying, hlog⟩ :=
    @Retrying.exec _ _ ([10, 12, 14, 16, 18, 20].map .handleArpreq) hstart
      (by simp [RequestEvent.Allowed])
  refine ⟨t, ht, ?_⟩
  rw [hretrying.givesUp_iff_length, hlog]
  decide

end RequestRun

end NetworkStack.Router
