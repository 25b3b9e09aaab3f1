import NetworkStack.Router.HandlePacket

/-!
# Frames with a new Ethernet header

A packet that is sent on gets the Ethernet addresses of its next hop and of the interface
it leaves by. Such a frame passes the check of `sr_send_packet`.
-/

namespace NetworkStack.Router

open Bytes Buffer

variable {sr : SrInstance} {mac addr : Mac} {inter : SrIf} {buf rest : List Byte}

theorem srGetInterface_take (sr : SrInstance) (iface : IfName) :
    srGetInterface sr (iface.take srIfaceNamelen) = srGetInterface sr iface := by
  unfold srGetInterface
  rw [List.take_take, min_self]

/-- The two addresses are written in front of the type. -/
theorem store_addresses (mac addr : Mac) (h : etherLen ≤ buf.length) :
    ((store48 buf 6 addr).bind fun b => store48 b 0 mac) =
        some (le48 mac ++ (le48 addr ++ buf.drop 12)) ∧
      ((store48 buf 0 mac).bind fun b => store48 b 6 addr) =
        some (le48 mac ++ (le48 addr ++ buf.drop 12)) := by
  obtain ⟨d, s, t, hbuf, hd, hs, ht⟩ := exists_fields (show 6 + 6 + 0 ≤ buf.length by
    unfold etherLen at h
    omega)
  obtain rfl := List.eq_nil_of_length_eq_zero ht
  rw [List.append_nil] at hbuf
  have hpost : buf.drop (6 + 6 + 0) = buf.drop 12 := rfl
  rw [hpost] at hbuf
  have hdhost {x : List Byte} : store48 (d ++ x) 0 mac = some (le48 mac ++ x) :=
    store_append [] rfl hd
  have hshost {pre : List Byte} (hpre : pre.length = 6) :
      store48 (pre ++ (s ++ buf.drop 12)) 6 addr = some (pre ++ (le48 addr ++ buf.drop 12)) := by
    rw [← List.append_assoc, ← List.append_assoc]
    exact store_append pre hpre hs
  rw [List.append_assoc] at hbuf
  constructor
  · conv_lhs => rw [hbuf]
    rw [hshost hd, Option.bind_some, hdhost]
  · conv_lhs => rw [hbuf]
    rw [hdhost, Option.bind_some, hshost rfl]

theorem load48_dhost : load48 (le48 mac ++ rest) 0 = some mac :=
  load48_le48 [] mac rfl

theorem load48_shost : load48 (le48 mac ++ (le48 addr ++ rest)) 6 = some addr :=
  load48_le48 (le48 mac) addr rfl

theorem drop_addresses :
    (le48 mac ++ (le48 addr ++ buf.drop 12)).drop etherLen = buf.drop etherLen := by
  change (buf.drop 12).drop 2 = buf.drop etherLen
  rw [List.drop_drop]
  rfl

/-- The check of `sr_send_packet` on a frame with the address of its interface. -/
theorem srSendPacket_addresses {origin : Origin} {iface : IfName}
    (hinter : srGetInterface sr iface = some inter) (h : 2 ≤ rest.length) :
    srSendPacket sr ⟨origin, le48 mac ++ (le48 inter.addr ++ rest), iface⟩ = true := by
  have hlen : etherLen ≤ (le48 mac ++ (le48 inter.addr ++ rest)).length := by
    simp only [List.length_append, le48, List.length_cons, List.length_nil, etherLen]
    omega
  simp only [srSendPacket, hinter, load48_shost, hlen, decide_true, Bool.true_and, beq_self_eq_true]

/-- What a waiting packet is sent as. -/
theorem flushPacket_eq {p : SrPacket} (mac : Mac) (h : etherLen ≤ p.buf.length)
    (hinter : srGetInterface sr p.iface = some inter) :
    flushPacket sr mac p = some ⟨.flush,
      le48 mac ++ (le48 inter.addr ++ (le16 (swap16 ethertypeIp) ++ p.buf.drop etherLen)),
      p.iface⟩ := by
  obtain ⟨a, b, c, hbuf, ha, hb, hc⟩ := exists_fields (show 6 + 6 + 2 ≤ p.buf.length from h)
  have hab : (a ++ b).length = 12 := by
    rw [List.length_append, ha, hb]
  have htype : store16 p.buf 12 (swap16 ethertypeIp) =
      some (a ++ b ++ le16 (swap16 ethertypeIp) ++ p.buf.drop etherLen) := by
    conv_lhs => rw [hbuf]
    exact store_append (a ++ b) hab hc
  have hdrop : (a ++ b ++ le16 (swap16 ethertypeIp) ++ p.buf.drop etherLen).drop 12 =
      le16 (swap16 ethertypeIp) ++ p.buf.drop etherLen := by
    rw [List.append_assoc, List.drop_left' hab]
  have hlen : etherLen ≤ (a ++ b ++ le16 (swap16 ethertypeIp) ++ p.buf.drop etherLen).length := by
    rw [List.length_append, List.length_append, hab]
    exact Nat.le_add_right _ _
  have haddr := (store_addresses mac inter.addr hlen).1
  rw [hdrop] at haddr
  obtain ⟨buf', hshost, hdhost⟩ := Option.bind_eq_some_iff.mp haddr
  simp only [flushPacket, hinter, htype, hshost, hdhost, Option.bind_eq_bind, Option.bind_some,
    Option.pure_def]

/-- What a waiting packet is sent as, and that it is sent. -/
structure Flushed (sr : SrInstance) (mac : Mac) (call : SendCall) (p : SrPacket) : Prop where
  origin : call.origin = .flush
  iface : call.iface = p.iface
  dhost : load48 call.buf 0 = some mac
  type : load16 call.buf 12 = some (swap16 ethertypeIp)
  payload : call.buf.drop etherLen = p.buf.drop etherLen
  length : call.buf.length = p.buf.length
  passes : srSendPacket sr call = true

theorem flushLoop_spec {packets : List SrPacket} (mac : Mac)
    (h : ∀ p ∈ packets, etherLen ≤ p.buf.length ∧ (srGetInterface sr p.iface).isSome) :
    ∃ calls, flushLoop sr mac packets = some calls ∧
      List.Forall₂ (Flushed sr mac) calls packets := by
  induction packets with
  | nil => exact ⟨[], rfl, .nil⟩
  | cons p rest ih =>
      obtain ⟨calls, hcalls, hall⟩ := ih fun q hq => h q (List.mem_cons_of_mem p hq)
      obtain ⟨hlen, hinter⟩ := h p List.mem_cons_self
      obtain ⟨inter, hinter⟩ := Option.isSome_iff_exists.mp hinter
      have hp := flushPacket_eq mac hlen hinter
      refine ⟨_ :: calls, by rw [flushLoop, hp, hcalls]; rfl, ?_⟩
      apply List.Forall₂.cons _ hall
      exact
        { origin := rfl
          iface := rfl
          dhost := load48_dhost
          type := rfl
          payload := rfl
          length := by
            simp only [List.length_append, le48, le16, List.length_cons, List.length_nil,
              List.length_drop, etherLen] at hlen ⊢
            omega
          passes := srSendPacket_addresses hinter (by simp [le16]) }

/-- Each packet has its frame. -/
theorem exists_flushPacket {packets : List SrPacket} {calls : List SendCall} {p : SrPacket}
    (h : flushLoop sr mac packets = some calls) (hp : p ∈ packets) :
    ∃ call ∈ calls, flushPacket sr mac p = some call := by
  induction packets generalizing calls with
  | nil => cases hp
  | cons q rest ih =>
      obtain ⟨call, hcall, h⟩ := Option.bind_eq_some_iff.mp h
      obtain ⟨calls', hcalls, h⟩ := Option.bind_eq_some_iff.mp h
      obtain rfl := Option.some.inj h
      obtain rfl | hp := List.mem_cons.mp hp
      · exact ⟨call, List.mem_cons_self, hcall⟩
      · obtain ⟨call', hmem, hflush⟩ := ih hcalls hp
        exact ⟨call', List.mem_cons_of_mem _ hmem, hflush⟩

theorem exists_flushed {calls : List SendCall} {packets : List SrPacket} {call : SendCall}
    (h : List.Forall₂ (Flushed sr mac) calls packets) (hcall : call ∈ calls) :
    ∃ p ∈ packets, Flushed sr mac call p := by
  induction h with
  | nil => cases hcall
  | cons hp _ ih =>
      obtain rfl | hcall := List.mem_cons.mp hcall
      · exact ⟨_, List.mem_cons_self, hp⟩
      · obtain ⟨q, hq, hflushed⟩ := ih hcall
        exact ⟨q, List.mem_cons_of_mem _ hq, hflushed⟩

end NetworkStack.Router
