import NetworkStack.Stcp.Iteration
import NetworkStack.Stcp.TransportInit

/-!
# Close requests and FINs

A wait that returns `APP_CLOSE_REQUESTED` has cleared the request, so the FIN must be
sent before the next wait. The loop does so. The waits of the handshake also return
the event, and nothing behind them looks at it.
-/

namespace NetworkStack.Stcp

open Transition

/-- The segment is a FIN. -/
def isFinData (data : List Byte) : Bool := (STCPHeader.ofBytes data).thFlags = thFIN

/-- The number of FINs sent before the next wait. -/
def finsUntilWait : List Call → Nat
  | [] => 0
  | .waitReturned _ :: _ => 0
  | .sent data :: rest => (if isFinData data then 1 else 0) + finsUntilWait rest

/-- Each close event that a wait returned is answered by exactly one FIN before the
next wait. -/
def CloseAnswered : List Call → Prop
  | [] => True
  | .waitReturned event :: rest =>
      (event.appCloseRequested = true → finsUntilWait rest = 1) ∧ CloseAnswered rest
  | .sent _ :: rest => CloseAnswered rest

/-- The datagram at the head of the queue, if it is taken for data, has a length that
the data branch can handle. -/
def HeadFits (ctx : MysockContext) : Prop :=
  ∀ pk ∈ ctx.networkRecvQueue.head?, pk.isData = true →
    headerLen ≤ pk.data.length ∧ pk.data.length ≤ headerLen + stcpMss

/-- No wait of the handshake returns the close event, and no iteration that is woken
by it has to handle a data segment of an impossible length. -/
def CloseSafe (s : TransportThread) : ThreadAction → Prop
  | .run _ =>
      match s.thread with
      | .handshake call ctx _ =>
          ∀ w ∈ call.wait, (pendingEvents ctx w.1).appCloseRequested = false
      | .controlLoop e =>
          (pendingEvents e.toMysockContext e.eventChosen).appCloseRequested = true →
          (pendingEvents e.toMysockContext e.eventChosen).networkData = true →
            HeadFits e.toMysockContext
      | .undefined => True
  | _ => True

instance decidableCloseAnswered (log : List Call) : Decidable (CloseAnswered log) :=
  match log with
  | [] => .isTrue trivial
  | .waitReturned event :: rest =>
      let _ := decidableCloseAnswered rest
      inferInstanceAs (Decidable ((event.appCloseRequested = true → finsUntilWait rest = 1) ∧
        CloseAnswered rest))
  | .sent _ :: rest => decidableCloseAnswered rest

instance (ctx : MysockContext) : Decidable (HeadFits ctx) := by
  unfold HeadFits
  infer_instance

instance decidableCloseSafe : ∀ (s : TransportThread) (a : ThreadAction), Decidable (CloseSafe s a)
  | ⟨.handshake call ctx _, _⟩, .run _ => inferInstanceAs (Decidable
      (∀ w ∈ call.wait, (pendingEvents ctx w.1).appCloseRequested = false))
  | ⟨.controlLoop e, _⟩, .run _ => inferInstanceAs (Decidable
      ((pendingEvents e.toMysockContext e.eventChosen).appCloseRequested = true →
      (pendingEvents e.toMysockContext e.eventChosen).networkData = true →
        HeadFits e.toMysockContext))
  | ⟨.undefined, _⟩, .run _ | _, .mywrite _ | _, .myclose | _, .deliver _ => .isTrue trivial

/-! ## The log -/

theorem finsUntilWait_append_wait (log rest : List Call) (event : Events) :
    finsUntilWait (log ++ .waitReturned event :: rest) = finsUntilWait log := by
  induction log with
  | nil => rfl
  | cons c log ih =>
      cases c with
      | waitReturned ev => rfl
      | sent data => simp only [List.cons_append, finsUntilWait, ih]

theorem finsUntilWait_sent (sends : List (List Byte)) :
    finsUntilWait (sends.map .sent) = sends.countP isFinData := by
  induction sends with
  | nil => rfl
  | cons data sends ih =>
      simp only [List.map_cons, finsUntilWait, ih, List.countP_cons]
      omega

theorem closeAnswered_sent (sends : List (List Byte)) : CloseAnswered (sends.map .sent) := by
  induction sends with
  | nil => trivial
  | cons data sends ih => exact ih

/-- A further wait closes the account of those before it. -/
theorem closeAnswered_append_wait (log rest : List Call) (event : Events) :
    CloseAnswered (log ++ .waitReturned event :: rest) ↔
      CloseAnswered log ∧ CloseAnswered (.waitReturned event :: rest) := by
  induction log with
  | nil => simp [CloseAnswered]
  | cons c log ih =>
      cases c with
      | waitReturned ev =>
          simp only [List.cons_append, CloseAnswered, finsUntilWait_append_wait, and_assoc] at ih ⊢
          rw [ih]
      | sent data => exact ih

/-- Segments other than FINs change no account. -/
theorem closeAnswered_append_sent (log : List Call) {sends : List (List Byte)}
    (h : ∀ data ∈ sends, isFinData data = false) :
    CloseAnswered (log ++ sends.map .sent) ↔ CloseAnswered log := by
  have hzero : finsUntilWait (sends.map .sent) = 0 := by
    rw [finsUntilWait_sent, List.countP_eq_zero]
    exact fun data hd => by simp [h data hd]
  have hkeep (log : List Call) :
      finsUntilWait (log ++ sends.map .sent) = finsUntilWait log := by
    induction log with
    | nil => exact hzero
    | cons c log ih =>
        cases c with
        | waitReturned ev => rfl
        | sent data => simp only [List.cons_append, finsUntilWait, ih]
  induction log with
  | nil => exact ⟨fun _ => trivial, fun _ => closeAnswered_sent sends⟩
  | cons c log ih =>
      cases c with
      | waitReturned ev => simp only [List.cons_append, CloseAnswered, hkeep, ih]
      | sent data => exact ih

/-! ## The thread -/

/-- An endpoint with an empty record, to speak of its iterations. -/
def Party.ofEndpoint (e : Endpoint) : Party :=
  { Connection.startParty 0 with toEndpoint := e }

theorem countP_isFinData (it : Iteration) :
    (it.replies ++ it.segments ++ it.fins).countP isFinData = it.packets.countP Packet.isFin := by
  have hdata : it.packets.map Packet.data = it.replies ++ it.segments ++ it.fins := by
    simp [Iteration.packets, answers, unprompted, Function.comp_def]
  rw [← hdata, List.countP_map]
  rfl

/-- An iteration sends one FIN if it was woken to close, and none otherwise. -/
theorem body_fins {p : Party} {uninit : BitVec 32} {it : Iteration}
    (h : controlLoopBody p.toEndpoint uninit = .ok it) :
    it.packets.countP Packet.isFin = if p.events.appCloseRequested then 1 else 0 := by
  obtain ⟨p₁, out₁, p₂, out₂, hnet, happ, hfin⟩ := body_split h
  have hout₁ : out₁.countP Packet.isFin = 0 := by
    obtain ⟨-, hmove⟩ | ⟨-, -, rfl⟩ := Taken.of_networkData hnet
    · obtain ⟨pk, hh⟩ := hmove.handled
      rw [List.countP_eq_zero]
      intro r hr
      simp [Packet.isFin_of_isAck (hh.replies r hr).1]
    · rfl
  have hout₂ : out₂.countP Packet.isFin = 0 := by
    obtain ⟨-, hmove⟩ | ⟨-, -, rfl⟩ := Taken.of_appData happ
    · cases hmove with
      | drain => rfl
      | @send app _ _ =>
          have hdata := isData_dataHeader p₁ uninit app .application
          simp [Packet.isFin_of_isData hdata]
    · rfl
  cases hclose : p.events.appCloseRequested with
  | false =>
      rw [hclose] at hfin
      obtain ⟨-, hpackets⟩ := Prod.mk.inj (hfin.trans (if_neg Bool.false_ne_true))
      simp [hpackets, hout₁, hout₂]
  | true =>
      rw [hclose] at hfin
      obtain ⟨-, hpackets⟩ := Prod.mk.inj (hfin.trans (if_pos rfl))
      simp [hpackets, hout₁, hout₂, close_eq]

/-- A data segment that was handled had a possible length. -/
theorem NetworkMove.fits {p q : Party} {uninit : BitVec 32} {out : List Packet} {pk : Packet}
    (h : NetworkMove p uninit q out) (hpk : p.networkRecvQueue.head? = some pk)
    (hdata : pk.isData = true) :
    headerLen ≤ pk.data.length ∧ pk.data.length ≤ headerLen + stcpMss := by
  have hack := Packet.isAck_of_isData hdata
  have hfin := Packet.isFin_of_isData hdata
  cases h with
  | @data pk' rest hq _ hmin hmax =>
      obtain rfl := Party.eq_head hpk hq
      exact ⟨hmin, hmax⟩
  | _ => simp_all

/-- An iteration that is woken to close completes exactly if it can handle the
datagram before it, if there is one. -/
theorem body_ok_iff_of_close {p : Party} (uninit : BitVec 32)
    (hclose : p.events.appCloseRequested = true) :
    (∃ it, controlLoopBody p.toEndpoint uninit = .ok it) ↔
      (p.events.networkData = true → HeadFits p.toMysockContext) := by
  constructor
  · rintro ⟨it, hit⟩ hnet pk hpk hdata
    obtain ⟨p₁, out₁, -, -, hmove, -, -⟩ := body_split hit
    obtain ⟨-, hmove⟩ | ⟨hnone, -⟩ := Taken.of_networkData hmove
    · exact hmove.fits hpk hdata
    · exact absurd (hnone.symm.trans hnet) (by decide)
  · intro hfits
    have hempty : p.appRecvQueue = [] := by
      have hand : p.closeRequested = true ∧ p.appRecvQueue = [] := by
        simpa [Party.events, pendingEvents] using hclose
      exact hand.2
    apply body_enabled uninit
    · simp [Events.nonzero, hclose]
    · intro hnet
      have hne : p.networkRecvQueue ≠ [] := by
        intro hnil
        simp [Party.events, pendingEvents, hnil] at hnet
      obtain ⟨pk, rest, hq⟩ := List.exists_cons_of_ne_nil hne
      apply networkData_defined uninit (p := p.waited) hq
      exact hfits hnet pk (by simp [hq])
    · intro p₁ out₁ _ happ
      simp [Party.events, pendingEvents, hempty] at happ

/-- In the handshake a close event is never answered. -/
theorem closeAnswered_runHandshake {log : List Call} {call : HandshakeCall} {ctx : MysockContext}
    {isn uninit : BitVec 32} {t : TransportThread}
    (h : TransportThread.runHandshake log call ctx isn uninit = some t) :
    CloseAnswered t.log ↔ CloseAnswered log ∧
      ∀ w ∈ call.wait, (pendingEvents ctx w.1).appCloseRequested = false := by
  unfold TransportThread.runHandshake at h
  split at h
  · rename_i flags next hwait
    unfold stcpWaitForEvent at h
    simp only at h
    split at h
    · cases h
    · rename_i event ctx' hevent
      obtain rfl := Option.some.inj h
      have hev : event = pendingEvents ctx flags := by
        split at hevent
        · exact (Prod.mk.inj (Except.ok.inj hevent)).1.symm
        · cases hevent
      simp [closeAnswered_append_wait, CloseAnswered, finsUntilWait, hwait, hev]
  · rename_i hwait
    split at h
    · cases h
    · rename_i packet rest hq
      obtain ⟨r, hr, rfl⟩ := Option.map_eq_some_iff.mp h
      have hsends : ∀ data ∈ r.1, isFinData data = false := by
        unfold handshakeRecv at hr
        split at hr <;> try cases hr
        all_goals simp [isFinData, thACK, thSYN, thFIN]
      simp [closeAnswered_append_sent log hsends, hwait]

/-- In the loop a close event is answered unless the iteration does not complete. -/
theorem closeAnswered_runControlLoop {log : List Call} {e : Endpoint} {uninit : BitVec 32}
    {t : TransportThread} (h : TransportThread.runControlLoop log e uninit = some t) :
    CloseAnswered t.log ↔ CloseAnswered log ∧
      ((pendingEvents e.toMysockContext e.eventChosen).appCloseRequested = true →
        (pendingEvents e.toMysockContext e.eventChosen).networkData = true →
          HeadFits e.toMysockContext) := by
  unfold TransportThread.runControlLoop at h
  split at h
  · cases h
  split at h
  · cases h
  rename_i event ctx' hevent
  have hev : event = (Party.ofEndpoint e).events := by
    unfold stcpWaitForEvent at hevent
    simp only at hevent
    split at hevent
    · exact (Prod.mk.inj (Except.ok.inj hevent)).1.symm
    · cases hevent
  have hiff := body_ok_iff_of_close (p := Party.ofEndpoint e) uninit
  split at h
  · rename_i err hbody
    obtain rfl := Option.some.inj h
    rw [closeAnswered_append_wait, hev]
    apply and_congr_right
    intro _
    constructor
    · intro hlog hclose
      exact absurd (hlog.1 hclose) (by decide)
    · intro hfits
      refine ⟨fun hclose => ?_, trivial⟩
      obtain ⟨it, hit⟩ := (hiff hclose).mpr (hfits hclose)
      exact absurd (hbody.symm.trans hit) (by simp)
  · rename_i it hbody
    obtain rfl := Option.some.inj h
    rw [closeAnswered_append_wait]
    apply and_congr_right
    intro _
    constructor
    · intro _ hclose
      exact (hiff hclose).mp ⟨it, hbody⟩
    · intro _
      refine ⟨fun hclose => ?_, closeAnswered_sent _⟩
      rw [body_event (p := Party.ofEndpoint e) hbody] at hclose
      rw [finsUntilWait_sent, countP_isFinData, body_fins (p := Party.ofEndpoint e) hbody, hclose]
      rfl

/-- One step answers all close events exactly if it meets the condition. -/
theorem closeAnswered_step {s t : TransportThread} {a : ThreadAction}
    (hs : CloseAnswered s.log) (h : s.step a = some t) :
    CloseAnswered t.log ↔ CloseSafe s a := by
  cases a with
  | mywrite buf =>
      obtain ⟨ctx, -, h⟩ := Option.bind_eq_some_iff.mp h
      split at h
      · cases h
      · obtain rfl := Option.some.inj h
        exact iff_of_true hs trivial
  | myclose =>
      obtain ⟨ctx, -, rfl⟩ := Option.map_eq_some_iff.mp h
      exact iff_of_true hs trivial
  | deliver data =>
      obtain ⟨ctx, -, rfl⟩ := Option.map_eq_some_iff.mp h
      exact iff_of_true hs trivial
  | run uninit =>
      obtain ⟨thread, log⟩ := s
      cases thread with
      | handshake call ctx isn =>
          rw [closeAnswered_runHandshake h]
          exact and_iff_right hs
      | controlLoop e =>
          rw [closeAnswered_runControlLoop h]
          exact and_iff_right hs
      | undefined => cases h

/-- In a run of a transport thread every close event is answered by exactly one FIN if
and only if every step meets the condition. -/
theorem closeAnswered_iff_closeSafe {isActive : Bool} {isn uninit : BitVec 32}
    {acts : List ThreadAction} {t : TransportThread}
    (h : exec TransportThread.step (.transportInit isActive isn uninit) acts = some t) :
    Always TransportThread.step (fun s => CloseAnswered s.log)
        (.transportInit isActive isn uninit) acts ↔
      Guarded TransportThread.step CloseSafe (.transportInit isActive isn uninit) acts := by
  apply always_iff_guarded (I := fun _ => True) (fun _ _ _ _ _ => trivial)
    (fun _ _ _ _ hs hstep => closeAnswered_step hs hstep) trivial
  · cases isActive <;> trivial
  · exact h

/-- The bytes of a segment that is only a header with these flags. -/
def bareSegment (flags : BitVec 8) : List Byte :=
  STCPHeader.toBytes { thSeq := 0, thAck := 0, thFlags := flags }

/-- The application closes after the handshake. -/
def closeAfterHandshake : List ThreadAction :=
  [.deliver (bareSegment (thACK + thSYN)), .run 0, .run 0, .myclose, .run 0]

theorem closeAnswered_closeAfterHandshake :
    Always TransportThread.step (fun s => CloseAnswered s.log)
      (.transportInit true 0 0) closeAfterHandshake := by
  have hsome : (exec TransportThread.step (.transportInit true 0 0) closeAfterHandshake).isSome =
      true := by decide +kernel
  obtain ⟨t, ht⟩ := Option.isSome_iff_exists.mp hsome
  exact (closeAnswered_iff_closeSafe ht).mpr (by decide +kernel)

/-- The application closes while the accepting side waits for the SYN. -/
def closeInHandshake : List ThreadAction :=
  [.myclose, .run 0, .deliver (bareSegment thSYN), .run 0, .deliver (bareSegment thACK), .run 0,
    .run 0]

/-- The thread enters the loop with the request gone and no FIN sent. -/
theorem not_closeAnswered_closeInHandshake :
    ∃ t, exec TransportThread.step (.transportInit false 0 0) closeInHandshake = some t ∧
      ¬CloseAnswered t.log ∧ t.thread.context.map MysockContext.closeRequested = some false := by
  have hrun : (exec TransportThread.step (.transportInit false 0 0) closeInHandshake).map
      (fun t => (decide (CloseAnswered t.log),
        t.thread.context.map MysockContext.closeRequested)) = some (false, some false) := by
    decide +kernel
  obtain ⟨t, ht, hvals⟩ := Option.map_eq_some_iff.mp hrun
  obtain ⟨hlog, hreq⟩ := Prod.mk.inj hvals
  exact ⟨t, ht, of_decide_eq_false hlog, hreq⟩

end NetworkStack.Stcp
