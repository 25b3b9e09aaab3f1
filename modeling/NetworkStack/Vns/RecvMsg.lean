import NetworkStack.Vns.PacketOut

/-!
# What the controller does with a message

`_handle_recv_msg` and the handlers it calls, down to the connections of the switches. A handler
may raise, and what it did before that stays done.

## Implementation notes

What is logged is left out: every message has a text. So is the thread of the deferred sender, which
only sends what it was given.
-/

namespace NetworkStack.Vns.RecvMsg

open Bytes Decimal

/-- An argument of `send`. -/
inductive PyObject where
  | message (ltm : VnsMessage)
  | str (s : List Byte)
  deriving DecidableEq

/-- How the `send` of a switch's socket ends. -/
inductive SockSend where
  | took (l : Nat)
  /-- `EAGAIN`. -/
  | again
  | failed
  deriving DecidableEq, Repr

/-- What a handler reads and does not change. -/
structure Environment where
  /-- The text of the connection: the address of its peer. -/
  peer : List Byte
  peer_short : peer.length < 2 ^ 16
  /-- The connections of the switches that listen. -/
  switches : List Nat
  sockSend : Nat → List Byte → SockSend

/-- What a handler changes. -/
structure World where
  listener : SrServerListener
  /-- What was written to the transport of the connection. -/
  written : List (List Byte)
  /-- `loseConnection` was called on it. -/
  losing : Bool
  /-- The events that were raised. -/
  events : List SrPacketOut
  nextXid : Xid
  /-- The flag `disconnected` of a switch's connection. -/
  disconnected : Nat → Bool
  /-- What the sockets of the switches took. -/
  sent : List (Nat × List Byte)
  /-- The flag `sending` of the deferred sender. -/
  deferring : Bool
  /-- What the deferred sender was given. -/
  deferred : List (Nat × List Byte)

abbrev Handler := ExceptT PyError (StateM World)

/-- How a handler ends, and what it leaves. -/
def Handler.result {α : Type} (h : Handler α) (w : World) : Except PyError α × World :=
  StateT.run (ExceptT.run h) w

/-! ## The handlers -/

/-- `pack_with_header` of anything. A `str` has no `pack`. -/
def packObject : PyObject → Except PyError (List Byte)
  | .str _ => .error .attributeError
  | .message ltm =>
      match packWithHeader ltm with
      | none => .error .packing
      | some buf => .ok buf

/-- `conn.send`. -/
def send (ltm : PyObject) : Handler Unit :=
  match packObject ltm with
  | .error e => throw e
  | .ok buf => modify fun w => { w with written := w.written ++ [buf] }

/-- `conn.transport.loseConnection`. -/
def loseConnection : Handler Unit := modify fun w => { w with losing := true }

/-- `_handle_close_msg`. -/
def handleCloseMsg : Handler Unit := do
  send (.str (text "Goodbyte!"))
  loseConnection

/-- The message of `_handle_auth_reply`. -/
def authStatus (env : Environment) : VnsMessage :=
  .vnsAuthStatus true (text "authenticated " ++ env.peer ++ text " as " ++ text "user")

/-- `_handle_auth_reply`. -/
def handleAuthReply (env : Environment) : Handler Unit := send (.message (authStatus env))

/-- `_handle_open_msg`. It is an `AttributeError` if there are no interfaces yet. -/
def handleOpenMsg : Handler Unit := do
  try
    match (← get).listener.interfaces with
    | none => throw .attributeError
    | some interfaces => send (.message (.vnsHardwareInfo interfaces))
  catch _ => pure ()

/-- `deferredSender.send`. -/
def deferredSend (connection : Nat) (data : List Byte) : Handler Unit :=
  modify fun w =>
    { w with deferring := true, deferred := w.deferred ++ [(connection, data)] }

/-- `pack` of a message that is sent. -/
def packOut (msg : OfpPacketOut) : Handler (List Byte) := do
  let (bytes, nextXid) := msg.pack (← get).nextXid
  modify fun w => { w with nextXid := nextXid }
  match bytes with
  | none => throw .packing
  | some data => return data

/-- `send` of a switch's connection. -/
def connectionSend (env : Environment) (connection : Nat) (msg : OfpPacketOut) :
    Handler Unit := do
  if (← get).disconnected connection then pure ()
  else
    let data ← packOut msg
    if (← get).deferring then deferredSend connection data
    else
      match env.sockSend connection data with
      | .took l =>
          modify fun w => { w with sent := w.sent ++ [(connection, data.take l)] }
          if l ≠ data.length then deferredSend connection (data.drop l)
      | .again => deferredSend connection data
      | .failed =>
          modify fun w => { w with disconnected := Function.update w.disconnected connection true }

/-- `_handle_SRPacketOut` of a switch. -/
def handleSrPacketOut (env : Environment) (event : SrPacketOut) (connection : Nat) :
    Handler Unit :=
  connectionSend env connection (ofpPacketOut event)

/-- `core.CSE425_srhandler.raiseEvent`. -/
def raiseEvent (env : Environment) (event : SrPacketOut) : Handler Unit := do
  modify fun w => { w with events := w.events ++ [event] }
  env.switches.forM (handleSrPacketOut env event)

/-- `_handle_packet_msg`. -/
def handlePacketMsg (env : Environment) (intfName ethernetFrame : List Byte) : Handler Unit := do
  match (← get).listener.handlePacketMsg intfName ethernetFrame with
  | .error e => throw e
  | .ok event => raiseEvent env event

/-- `_handle_recv_msg`. No class defines `_handle_open_template_msg`. -/
def handleRecvMsg (env : Environment) : Option VnsMessage → Handler Unit
  | none => handleCloseMsg
  | some (.vnsAuthReply ..) => handleAuthReply env
  | some (.vnsOpen ..) => handleOpenMsg
  | some (.vnsClose _) => handleCloseMsg
  | some (.vnsPacket intfName ethernetFrame) => handlePacketMsg env intfName ethernetFrame
  | some (.vnsOpenTemplate ..) => throw .attributeError
  | some _ => pure ()

/-! ## What they do -/

/-- The handler returns, closes the connection of a client that is done, and does nothing with a
frame for an interface that is not known. -/
structure Handled (env : Environment) (w : World) (msg : Option VnsMessage) : Prop where
  returns : ((handleRecvMsg env msg).result w).1 = .ok ()
  closes : (msg = none ∨ ∃ reason, msg = some (.vnsClose reason)) →
    ((handleRecvMsg env msg).result w).2.losing = true
  unknown : ∀ intfName ethernetFrame, msg = some (.vnsPacket intfName ethernetFrame) →
    w.listener.intfnameToPort intfName = none → ((handleRecvMsg env msg).result w).2 = w

/-- The messages that the handler is made for: a frame is for an interface that is known, and fits
the message for the switches, should one be connected. -/
def Accepted (env : Environment) (w : World) : Option VnsMessage → Prop
  | none => False
  | some (.vnsClose _) => False
  | some (.vnsOpenTemplate ..) => False
  | some (.vnsPacket intfName ethernetFrame) =>
      ∃ port, w.listener.intfnameToPort intfName = some port ∧
        (SrPacketOut.Fits ⟨ethernetFrame, port⟩ ∨ ∀ c ∈ env.switches, w.disconnected c = true)
  | some _ => True

/-- What no handler takes back. -/
structure World.Keeps (w w' : World) : Prop where
  listener : w'.listener = w.listener
  disconnected : ∀ c, w.disconnected c = true → w'.disconnected c = true

theorem World.Keeps.refl (w : World) : w.Keeps w := ⟨rfl, fun _ h => h⟩

theorem World.Keeps.trans {w₁ w₂ w₃ : World} (h : w₁.Keeps w₂) (h' : w₂.Keeps w₃) :
    w₁.Keeps w₃ where
  listener := h'.listener.trans h.listener
  disconnected := fun c hc => h'.disconnected c (h.disconnected c hc)

/-- An accepted message stays so. -/
theorem Accepted.keeps {env : Environment} {w w' : World} {msg : Option VnsMessage}
    (hkeeps : w.Keeps w') (h : Accepted env w msg) : Accepted env w' msg := by
  cases msg with
  | none => cases h
  | some msg =>
      cases msg with
      | vnsPacket intfName ethernetFrame =>
          obtain ⟨port, hport, hfits | hgone⟩ := h
          · exact ⟨port, hkeeps.listener ▸ hport, .inl hfits⟩
          · exact ⟨port, hkeeps.listener ▸ hport,
              .inr fun c hc => hkeeps.disconnected c (hgone c hc)⟩
      | _ => exact h

variable {env : Environment} {w w' : World}

theorem result_bind {α β : Type} {x : Handler α} {f : α → Handler β} {a : α}
    (h : x.result w = (.ok a, w')) : (x >>= f).result w = (f a).result w' := by
  simp only [Handler.result, ExceptT.run_bind, StateT.run_bind] at h ⊢
  rw [h]
  rfl

theorem result_bind_of_error {α β : Type} {x : Handler α} {e : PyError}
    (h : x.result w = (.error e, w')) (f : α → Handler β) :
    (x >>= f).result w = (.error e, w') := by
  simp only [Handler.result, ExceptT.run_bind, StateT.run_bind] at h ⊢
  rw [h]
  rfl

theorem result_get : Handler.result get w = (.ok w, w) := rfl

theorem result_catch (x : Handler Unit) (w : World) :
    (tryCatch x fun _ => pure ()).result w = (.ok (), (x.result w).2) := by
  cases h : x.result w with
  | mk r w' =>
      simp only [Handler.result, tryCatch, tryCatchThe, MonadExceptOf.tryCatch, ExceptT.tryCatch,
        ExceptT.run_mk, StateT.run_bind] at h ⊢
      rw [show StateT.run x w = (r, w') from h]
      cases r <;> rfl

theorem result_send_of_error {ltm : PyObject} {e : PyError} (h : packObject ltm = .error e) :
    (send ltm).result w = (.error e, w) := by
  rw [send, h]
  rfl

theorem result_send_of_ok {ltm : PyObject} {buf : List Byte} (h : packObject ltm = .ok buf) :
    (send ltm).result w = (.ok (), { w with written := w.written ++ [buf] }) := by
  rw [send, h]
  rfl

/-- A `send` writes to the transport, if it does anything. -/
theorem result_send (ltm : PyObject) (w : World) :
    ∃ written, ((send ltm).result w).2 = { w with written := written } := by
  cases h : packObject ltm with
  | error e => exact ⟨w.written, by rw [result_send_of_error h]⟩
  | ok buf => exact ⟨_, by rw [result_send_of_ok h]⟩

/-- The farewell raises, and the connection is not closed. -/
theorem result_handleCloseMsg (w : World) :
    handleCloseMsg.result w = (.error .attributeError, w) := rfl

/-- The status fits its length field. -/
theorem packWithHeader_authStatus (env : Environment) :
    ∃ buf, packWithHeader (authStatus env) = some buf := by
  let msg := text "authenticated " ++ env.peer ++ text " as " ++ text "user"
  have hlen : msg.length < 2 ^ 17 := by
    have hpeer := env.peer_short
    have htext : (text "authenticated ").length = 14 ∧ (text " as ").length = 4 ∧
        (text "user").length = 4 := by decide
    simp only [msg, List.length_append, htext]
    omega
  have hsize : packI (8 + ((1 : Byte) :: msg).length) = some _ :=
    if_pos (by rw [List.length_cons]; omega)
  have htype : packI (authStatus env).getType = some _ :=
    if_pos (show (0 : Int) ≤ 512 ∧ (512 : Int) < 2 ^ 32 by decide)
  have hpack : (authStatus env).pack = some (1 :: msg) := rfl
  rw [packWithHeader, hpack, Option.bind_eq_bind, Option.bind_some, hsize, Option.bind_some, htype,
    Option.bind_some]
  exact ⟨_, rfl⟩

theorem result_handleAuthReply (env : Environment) (w : World) :
    ∃ buf, (handleAuthReply env).result w = (.ok (), { w with written := w.written ++ [buf] }) := by
  obtain ⟨buf, hbuf⟩ := packWithHeader_authStatus env
  have hpack : packObject (.message (authStatus env)) = .ok buf := by rw [packObject, hbuf]
  exact ⟨buf, result_send_of_ok hpack⟩

/-- The handler of `VNSOpen` catches everything. -/
theorem result_handleOpenMsg (w : World) :
    ∃ written, handleOpenMsg.result w = (.ok (), { w with written := written }) := by
  rw [handleOpenMsg, result_catch, result_bind result_get]
  cases w.listener.interfaces with
  | none => exact ⟨w.written, rfl⟩
  | some interfaces =>
      obtain ⟨written, hsend⟩ := result_send (.message (.vnsHardwareInfo interfaces)) w
      exact ⟨written, congrArg (Prod.mk _) hsend⟩

theorem result_packOut (msg : OfpPacketOut) (w : World) :
    (packOut msg).result w =
      ((match (msg.pack w.nextXid).1 with | none => .error .packing | some data => .ok data),
        { w with nextXid := (msg.pack w.nextXid).2 }) := by
  cases hpack : msg.pack w.nextXid with
  | mk bytes nextXid =>
      rw [packOut, result_bind result_get, hpack]
      cases bytes <;> rfl

/-- What a connection that is lost is sent is dropped. -/
theorem result_connectionSend_of_lost {connection : Nat} (h : w.disconnected connection = true)
    (msg : OfpPacketOut) : (connectionSend env connection msg).result w = (.ok (), w) := by
  rw [connectionSend, result_bind result_get, if_pos h]
  rfl

theorem result_connectionSend_of_error {connection : Nat}
    (h : w.disconnected connection = false) {msg : OfpPacketOut}
    (hpack : (msg.pack w.nextXid).1 = none) :
    (connectionSend env connection msg).result w =
      (.error .packing, { w with nextXid := (msg.pack w.nextXid).2 }) := by
  have hout : (packOut msg).result w =
      (.error .packing, { w with nextXid := (msg.pack w.nextXid).2 }) := by
    rw [result_packOut, hpack]
  rw [connectionSend, result_bind result_get, if_neg (by simp [h]), result_bind_of_error hout]

theorem result_deferredSend (connection : Nat) (data : List Byte) (w : World) :
    (deferredSend connection data).result w =
      (.ok (), { w with deferring := true, deferred := w.deferred ++ [(connection, data)] }) := rfl

/-- A message that is packed goes to the socket or to the deferred sender, or the connection is
given up. -/
theorem result_connectionSend_of_some {connection : Nat} {msg : OfpPacketOut} {data : List Byte}
    (hpack : (msg.pack w.nextXid).1 = some data) :
    ∃ w', (connectionSend env connection msg).result w = (.ok (), w') ∧ w.Keeps w' := by
  rcases Bool.eq_false_or_eq_true (w.disconnected connection) with hlost | hup
  · exact ⟨w, result_connectionSend_of_lost hlost msg, .refl w⟩
  · have hout : (packOut msg).result w =
        (.ok data, { w with nextXid := (msg.pack w.nextXid).2 }) := by
      rw [result_packOut, hpack]
    rw [connectionSend, result_bind result_get, if_neg (by simp [hup]), result_bind hout,
      result_bind result_get]
    dsimp only
    split
    · exact ⟨_, result_deferredSend .., ⟨rfl, fun _ h => h⟩⟩
    · split
      · next l _ =>
        by_cases hall : l = data.length
        · rw [if_neg (not_not.mpr hall)]
          refine ⟨_, rfl, ?_⟩
          exact ⟨rfl, fun _ h => h⟩
        · rw [if_pos hall]
          refine ⟨_, rfl, ?_⟩
          exact ⟨rfl, fun _ h => h⟩
      · exact ⟨_, result_deferredSend .., ⟨rfl, fun _ h => h⟩⟩
      · refine ⟨_, rfl, ⟨rfl, fun c hc => ?_⟩⟩
        by_cases heq : c = connection
        · simp [heq]
        · simpa [heq] using hc

/-- A frame that fits reaches every switch, and one that does not is no matter to those that are
lost. -/
theorem result_switches (env : Environment) {event : SrPacketOut} {switches : List Nat}
    (h : event.Fits ∨ ∀ c ∈ switches, w.disconnected c = true) :
    ∃ w', (switches.forM (handleSrPacketOut env event)).result w = (.ok (), w') ∧ w.Keeps w' := by
  induction switches generalizing w with
  | nil => exact ⟨w, rfl, .refl w⟩
  | cons c rest ih =>
      obtain ⟨w₁, hfirst, hkeeps⟩ : ∃ w₁,
          (handleSrPacketOut env event c).result w = (.ok (), w₁) ∧ w.Keeps w₁ := by
        obtain hfits | hlost := h
        · obtain ⟨data, hpack⟩ :=
            Option.isSome_iff_exists.mp ((pack_isSome_iff_fits event w.nextXid).mpr hfits)
          exact result_connectionSend_of_some hpack
        · exact ⟨w, result_connectionSend_of_lost (hlost c List.mem_cons_self) _, .refl w⟩
      obtain ⟨w', hrest, hkeeps'⟩ := ih (w := w₁) (h.imp_right fun hlost c' hc' =>
        hkeeps.disconnected c' (hlost c' (List.mem_cons_of_mem c hc')))
      exact ⟨w', by rw [List.forM, result_bind hfirst, hrest], hkeeps.trans hkeeps'⟩

/-- A frame that does not fit raises at the first switch that is connected. -/
theorem lost_of_switches {event : SrPacketOut} (hfits : ¬event.Fits) {switches : List Nat}
    (h : ((switches.forM (handleSrPacketOut env event)).result w).1 = .ok ()) :
    ∀ c ∈ switches, w.disconnected c = true := by
  induction switches with
  | nil => exact List.forall_mem_nil _
  | cons c rest ih =>
      rw [List.forM] at h
      rcases Bool.eq_false_or_eq_true (w.disconnected c) with hlost | hup
      · have hfirst : (handleSrPacketOut env event c).result w = (.ok (), w) :=
          result_connectionSend_of_lost hlost _
        rw [result_bind hfirst] at h
        exact List.forall_mem_cons.mpr ⟨hlost, ih h⟩
      · have hpack : ((ofpPacketOut event).pack w.nextXid).1 = none :=
          Option.not_isSome_iff_eq_none.mp (mt (pack_isSome_iff_fits event w.nextXid).mp hfits)
        have hfirst : (handleSrPacketOut env event c).result w = (.error .packing, _) :=
          result_connectionSend_of_error hup hpack
        rw [result_bind_of_error hfirst] at h
        cases h

/-- The world after an event is on record. -/
def World.raised (w : World) (event : SrPacketOut) : World :=
  { w with events := w.events ++ [event] }

theorem result_raiseEvent (event : SrPacketOut) (w : World) :
    (raiseEvent env event).result w =
      (env.switches.forM (handleSrPacketOut env event)).result (w.raised event) := by
  have hevent : Handler.result (modify fun w : World => { w with events := w.events ++ [event] }) w =
      (.ok (), w.raised event) := rfl
  rw [raiseEvent, result_bind hevent]

theorem result_handlePacketMsg_of_none {intfName : List Byte} (ethernetFrame : List Byte)
    (h : w.listener.intfnameToPort intfName = none) :
    (handlePacketMsg env intfName ethernetFrame).result w = (.error .unboundLocalError, w) := by
  rw [handlePacketMsg, result_bind result_get, SrServerListener.handlePacketMsg, h]
  rfl

theorem result_handlePacketMsg_of_some {intfName : List Byte} (ethernetFrame : List Byte)
    {port : Nat} (h : w.listener.intfnameToPort intfName = some port) :
    (handlePacketMsg env intfName ethernetFrame).result w =
      (env.switches.forM (handleSrPacketOut env ⟨ethernetFrame, port⟩)).result
        (w.raised ⟨ethernetFrame, port⟩) := by
  rw [← result_raiseEvent, handlePacketMsg, result_bind result_get,
    SrServerListener.handlePacketMsg, h]

theorem result_of_accepted {msg : Option VnsMessage} (h : Accepted env w msg) :
    ∃ w', (handleRecvMsg env msg).result w = (.ok (), w') ∧ w.Keeps w' := by
  cases msg with
  | none => cases h
  | some msg =>
      cases msg with
      | vnsClose reason => cases h
      | vnsOpenTemplate templateName vrhost srcFilters => cases h
      | vnsAuthReply username ssp =>
          obtain ⟨buf, hreply⟩ := result_handleAuthReply env w
          exact ⟨_, hreply, rfl, fun _ h => h⟩
      | vnsOpen topoId vhost user pw =>
          obtain ⟨written, hopen⟩ := result_handleOpenMsg w
          exact ⟨_, hopen, rfl, fun _ h => h⟩
      | vnsPacket intfName ethernetFrame =>
          obtain ⟨port, hport, hsent⟩ := h
          obtain ⟨w', hswitches, hkeeps⟩ :=
            result_switches env (w := w.raised ⟨ethernetFrame, port⟩) hsent
          refine ⟨w', ?_, hkeeps.listener, hkeeps.disconnected⟩
          rw [handleRecvMsg, result_handlePacketMsg_of_some _ hport, hswitches]
      | _ => exact ⟨w, rfl, .refl w⟩

theorem accepted_of_returns {msg : Option VnsMessage}
    (h : ((handleRecvMsg env msg).result w).1 = .ok ()) : Accepted env w msg := by
  cases msg with
  | none =>
      rw [handleRecvMsg, result_handleCloseMsg] at h
      cases h
  | some msg =>
      cases msg with
      | vnsClose reason =>
          rw [handleRecvMsg, result_handleCloseMsg] at h
          cases h
      | vnsOpenTemplate templateName vrhost srcFilters => cases h
      | vnsPacket intfName ethernetFrame =>
          rw [handleRecvMsg] at h
          cases hport : w.listener.intfnameToPort intfName with
          | none =>
              rw [result_handlePacketMsg_of_none _ hport] at h
              cases h
          | some port =>
              rw [result_handlePacketMsg_of_some _ hport] at h
              refine ⟨port, hport, or_iff_not_imp_left.mpr fun hfits => ?_⟩
              exact lost_of_switches (w := w.raised ⟨ethernetFrame, port⟩) hfits h
      | _ => trivial

/-- The handler does what it should exactly with the messages that it is made for. -/
theorem handled_iff_accepted (env : Environment) (w : World) (msg : Option VnsMessage) :
    Handled env w msg ↔ Accepted env w msg := by
  refine ⟨fun h => accepted_of_returns h.returns, fun h => ⟨?_, ?_, ?_⟩⟩
  · obtain ⟨w', hresult, -⟩ := result_of_accepted h
    rw [hresult]
  · rintro (rfl | ⟨reason, rfl⟩)
    · cases h
    · cases h
  · rintro intfName ethernetFrame rfl hnone
    obtain ⟨port, hport, -⟩ := h
    cases hnone.symm.trans hport

/-- A listener that knows one interface. -/
def eth1Listener : SrServerListener :=
  { SrServerListener.init with
    intfnameToPort := fun name => if name = text "eth1" then some 1 else none }

/-- One switch listens, and its socket takes what it is given. -/
def environment : Environment where
  peer := text "IPv4Address(TCP, '127.0.0.1', 40000)"
  peer_short := by decide
  switches := [0]
  sockSend := fun _ data => .took data.length

def world : World where
  listener := eth1Listener
  written := []
  losing := false
  events := []
  nextXid := 1
  disconnected := fun _ => false
  sent := []
  deferring := false
  deferred := []

/-- A client that says goodbye makes the handler raise, and its connection stays open. -/
theorem not_handled_close :
    ¬ Handled environment world (some (.vnsClose [])) ∧
      ((handleRecvMsg environment (some (.vnsClose []))).result world).2.losing = false := by
  refine ⟨fun h => ?_, rfl⟩
  have hreturns := h.returns
  rw [handleRecvMsg, result_handleCloseMsg] at hreturns
  cases hreturns

/-- Messages that are all accepted are all handled. -/
theorem returns_forM {msgs : List (Option VnsMessage)} (h : ∀ msg ∈ msgs, Accepted env w msg) :
    ((msgs.forM (handleRecvMsg env)).result w).1 = .ok () := by
  induction msgs generalizing w with
  | nil => rfl
  | cons msg rest ih =>
      rw [List.forall_mem_cons] at h
      obtain ⟨w', hfirst, hkeeps⟩ := result_of_accepted h.1
      rw [List.forM, result_bind hfirst]
      exact ih fun msg' hmsg' => (h.2 msg' hmsg').keeps hkeeps

end NetworkStack.Vns.RecvMsg
