import NetworkStack.Vns.SrHandler

/-!
# The clients of the controller

The server factory and `SRServerListener` each keep a list of clients. A connection that is made
is appended to both, and one that is lost is taken out of the factory's list only.

## Implementation notes

Twisted makes a new protocol object for each connection. The objects are numbered in the order in
which they are made.
-/

namespace NetworkStack.Vns

open Transition

/-- The factory with its protocol objects, and the listener that it calls back. -/
structure Server where
  listener : SrServerListener
  connections : List Nat
  numProtocols : Int
  /-- The flag `connected` of a protocol object. -/
  connected : Nat → Bool
  /-- `loseConnection` was called on the transport. -/
  losing : Nat → Bool
  /-- The arguments of `send` so far. -/
  sent : List (Nat × VnsMessage)
  /-- The number of protocol objects. -/
  made : Nat

/-- What `urandom(20)` returns. -/
abbrev Salt := { salt : List Byte // salt.length = 20 }

namespace Server

def init : Server where
  listener := .init
  connections := []
  numProtocols := 0
  connected := fun _ => false
  losing := fun _ => false
  sent := []
  made := 0

/-- `_handle_new_client`. -/
def handleNewClient (s : Server) (conn : Nat) (salt : Salt) : Server :=
  { s with
    listener := { s.listener with srclients := s.listener.srclients ++ [conn] }
    sent := s.sent ++ [(conn, .vnsAuthRequest salt.1)] }

/-- `_handle_client_disconnected`. -/
def handleClientDisconnected (s : Server) (conn : Nat) : Server :=
  { s with losing := Function.update s.losing conn true }

/-- `connectionMade` of a new protocol object. -/
def connectionMade (s : Server) (salt : Salt) : Server :=
  let conn := s.made
  handleNewClient
    { s with
      made := s.made + 1
      numProtocols := s.numProtocols + 1
      connections := s.connections ++ [conn]
      connected := Function.update s.connected conn true }
    conn salt

/-- `connectionLost`. Removing what is not in the list raises. -/
def connectionLost (s : Server) (conn : Nat) : Option Server :=
  if conn ∈ s.connections then
    some (handleClientDisconnected
      { s with
        numProtocols := s.numProtocols - 1
        connections := s.connections.erase conn
        connected := Function.update s.connected conn false }
      conn)
  else none

inductive Action where
  | connect (salt : Salt)
  | disconnect (conn : Nat)
  | broadcast (message : VnsMessage)
  deriving DecidableEq

/-- A connection is lost once, and only after it was made. -/
def step (s : Server) : Action → Option Server
  | .connect salt => some (s.connectionMade salt)
  | .disconnect conn => if s.connected conn then s.connectionLost conn else none
  | .broadcast message => some { s with sent := s.sent ++ (s.listener.broadcast message).1 }

/-- The clients are those that are connected, and a message that can be packed reaches each of
them once. -/
structure Serves (s : Server) : Prop where
  nodup : s.listener.srclients.Nodup
  clients : ∀ conn, conn ∈ s.listener.srclients ↔ s.connected conn = true
  once : ∀ message conn, (packWithHeader message).isSome →
    (s.listener.broadcast message).1.filter (fun p => p.1 = conn) =
      if s.connected conn then [(conn, message)] else []

/-- The factory's list is right. -/
structure Inv (s : Server) : Prop where
  nodup : s.connections.Nodup
  live : ∀ conn, conn ∈ s.connections ↔ s.connected conn = true
  count : s.numProtocols = s.connections.length
  old : ∀ conn, s.connected conn = true → conn < s.made
  clients : ∀ conn ∈ s.listener.srclients, conn < s.made

variable {s t : Server} {conn : Nat}

/-- What a broadcast sends to one client. -/
theorem filter_broadcast (self : SrServerListener) {message : VnsMessage}
    (h : (packWithHeader message).isSome) (conn : Nat) :
    (self.broadcast message).1.filter (fun p => p.1 = conn) =
      List.replicate (self.srclients.count conn) (conn, message) := by
  rw [SrServerListener.broadcast_of_packed h]
  dsimp only
  induction self.srclients with
  | nil => rfl
  | cons client rest ih =>
      by_cases h : client = conn
      · rw [List.map_cons, List.filter_cons_of_pos (by simpa using h), ih, h, List.count_cons_self,
          List.replicate_succ]
      · rw [List.map_cons, List.filter_cons_of_neg (by simpa using h), ih, List.count_cons_of_ne h]

theorem serves_iff_clients :
    s.Serves ↔ s.listener.srclients.Nodup ∧
      ∀ conn, conn ∈ s.listener.srclients ↔ s.connected conn = true := by
  refine ⟨fun h => ⟨h.nodup, h.clients⟩, fun ⟨hnodup, hclients⟩ => ⟨hnodup, hclients, ?_⟩⟩
  intro message conn hpacked
  rw [filter_broadcast _ hpacked]
  by_cases hconn : s.connected conn = true
  · rw [if_pos hconn, List.count_eq_one_of_mem hnodup ((hclients conn).mpr hconn)]
    rfl
  · rw [if_neg hconn, List.count_eq_zero_of_not_mem (mt (hclients conn).mp hconn)]
    rfl

theorem inv_init : init.Inv where
  nodup := List.nodup_nil
  live := fun _ => by simp [init]
  count := rfl
  old := fun _ h => by cases h
  clients := fun _ h => by cases h

theorem nodup_append_singleton {l : List Nat} (h : l.Nodup) (hconn : conn ∉ l) :
    (l ++ [conn]).Nodup := by
  rw [← List.concat_eq_append]
  exact h.concat hconn

/-- A new object is on neither list yet. -/
theorem Inv.connect (h : s.Inv) (salt : Salt) : (s.connectionMade salt).Inv where
  nodup := nodup_append_singleton h.nodup fun hmem =>
    lt_irrefl _ (h.old _ ((h.live _).mp hmem))
  live := fun conn => by
    by_cases heq : conn = s.made
    · simp [connectionMade, handleNewClient, heq]
    · simp [connectionMade, handleNewClient, heq, h.live]
  count := by
    simp [connectionMade, handleNewClient, h.count]
  old := fun conn hconn => by
    by_cases heq : conn = s.made
    · exact heq ▸ Nat.lt_succ_self _
    · simp only [connectionMade, handleNewClient, Function.update_of_ne heq] at hconn
      exact Nat.lt_succ_of_lt (h.old conn hconn)
  clients := fun conn hconn => by
    rcases List.mem_append.mp hconn with hconn | hconn
    · exact Nat.lt_succ_of_lt (h.clients conn hconn)
    · exact List.mem_singleton.mp hconn ▸ Nat.lt_succ_self _

theorem Inv.disconnect (h : s.Inv) (ht : s.connectionLost conn = some t) : t.Inv := by
  rw [connectionLost] at ht
  split at ht
  · next hmem =>
    obtain rfl := Option.some.inj ht
    refine ⟨h.nodup.erase conn, fun other => ?_, ?_, fun other hother => ?_, h.clients⟩
    · dsimp only [handleClientDisconnected]
      rw [h.nodup.mem_erase_iff, h.live]
      by_cases heq : other = conn
      · simp [heq]
      · simp [heq]
    · have hpos := List.length_pos_of_mem hmem
      dsimp only [handleClientDisconnected]
      rw [List.length_erase_of_mem hmem, h.count]
      omega
    · by_cases heq : other = conn
      · simp [handleClientDisconnected, heq] at hother
      · simp only [handleClientDisconnected, Function.update_of_ne heq] at hother
        exact h.old other hother
  · cases ht

/-- The factory's list is right after every step. -/
theorem Inv.step {a : Action} (h : s.Inv) (ht : s.step a = some t) : t.Inv := by
  cases a with
  | connect salt =>
      obtain rfl := Option.some.inj ht
      exact h.connect salt
  | disconnect conn =>
      rw [Server.step] at ht
      split at ht
      · exact h.disconnect ht
      · cases ht
  | broadcast message =>
      obtain rfl := Option.some.inj ht
      exact ⟨h.nodup, h.live, h.count, h.old, h.clients⟩

/-- The connections of the factory are those that are connected, after every run. -/
theorem connections_live (acts : List Action) (hrun : exec step init acts = some t) :
    t.connections.Nodup ∧ ∀ conn, conn ∈ t.connections ↔ t.connected conn = true := by
  have hinv : t.Inv := exec_keeps (fun _ _ _ h ht => h.step ht) inv_init hrun
  exact ⟨hinv.nodup, hinv.live⟩

theorem serves_init : init.Serves :=
  serves_iff_clients.mpr ⟨List.nodup_nil, fun _ => by simp [init, SrServerListener.init]⟩

theorem Serves.connect (h : s.Serves) (hinv : s.Inv) (salt : Salt) :
    (s.connectionMade salt).Serves := by
  have hnew : s.made ∉ s.listener.srclients := fun hmem => lt_irrefl _ (hinv.clients _ hmem)
  refine serves_iff_clients.mpr ⟨nodup_append_singleton h.nodup hnew, fun conn => ?_⟩
  by_cases heq : conn = s.made
  · simp [connectionMade, handleNewClient, heq]
  · simp [connectionMade, handleNewClient, heq, h.clients]

/-- The client that is gone stays on the listener's list. -/
theorem not_serves_disconnect (h : s.Serves) (hconn : s.connected conn = true)
    (ht : s.connectionLost conn = some t) : ¬ t.Serves := by
  intro hserves
  rw [connectionLost] at ht
  split at ht
  · obtain rfl := Option.some.inj ht
    have hgone := (hserves.clients conn).mp ((h.clients conn).mpr hconn)
    simp [handleClientDisconnected] at hgone
  · cases ht

/-- No connection is lost. -/
def Stays (a : Action) : Prop := ∀ conn, a ≠ .disconnect conn

theorem serves_step {a : Action} (hinv : s.Inv) (h : s.Serves) (ht : s.step a = some t) :
    t.Serves ↔ Stays a := by
  cases a with
  | connect salt =>
      obtain rfl := Option.some.inj ht
      exact iff_of_true (h.connect hinv salt) (fun _ heq => by cases heq)
  | disconnect conn =>
      rw [Server.step] at ht
      split at ht
      · next hconn =>
        exact iff_of_false (not_serves_disconnect h hconn ht) fun hstays => hstays conn rfl
      · cases ht
  | broadcast message =>
      obtain rfl := Option.some.inj ht
      exact iff_of_true ⟨h.nodup, h.clients, h.once⟩ (fun _ heq => by cases heq)

/-- In every run, the clients are right in every state exactly if no client disconnects. -/
theorem serves_iff_stays (acts : List Action) (hrun : exec step init acts = some t) :
    Always step Serves init acts ↔ ∀ a ∈ acts, Stays a := by
  rw [← guarded_iff_of_exec hrun]
  exact always_iff_guarded (fun _ _ _ h ht => h.step ht)
    (fun _ _ _ hinv hs ht => serves_step hinv hs ht) inv_init serves_init hrun

def salt : Salt := ⟨List.replicate 20 7, rfl⟩

/-- Two clients connect and are sent a message. -/
theorem serves_iff_stays_two :
    Always step Serves init [.connect salt, .connect salt, .broadcast (.vnsBanner [])] ↔
      ∀ a ∈ [Action.connect salt, .connect salt, .broadcast (.vnsBanner [])], Stays a :=
  serves_iff_stays _ rfl

/-- A client connects and disconnects, and a broadcast still sends to it. -/
theorem not_serves_gone :
    ∃ t, exec step init [.connect salt, .disconnect 0] = some t ∧ t.connected 0 = false ∧
      t.listener.broadcast (.vnsBanner []) = ([(0, .vnsBanner [])], .ok ()) ∧
      ¬ Always step Serves init [.connect salt, .disconnect 0] := by
  have hpacked : (packWithHeader (.vnsBanner [])).isSome := by
    rw [packWithHeader_isSome_iff rfl, packS_length]
    omega
  refine ⟨_, rfl, rfl, SrServerListener.broadcast_of_packed hpacked, fun h => ?_⟩
  have hgone := ((h.last rfl).clients 0).mp (List.mem_singleton_self 0)
  cases hgone

end Server

end NetworkStack.Vns
