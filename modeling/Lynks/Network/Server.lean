import Lynks.Lib.Machine
import Lynks.Network.Connection

/-!
# `server_interface`

The server as its threads interleave: the main thread takes requests from the shared queue
and spawns a coroutine for each; the context thread runs the handlers of reads and writes, the
coroutines, and what they post. When and how a coroutine ends is left open; what it may do is
the subject of `Router`. A connection is known by its place in `connections`.
-/

namespace Lynks
set_option autoImplicit false

open Lib

/-- `owned_message_handle`: a request with its connection, and its number there. -/
structure OwnedRequest where
  client : Nat
  number : Nat
  request : HttpRequest
  deriving DecidableEq, Repr

/-- A coroutine spawned by `on_request`. -/
structure Coroutine where
  owned : OwnedRequest
  finished : Bool
  deriving DecidableEq, Repr

structure Server where
  /-- every connection ever accepted -/
  connections : List Connection
  connectedClients : List Nat
  requests : List OwnedRequest
  coroutines : List Coroutine
  /-- the handlers `send_response` has posted and the context has not run -/
  posted : List (Nat × Answer)
  /-- the calls of `on_client_disconnect` -/
  disconnected : List Nat
  deriving DecidableEq, Repr

inductive ServerEvent where
  | accept
  | read (client : Nat) (request : HttpRequest)
  | readFail (client : Nat)
  /-- one round of the loop in `update` -/
  | update
  /-- a coroutine ends with a response, or with an exception -/
  | finish (i : Nat) (response : Option HttpResponse)
  /-- the context runs the handler posted first -/
  | runPosted
  | writeDone (client : Nat)
  | writeFail (client : Nat)
  deriving DecidableEq, Repr

namespace Server

/-- A handler runs on a connection. -/
def onConnection (s : Server) (client : Nat) (f : Connection → Option Connection) :
    Option Server :=
  match s.connections[client]? with
  | some c => (f c).map fun c' => { s with connections := s.connections.set client c' }
  | none => none

/-- The accept handler; `on_client_connect` of the program's server lets everyone in. -/
def accept (s : Server) : Server :=
  { s with
    connections := s.connections ++ [Connection.accepted.connectToClient]
    connectedClients := s.connectedClients ++ [s.connections.length] }

/-- The read handler on success. -/
def read (s : Server) (client : Nat) (request : HttpRequest) : Option Server :=
  match s.connections[client]? with
  | some c =>
    if c.reading = .started true then
      some { s with
        connections := s.connections.set client c.addToIncomingRequests
        requests := s.requests ++ [⟨client, c.requestsRead, request⟩] }
    else none
  | none => none

/-- `erase(remove(..., client))` for the pointer `client`. -/
def removeClient (client : Option Nat) (clients : List Nat) : List Nat :=
  clients.filter fun c => some c ≠ client

/-- `server_interface::on_request`. By the time of the removal the pointer has been reset. -/
def onRequest (s : Server) (owned : OwnedRequest) : Server :=
  if s.connections[owned.client]?.any Connection.isConnected then
    { s with coroutines := s.coroutines ++ [⟨owned, false⟩] }
  else
    { s with
      disconnected := s.disconnected ++ [owned.client]
      connectedClients := removeClient none s.connectedClients }

/-- One round of `server_interface::update`. -/
def updateOne (s : Server) : Option Server :=
  match s.requests with
  | [] => none
  | owned :: rest => some ({ s with requests := rest }.onRequest owned)

/-- A coroutine ends: a response is sent to the connection it keeps alive, an exception is
only logged. -/
def finish (s : Server) (i : Nat) (response : Option HttpResponse) : Option Server :=
  match s.coroutines[i]? with
  | some ⟨owned, false⟩ =>
    some { s with
      coroutines := s.coroutines.set i ⟨owned, true⟩
      posted := s.posted ++ (response.map fun r => (owned.client, ⟨owned.number, r⟩)).toList }
  | _ => none

def runPosted (s : Server) : Option Server :=
  match s.posted with
  | [] => none
  | (client, a) :: rest =>
    { s with posted := rest }.onConnection client fun c => some (c.sendResponse a)

def step (s : Server) : ServerEvent → Option Server
  | .accept => some s.accept
  | .read client request => s.read client request
  | .readFail client =>
    s.onConnection client fun c => if c.reading = .idle then none else some c.readFailed
  | .update => s.updateOne
  | .finish i response => s.finish i response
  | .runPosted => s.runPosted
  | .writeDone client =>
    s.onConnection client fun c => if c.writing = .started true then some c.writeDone else none
  | .writeFail client =>
    s.onConnection client fun c => if c.writing = .idle then none else some c.writeFailed

end Server

/-- The server, from its start. -/
def server : Machine Server ServerEvent where
  init :=
    { connections := [], connectedClients := [], requests := [], coroutines := [], posted := [],
      disconnected := [] }
  step := Server.step

namespace Server

variable {s t : Server}

theorem onConnection_cases {client : Nat} {f : Connection → Option Connection}
    (taken : s.onConnection client f = some t) :
    ∃ c c', s.connections[client]? = some c ∧ f c = some c' ∧
      t = { s with connections := s.connections.set client c' } := by
  unfold onConnection at taken
  split at taken
  · rename_i c found
    obtain ⟨c', moved, rfl⟩ := Option.map_eq_some_iff.1 taken
    exact ⟨c, c', found, moved, rfl⟩
  · cases taken

theorem read_cases {client : Nat} {request : HttpRequest} (taken : s.read client request = some t) :
    ∃ c, s.connections[client]? = some c ∧ c.reading = .started true ∧ t = { s with
      connections := s.connections.set client c.addToIncomingRequests
      requests := s.requests ++ [⟨client, c.requestsRead, request⟩] } := by
  unfold read at taken
  split at taken
  · rename_i c found
    obtain ⟨reading, moved⟩ := Option.ite_none_right_eq_some.1 taken
    exact ⟨c, found, reading, (Option.some.inj moved).symm⟩
  · cases taken

theorem update_cases (taken : s.updateOne = some t) :
    ∃ owned rest, s.requests = owned :: rest ∧ t = { s with requests := rest }.onRequest owned := by
  unfold updateOne at taken
  split at taken
  · cases taken
  · rename_i owned rest queue
    exact ⟨owned, rest, queue, (Option.some.inj taken).symm⟩

/-- `on_request` spawns a coroutine, or reports a client that is gone. -/
theorem onRequest_cases (owned : OwnedRequest) :
    s.onRequest owned = { s with coroutines := s.coroutines ++ [⟨owned, false⟩] } ∨
      ∃ clients, s.onRequest owned = { s with
        disconnected := s.disconnected ++ [owned.client], connectedClients := clients } := by
  unfold onRequest
  split
  · exact Or.inl rfl
  · exact Or.inr ⟨_, rfl⟩

theorem finish_cases {i : Nat} {response : Option HttpResponse}
    (taken : s.finish i response = some t) :
    ∃ owned, s.coroutines[i]? = some ⟨owned, false⟩ ∧ t = { s with
      coroutines := s.coroutines.set i ⟨owned, true⟩
      posted := s.posted ++ (response.map fun r => (owned.client, ⟨owned.number, r⟩)).toList } := by
  unfold finish at taken
  split at taken
  · rename_i owned running
    exact ⟨owned, running, (Option.some.inj taken).symm⟩
  · cases taken

/-- The coroutine that `on_request` has just spawned ends. -/
theorem finish_spawned {owned : OwnedRequest} {c : Connection}
    (found : s.connections[owned.client]? = some c) (connected : c.isConnected = true)
    (response : Option HttpResponse) :
    (s.onRequest owned).finish s.coroutines.length response = some { s with
      coroutines := s.coroutines ++ [⟨owned, true⟩]
      posted := s.posted ++ (response.map fun r => (owned.client, ⟨owned.number, r⟩)).toList } := by
  simp [onRequest, finish, found, connected]

theorem runPosted_cases (taken : s.runPosted = some t) :
    ∃ client a rest c, s.posted = (client, a) :: rest ∧ s.connections[client]? = some c ∧
      t = { s with
        posted := rest, connections := s.connections.set client (c.sendResponse a) } := by
  unfold runPosted at taken
  split at taken
  · cases taken
  · rename_i client a rest queue
    obtain ⟨c, c', found, moved, rfl⟩ := onConnection_cases taken
    have sent : c' = c.sendResponse a := (Option.some.inj moved).symm
    exact ⟨client, a, rest, c, queue, found, by rw [sent]⟩

theorem readFail_cases {client : Nat} (taken : s.step (.readFail client) = some t) :
    ∃ c, s.connections[client]? = some c ∧ c.reading ≠ .idle ∧
      t = { s with connections := s.connections.set client c.readFailed } := by
  obtain ⟨c, c', found, moved, rfl⟩ := onConnection_cases taken
  obtain ⟨busy, failed⟩ := Option.ite_none_left_eq_some.1 moved
  exact ⟨c, found, busy, by rw [Option.some.inj failed]⟩

theorem writeDone_cases {client : Nat} (taken : s.step (.writeDone client) = some t) :
    ∃ c, s.connections[client]? = some c ∧ c.writing = .started true ∧
      t = { s with connections := s.connections.set client c.writeDone } := by
  obtain ⟨c, c', found, moved, rfl⟩ := onConnection_cases taken
  obtain ⟨busy, done⟩ := Option.ite_none_right_eq_some.1 moved
  exact ⟨c, found, busy, by rw [Option.some.inj done]⟩

theorem writeFail_cases {client : Nat} (taken : s.step (.writeFail client) = some t) :
    ∃ c, s.connections[client]? = some c ∧ c.writing ≠ .idle ∧
      t = { s with connections := s.connections.set client c.writeFailed } := by
  obtain ⟨c, c', found, moved, rfl⟩ := onConnection_cases taken
  obtain ⟨busy, failed⟩ := Option.ite_none_left_eq_some.1 moved
  exact ⟨c, found, busy, by rw [Option.some.inj failed]⟩

end Server

end Lynks
