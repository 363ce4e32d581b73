import Lynks.Network.Server

/-!
# One connection of the server

What a run of the server does to one connection: the events that touch it, in order, are a run
of that connection alone (`connection_run`). A property of every run of a connection holds of
each connection of the server.
-/

namespace Lynks
set_option autoImplicit false

open Lib

/-- The handlers that run on a connection. -/
inductive ConnectionEvent where
  | read
  | readFail
  | send (a : Answer)
  | writeDone
  | writeFail
  deriving DecidableEq, Repr

def Connection.step (c : Connection) : ConnectionEvent → Option Connection
  | .read => if c.reading = .started true then some c.addToIncomingRequests else none
  | .readFail => if c.reading = .idle then none else some c.readFailed
  | .send a => some (c.sendResponse a)
  | .writeDone => if c.writing = .started true then some c.writeDone else none
  | .writeFail => if c.writing = .idle then none else some c.writeFailed

/-- A connection, from the accept handler on. -/
def connection : Machine Connection ConnectionEvent :=
  { init := Connection.accepted.connectToClient, step := Connection.step }

namespace Connection

variable {c d : Connection} {e : ConnectionEvent}

/-- What each handler does, and when it may run. -/
theorem step_cases (taken : c.step e = some d) :
    (e = .read ∧ c.reading = .started true ∧ d = c.addToIncomingRequests) ∨
      (e = .readFail ∧ c.reading ≠ .idle ∧ d = c.readFailed) ∨
      (∃ a, e = .send a ∧ d = c.sendResponse a) ∨
      (e = .writeDone ∧ c.writing = .started true ∧ d = c.writeDone) ∨
      (e = .writeFail ∧ c.writing ≠ .idle ∧ d = c.writeFailed) := by
  cases e with
  | read =>
    obtain ⟨started, moved⟩ := Option.ite_none_right_eq_some.1 taken
    exact Or.inl ⟨rfl, started, (Option.some.inj moved).symm⟩
  | readFail =>
    obtain ⟨busy, moved⟩ := Option.ite_none_left_eq_some.1 taken
    exact Or.inr (Or.inl ⟨rfl, busy, (Option.some.inj moved).symm⟩)
  | send a => exact Or.inr (Or.inr (Or.inl ⟨a, rfl, (Option.some.inj taken).symm⟩))
  | writeDone =>
    obtain ⟨started, moved⟩ := Option.ite_none_right_eq_some.1 taken
    exact Or.inr (Or.inr (Or.inr (Or.inl ⟨rfl, started, (Option.some.inj moved).symm⟩)))
  | writeFail =>
    obtain ⟨busy, moved⟩ := Option.ite_none_left_eq_some.1 taken
    exact Or.inr (Or.inr (Or.inr (Or.inr ⟨rfl, busy, (Option.some.inj moved).symm⟩)))

/-- Only an error closes the socket, and nothing opens it again. -/
theorem closed_step (taken : c.step e = some d) :
    d.socketOpen = false ↔ c.socketOpen = false ∨ e = .readFail ∨ e = .writeFail := by
  rcases step_cases taken with
    ⟨rfl, -, rfl⟩ | ⟨rfl, -, rfl⟩ | ⟨a, rfl, rfl⟩ | ⟨rfl, -, rfl⟩ | ⟨rfl, -, rfl⟩
  · simp [addToIncomingRequests, readRequest]
  · simp [readFailed]
  · simp
  · simp
  · simp [writeFailed]

theorem readLoop_sendResponse (a : Answer) :
    (c.sendResponse a).reading = c.reading ∧ (c.sendResponse a).requestsRead = c.requestsRead := by
  unfold sendResponse
  cases c.responses.isEmpty <;> exact ⟨rfl, rfl⟩

theorem readLoop_writeDone :
    c.writeDone.reading = c.reading ∧ c.writeDone.requestsRead = c.requestsRead := by
  unfold writeDone
  split
  · exact ⟨rfl, rfl⟩
  · rename_i a rest queue
    cases rest.isEmpty <;> exact ⟨rfl, rfl⟩

/-- Only a read handler touches the read loop. -/
theorem reading_step (taken : c.step e = some d) :
    e = .read ∧ c.reading = .started true ∨ e = .readFail ∧ d.reading = .idle ∨
      e ≠ .read ∧ d.reading = c.reading := by
  rcases step_cases taken with
    ⟨rfl, started, -⟩ | ⟨rfl, -, rfl⟩ | ⟨a, rfl, rfl⟩ | ⟨rfl, -, rfl⟩ | ⟨rfl, -, rfl⟩
  · exact Or.inl ⟨rfl, started⟩
  · exact Or.inr (Or.inl ⟨rfl, rfl⟩)
  · exact Or.inr (Or.inr ⟨ConnectionEvent.noConfusion, (readLoop_sendResponse a).1⟩)
  · exact Or.inr (Or.inr ⟨ConnectionEvent.noConfusion, readLoop_writeDone.1⟩)
  · exact Or.inr (Or.inr ⟨ConnectionEvent.noConfusion, rfl⟩)

/-- Requests are counted as they are read. -/
theorem requestsRead_step (taken : c.step e = some d) :
    d.requestsRead = c.requestsRead + if e = .read then 1 else 0 := by
  rcases step_cases taken with
    ⟨rfl, -, rfl⟩ | ⟨rfl, -, rfl⟩ | ⟨a, rfl, rfl⟩ | ⟨rfl, -, rfl⟩ | ⟨rfl, -, rfl⟩
  · rfl
  · rfl
  · exact (readLoop_sendResponse a).2
  · exact readLoop_writeDone.2
  · rfl

/-- What is written stays written. -/
theorem written_step (taken : c.step e = some d) : c.written <+: d.written := by
  rcases step_cases taken with
    ⟨rfl, -, rfl⟩ | ⟨rfl, -, rfl⟩ | ⟨a, rfl, rfl⟩ | ⟨rfl, -, rfl⟩ | ⟨rfl, -, rfl⟩
  · exact List.prefix_rfl
  · exact List.prefix_rfl
  · unfold sendResponse
    cases c.responses.isEmpty <;> exact List.prefix_rfl
  · unfold writeDone
    split
    · exact List.prefix_rfl
    · rename_i a rest queue
      cases rest.isEmpty <;> exact List.prefix_append _ _
  · exact List.prefix_rfl

end Connection

namespace Server

/-- The connection of a client; the one it will get, before it is accepted. -/
def view (s : Server) (client : Nat) : Connection :=
  s.connections[client]?.getD connection.init

/-- The handler a step of the server runs on the connection of a client. -/
def touches (client : Nat) (s : Server) : ServerEvent → List ConnectionEvent
  | .read target _ => if target = client then [.read] else []
  | .readFail target => if target = client then [.readFail] else []
  | .runPosted =>
    match s.posted with
    | (target, a) :: _ => if target = client then [.send a] else []
    | [] => []
  | .writeDone target => if target = client then [.writeDone] else []
  | .writeFail target => if target = client then [.writeFail] else []
  | _ => []

variable {s t : Server} {client : Nat}

theorem view_of_found {c : Connection} (found : s.connections[client]? = some c) :
    s.view client = c := by
  rw [view, found, Option.getD_some]

/-- One handler on one connection is one event of it, and none of any other. -/
theorem view_set {target : Nat} {c d : Connection} {e : ConnectionEvent}
    {requests : List OwnedRequest} {posted : List (Nat × Answer)}
    (found : s.connections[target]? = some c) (moved : c.step e = some d) :
    connection.exec (s.view client) (if target = client then [e] else []) =
      some (view { s with
        requests, posted, connections := s.connections.set target d } client) := by
  by_cases hit : target = client
  · subst hit
    have len : target < s.connections.length := (List.getElem?_eq_some_iff.1 found).1
    have after : view { s with
        requests, posted, connections := s.connections.set target d } target = d :=
      view_of_found (List.getElem?_set_self len)
    rw [if_pos rfl, after, view_of_found found]
    simp [Machine.exec, connection, moved]
  · rw [if_neg hit]
    simp [Machine.exec, view, List.getElem?_set_ne hit]

/-- **A step of the server moves each connection by the handlers it runs there.** -/
theorem view_step {e : ServerEvent} (taken : s.step e = some t) (client : Nat) :
    connection.exec (s.view client) (touches client s e) = some (t.view client) := by
  cases e with
  | accept =>
    obtain rfl := Option.some.inj taken
    have same : s.accept.view client = s.view client := by
      unfold view accept
      rw [List.getElem?_append]
      split
      · rfl
      · rename_i beyond
        rw [List.getElem?_eq_none (Nat.le_of_not_lt beyond)]
        cases client - s.connections.length <;> rfl
    rw [same]
    rfl
  | read target request =>
    obtain ⟨c, found, started, rfl⟩ := read_cases taken
    exact view_set (e := .read) found (by simp [Connection.step, started])
  | readFail target =>
    obtain ⟨c, found, busy, rfl⟩ := readFail_cases taken
    exact view_set (e := .readFail) found (by simp [Connection.step, busy])
  | update =>
    obtain ⟨owned, rest, -, rfl⟩ := update_cases taken
    rcases onRequest_cases (s := { s with requests := rest }) owned with spawned | ⟨clients, gone⟩
    · rw [spawned]
      rfl
    · rw [gone]
      rfl
  | finish i response =>
    obtain ⟨owned, -, rfl⟩ := finish_cases taken
    rfl
  | runPosted =>
    obtain ⟨target, a, rest, c, queue, found, rfl⟩ := runPosted_cases taken
    have handler : touches client s .runPosted = if target = client then [.send a] else [] := by
      simp only [touches, queue]
    rw [handler]
    exact view_set (e := .send a) found rfl
  | writeDone target =>
    obtain ⟨c, found, busy, rfl⟩ := writeDone_cases taken
    exact view_set (e := .writeDone) found (by simp [Connection.step, busy])
  | writeFail target =>
    obtain ⟨c, found, busy, rfl⟩ := writeFail_cases taken
    exact view_set (e := .writeFail) found (by simp [Connection.step, busy])

/-- Which step of the server runs which handler. -/
theorem touches_cases {e : ServerEvent} {ce : ConnectionEvent}
    (touched : touches client s e = [ce]) :
    (∃ request, e = .read client request ∧ ce = .read) ∨
      (e = .readFail client ∧ ce = .readFail) ∨
      (∃ a rest, s.posted = (client, a) :: rest ∧ e = .runPosted ∧ ce = .send a) ∨
      (e = .writeDone client ∧ ce = .writeDone) ∨ (e = .writeFail client ∧ ce = .writeFail) := by
  have only {target : Nat} {handler : ConnectionEvent}
      (here : (if target = client then [handler] else []) = [ce]) :
      target = client ∧ ce = handler := by
    split at here
    · exact ⟨‹_›, (List.singleton_inj.1 here).symm⟩
    · cases here
  cases e with
  | accept => cases touched
  | read target request =>
    obtain ⟨rfl, rfl⟩ := only touched
    exact Or.inl ⟨request, rfl, rfl⟩
  | readFail target =>
    obtain ⟨rfl, rfl⟩ := only touched
    exact Or.inr (Or.inl ⟨rfl, rfl⟩)
  | update => cases touched
  | finish i response => cases touched
  | runPosted =>
    simp only [touches] at touched
    split at touched
    · rename_i target a rest queue
      obtain ⟨rfl, rfl⟩ := only touched
      exact Or.inr (Or.inr (Or.inl ⟨a, rest, queue, rfl, rfl⟩))
    · cases touched
  | writeDone target =>
    obtain ⟨rfl, rfl⟩ := only touched
    exact Or.inr (Or.inr (Or.inr (Or.inl ⟨rfl, rfl⟩)))
  | writeFail target =>
    obtain ⟨rfl, rfl⟩ := only touched
    exact Or.inr (Or.inr (Or.inr (Or.inr ⟨rfl, rfl⟩)))

/-- A step of the server touches a connection once or not at all. -/
theorem view_cases {e : ServerEvent} (taken : s.step e = some t) (client : Nat) :
    touches client s e = [] ∧ t.view client = s.view client ∨
      ∃ ce, touches client s e = [ce] ∧ (s.view client).step ce = some (t.view client) := by
  have moved := view_step taken client
  have few : touches client s e = [] ∨ ∃ ce, touches client s e = [ce] := by
    have one (target : Nat) (ce : ConnectionEvent) :
        (if target = client then [ce] else []) = [] ∨
          ∃ ce', (if target = client then [ce] else []) = [ce'] := by
      split <;> simp
    cases e with
    | accept => exact Or.inl rfl
    | read target request => exact one target .read
    | readFail target => exact one target .readFail
    | update => exact Or.inl rfl
    | finish i response => exact Or.inl rfl
    | runPosted =>
      obtain ⟨target, a, rest, c, queue, -⟩ := runPosted_cases taken
      simp only [touches, queue]
      exact one target (.send a)
    | writeDone target => exact one target .writeDone
    | writeFail target => exact one target .writeFail
  rcases few with nothing | ⟨ce, once⟩
  · rw [nothing] at moved
    exact Or.inl ⟨nothing, (Option.some.inj moved).symm⟩
  · rw [once] at moved
    obtain ⟨d, first, rest⟩ := Option.bind_eq_some_iff.1 moved
    obtain rfl := Option.some.inj rest
    exact Or.inr ⟨ce, once, first⟩

/-- **Every connection of the server runs as one alone.** -/
theorem connection_run {es : List ServerEvent} (run : server.Run es s) (client : Nat) :
    connection.Run (server.log (touches client) es) (s.view client) := by
  obtain ⟨c, alone, rfl⟩ := run.simulate (N := connection) (R := fun s c => c = s.view client)
    (k := touches client) rfl fun s e t c same taken => ⟨_, same ▸ view_step taken client, rfl⟩
  exact alone

end Server

end Lynks
