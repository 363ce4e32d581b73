import Lynks.Network.EndToEnd
import Lynks.Network.Progress

/-!
# The process

The backend and `start` in one process. What a handler of the server's context throws leaves
`context.run`, on a thread that catches nothing, and ends the process. One throw is sure to come: a
failed write closes the socket, which aborts the read pending on it, and the read handler calls
`shutdown` on the closed socket. A connection stays cut off like this for as long as the process
lives. While none is, every request on an open connection can be answered, unless its handler
waits for a context of Janus that has been stopped (`request_can_be_answered`).
-/

namespace Lynks
set_option autoImplicit false

open Lib Janus Handler

/-! ## Connections that are cut off -/

namespace Connection

/-- The socket has been closed under a pending read. -/
def CutOff (c : Connection) : Prop := c.socketOpen = false ∧ c.reading ≠ .idle

variable {c d : Connection} {e : ConnectionEvent}

/-- Only the end of the read changes that. -/
theorem CutOff.step (cut : c.CutOff) (taken : c.step e = some d) (other : e ≠ .readFail) :
    d.CutOff := by
  refine ⟨(closed_step taken).2 (Or.inl cut.1), ?_⟩
  rcases step_cases taken with
    ⟨rfl, -, rfl⟩ | ⟨rfl, -, rfl⟩ | ⟨a, rfl, rfl⟩ | ⟨rfl, -, rfl⟩ | ⟨rfl, -, rfl⟩
  · exact Pending.noConfusion
  · exact absurd rfl other
  · rw [(readLoop_sendResponse a).1]
    exact cut.2
  · rw [readLoop_writeDone.1]
    exact cut.2
  · exact cut.2

/-- What is written without an error cuts nobody off. -/
theorem CutOff.of_step (cut : d.CutOff) (taken : c.step e = some d)
    (writes : e ≠ .read ∧ e ≠ .readFail ∧ e ≠ .writeFail) : c.CutOff := by
  refine ⟨by simpa [writes] using (closed_step taken).1 cut.1, ?_⟩
  rcases reading_step taken with ⟨reads, -⟩ | ⟨fails, -⟩ | ⟨-, same⟩
  · exact absurd reads writes.1
  · exact absurd fails writes.2.1
  · exact same ▸ cut.2

end Connection

namespace Server

/-- No client is cut off. -/
def Calm (s : Server) : Prop := ∀ client, ¬ (s.view client).CutOff

variable {s t : Server}

theorem Calm.draining {client : Nat} {e : ServerEvent} (calm : s.Calm) (drains : draining client e)
    (taken : s.step e = some t) : t.Calm := by
  intro target cut
  rcases view_cases taken target with ⟨-, same⟩ | ⟨ce, touched, moved⟩
  · exact calm target (same ▸ cut)
  · refine calm target (cut.of_step moved ?_)
    rcases touches_cases touched with ⟨_, rfl, -⟩ | ⟨rfl, -⟩ | ⟨a, -, -, -, rfl⟩ | ⟨-, rfl⟩ | ⟨rfl, -⟩
    · rcases drains with impossible | impossible <;> cases impossible
    · rcases drains with impossible | impossible <;> cases impossible
    · simp
    · simp
    · rcases drains with impossible | impossible <;> cases impossible

/-- A client that is cut off stays so until its read ends. -/
theorem cutOff_step {client : Nat} {e : ServerEvent} (cut : (s.view client).CutOff)
    (taken : s.step e = some t) (other : e ≠ .readFail client) : (t.view client).CutOff := by
  rcases view_cases taken client with ⟨-, same⟩ | ⟨ce, touched, moved⟩
  · rwa [same]
  · refine cut.step moved ?_
    rintro rfl
    rcases touches_cases touched with
      ⟨_, -, impossible⟩ | ⟨same, -⟩ | ⟨_, _, -, -, impossible⟩ | ⟨-, impossible⟩ | ⟨-, impossible⟩
    · cases impossible
    · exact other same
    · cases impossible
    · cases impossible
    · cases impossible

end Server

namespace Backend

variable {lib : Nlohmann} {sha : Sha256} {host : String} {s : Backend}

/-- Writing spawns nothing. -/
theorem step_draining {client : Nat} {e : ServerEvent} {server : Server}
    (drains : Server.draining client e) (taken : s.server.step e = some server) :
    s.step lib sha host (.server e) = some { s with server } := by
  have same : server.coroutines = s.server.coroutines := by
    rcases drains with rfl | rfl
    · obtain ⟨target, a, rest, c, -, -, rfl⟩ := Server.runPosted_cases taken
      rfl
    · obtain ⟨c, -, -, rfl⟩ := Server.writeDone_cases taken
      rfl
  have nothing : startAll lib sha host s.service (spawned s.server server) = s.service := by
    simp [startAll, spawned, same]
  have stepped : s.step lib sha host (.server e) = (s.server.step e).map fun server =>
      { server, service := startAll lib sha host s.service (spawned s.server server) } := by
    rcases drains with rfl | rfl <;> rfl
  rw [stepped, taken, Option.map_some, nothing]

end Backend

/-! ## The machine -/

structure Process where
  backend : Backend
  context : Context
  stage : StartStage
  alive : Bool

inductive ProcessEvent where
  | start (e : StartEvent)
  | backend (e : BackendEvent)
  /-- an exception leaves a handler: of `shutdown`, in the read handler, or of `remote_endpoint`, in
  the accept handler -/
  | throws

namespace Process

/-- A handler is answered what the context of Janus admits, and a read fails without a throw only
on an open socket. -/
def admits (s : Process) : BackendEvent → Bool
  | .perform i event now refreshed => s.context.admits (.perform i event now refreshed)
  | .server (.readFail client) => (s.backend.server.view client).socketOpen
  | _ => true

section

variable (lib : Nlohmann) (sha : Sha256) (host : String) (maxSessions : UInt16) (joinable : Bool)

/-- A step of the process while it lives. -/
def stepAlive (s : Process) : ProcessEvent → Option Process
  | .start e => (stepStart lib s.context s.stage e).map fun next =>
      { s with context := next.1, stage := next.2 }
  | .backend e =>
    if s.admits e then (s.backend.step lib sha host e).map fun backend => { s with backend }
    else none
  | .throws => some { s with alive := false }

def step (s : Process) (e : ProcessEvent) : Option Process :=
  if s.alive then s.stepAlive lib sha host e else none

/-- The process from its start. -/
def machine : Machine Process ProcessEvent where
  init :=
    { backend := (Backend.machine lib sha host maxSessions).init
      context := .fresh joinable
      stage := .connecting
      alive := true }
  step := step lib sha host

end

def backendEvents (_ : Process) : ProcessEvent → List BackendEvent
  | .backend e => [e]
  | _ => []

variable {lib : Nlohmann} {sha : Sha256} {host : String} {maxSessions : UInt16} {joinable : Bool}
  {s t : Process} {es fs : List ProcessEvent}

theorem step_backend {e : BackendEvent} {backend : Backend} (alive : s.alive = true)
    (admitted : s.admits e = true) (moved : s.backend.step lib sha host e = some backend) :
    (machine lib sha host maxSessions joinable).step s (.backend e) = some { s with backend } := by
  refine (if_pos alive).trans ((if_pos admitted).trans ?_)
  rw [moved]
  rfl

theorem backend_cases {e : BackendEvent} (taken : s.step lib sha host (.backend e) = some t) :
    s.admits e = true ∧ ∃ backend, s.backend.step lib sha host e = some backend ∧
      t = { s with backend } := by
  obtain ⟨-, moved⟩ := Option.ite_none_right_eq_some.1 taken
  obtain ⟨admitted, moved⟩ := Option.ite_none_right_eq_some.1 moved
  obtain ⟨backend, next, rfl⟩ := Option.map_eq_some_iff.1 moved
  exact ⟨admitted, backend, next, rfl⟩

theorem start_backend {e : StartEvent} (taken : s.step lib sha host (.start e) = some t) :
    t.backend = s.backend := by
  obtain ⟨-, moved⟩ := Option.ite_none_right_eq_some.1 taken
  obtain ⟨next, -, rfl⟩ := Option.map_eq_some_iff.1 moved
  rfl

theorem throws_cases (taken : s.step lib sha host .throws = some t) :
    t = { s with alive := false } := by
  obtain ⟨-, moved⟩ := Option.ite_none_right_eq_some.1 taken
  exact (Option.some.inj moved).symm

/-- The backend's own run. -/
theorem backend_run (run : (machine lib sha host maxSessions joinable).Run es s) :
    ∃ gs, (Backend.machine lib sha host maxSessions).Run gs s.backend := by
  have projected := run.project (N := Backend.machine lib sha host maxSessions)
    (π := Process.backend) (k := backendEvents) rfl ?_
  · exact ⟨_, projected⟩
  intro s e t (taken : s.step lib sha host e = some t)
  cases e with
  | start e =>
    rw [start_backend taken]
    rfl
  | backend e =>
    obtain ⟨-, backend, moved, rfl⟩ := backend_cases taken
    change (s.backend.step lib sha host e).bind _ = _
    rw [moved]
    rfl
  | throws =>
    obtain rfl := throws_cases taken
    rfl

/-! ## Cut off for good -/

/-- The end of a read that is cut off is the end of the process. -/
theorem cutOff_step {client : Nat} (cut : (s.backend.server.view client).CutOff)
    {e : ProcessEvent} (taken : s.step lib sha host e = some t) :
    (t.backend.server.view client).CutOff := by
  cases e with
  | start e => rwa [start_backend taken]
  | throws =>
    obtain rfl := throws_cases taken
    exact cut
  | backend e =>
    obtain ⟨admitted, backend, moved, rfl⟩ := backend_cases taken
    have moved : s.backend.step lib sha host e = some backend := moved
    cases e with
    | server e =>
      obtain ⟨-, server, next, rfl⟩ := Backend.server_cases moved
      refine Server.cutOff_step cut next ?_
      rintro rfl
      exact absurd (cut.1.symm.trans admitted) (by decide)
    | finish i =>
      obtain ⟨_, _, server, -, -, finished, rfl⟩ := Backend.finish_cases moved
      exact Server.cutOff_step (e := .finish i _) cut finished (by simp)
    | perform i event now refreshed =>
      obtain ⟨service, -, rfl⟩ := Option.map_eq_some_iff.1 moved
      exact cut
    | cleanup nows =>
      obtain ⟨service, -, rfl⟩ := Option.map_eq_some_iff.1 moved
      exact cut

theorem cutOff_exec {client : Nat} (cut : (s.backend.server.view client).CutOff)
    (ran : (machine lib sha host maxSessions joinable).exec s fs = some t) :
    (t.backend.server.view client).CutOff :=
  Machine.exec_invariant (M := machine lib sha host maxSessions joinable)
    (fun _ _ _ cut taken => cutOff_step cut taken) cut ran

/-! ## Answering -/

/-- A handler is answered. -/
def performed (i : Nat) (answer : Answered) : ProcessEvent :=
  .backend (.perform i answer.event answer.now answer.refreshed)

/-- What a handler does alone it does in the process. -/
theorem exec_performed {i : Nat} {given : List Answered} {service : Service}
    (alive : s.alive = true)
    (all : ∀ answer ∈ given, s.context.admits (Service.performedBy i answer) = true)
    (ran : (Lynks.service lib sha host maxSessions).exec s.backend.service
      (given.map (Service.performedBy i)) = some service) :
    (machine lib sha host maxSessions joinable).exec s (given.map (performed i)) =
      some { s with backend := ⟨s.backend.server, service⟩ } := by
  have moves : ∀ (v : Service) (answer : Answered) (w : Service) (a : Process),
      a = { s with backend := ⟨s.backend.server, v⟩ } →
      s.context.admits (Service.performedBy i answer) = true →
      (Lynks.service lib sha host maxSessions).step v (Service.performedBy i answer) = some w →
      ∃ b, (machine lib sha host maxSessions joinable).step a (performed i answer) = some b ∧
        b = { s with backend := ⟨s.backend.server, w⟩ } := by
    rintro v answer w a rfl admitted taken
    refine ⟨_, step_backend alive admitted ?_, rfl⟩
    exact Option.map_eq_some_iff.2 ⟨w, taken, rfl⟩
  obtain ⟨t, ran', rfl⟩ := Machine.exec_lift moves all (s := s.backend.service) rfl ran
  exact ran'

/-- So is a connection drained. -/
theorem exec_draining {client : Nat} {ds : List ServerEvent} {server : Server}
    (alive : s.alive = true) (calm : s.backend.server.Calm)
    (all : ∀ e ∈ ds, Server.draining client e)
    (ran : Lynks.server.exec s.backend.server ds = some server) :
    (machine lib sha host maxSessions joinable).exec s (ds.map fun e => .backend (.server e)) =
      some { s with backend := ⟨server, s.backend.service⟩ } ∧ server.Calm := by
  have moves : ∀ (v : Server) (e : ServerEvent) (w : Server) (a : Process),
      a = { s with backend := ⟨v, s.backend.service⟩ } ∧ v.Calm → Server.draining client e →
      Lynks.server.step v e = some w →
      ∃ b, (machine lib sha host maxSessions joinable).step a (.backend (.server e)) = some b ∧
        b = { s with backend := ⟨w, s.backend.service⟩ } ∧ w.Calm := by
    rintro v e w a ⟨rfl, calm⟩ drains (taken : v.step e = some w)
    refine ⟨_, step_backend alive ?_ (Backend.step_draining (s := ⟨v, _⟩) drains taken), rfl,
      calm.draining drains taken⟩
    rcases drains with rfl | rfl <;> rfl
  obtain ⟨t, ran', rfl, calm'⟩ :=
    Machine.exec_lift moves all (s := s.backend.server) ⟨rfl, calm⟩ (by simpa using ran)
  exact ⟨ran', calm'⟩

/-- A coroutine whose handler has returned ends, and its response can be written. -/
theorem response_can_be_written {gs : List ServerEvent} {i : Nat} {owned : OwnedRequest}
    {response : HttpResponse} (alive : s.alive = true) (calm : s.backend.server.Calm)
    (matched : Lynks.server.Run gs s.backend.server)
    (running : s.backend.server.coroutines[i]? = some ⟨owned, false⟩)
    (returned : s.backend.service.inFlight[i]? = some ⟨owned.request, .done (.ok response)⟩)
    (isOpen : Server.Open owned.client s.backend.server) :
    ∃ (ds : List ServerEvent) (server : Server) (c : Connection),
      (machine lib sha host maxSessions joinable).exec s
          (.backend (.finish i) :: ds.map fun e => .backend (.server e)) =
        some { s with backend := ⟨server, s.backend.service⟩ } ∧ server.Calm ∧
      server.connections[owned.client]? = some c ∧ ⟨owned.number, response⟩ ∈ c.written := by
  obtain ⟨finished, ended⟩ : ∃ server, s.backend.server.finish i (some response) = some server := by
    simp [Server.finish, running]
  obtain ⟨o, here, same⟩ := Server.finish_cases ended
  have stillOpen : Server.Open owned.client finished := by
    rw [same]
    exact isOpen
  have stillCalm : finished.Calm := by
    rw [same]
    exact calm
  obtain ⟨ds, server, c, allowed, drained, found, complete⟩ :=
    Server.drain ((Server.sound matched).finish ended) stillOpen
  have first : (machine lib sha host maxSessions joinable).step s (.backend (.finish i)) =
      some { s with backend := ⟨finished, s.backend.service⟩ } := by
    refine step_backend alive rfl ?_
    simp [Backend.step, returned, endOf, ended]
  let u : Process := { s with backend := ⟨finished, s.backend.service⟩ }
  obtain ⟨rest, calm'⟩ : (machine lib sha host maxSessions joinable).exec u _ = _ ∧ _ :=
    exec_draining alive stillCalm allowed drained
  refine ⟨ds, server, c, Option.bind_eq_some_iff.2 ⟨_, first, rest⟩, calm', found, ?_⟩
  rw [complete, Server.produced_finish ended, Server.completed_finish running]
  simp

/-- The request of a coroutine is the one its handler runs on. -/
theorem handler_found (run : (machine lib sha host maxSessions joinable).Run es s) {i : Nat}
    {owned : OwnedRequest} (running : s.backend.server.coroutines[i]? = some ⟨owned, false⟩) :
    ∃ f, s.backend.service.inFlight[i]? = some f ∧ f.request = owned.request := by
  obtain ⟨gs, matched⟩ := backend_run run
  have aligned := congrArg (fun requests => requests[i]?) (Backend.linked_of_run matched).aligned
  simpa only [List.getElem?_map, running, Option.map_some, Option.map_eq_some_iff] using aligned

/-- The database and Janus answer the handler `i` as given, and the context of Janus admits it. -/
def Grants (c : Context) (answers : (o : Op) → o.Ans) (i : Nat) (e : ProcessEvent) : Prop :=
  ∀ j event now refreshed, e = .backend (.perform j event now refreshed) →
    j = i ∧ AnsweredAs c answers ⟨event, now, refreshed⟩

/-- What the process can do for a request: run its handler until it halts, and write the response
it returns, with nobody cut off. -/
def Answerable (lib : Nlohmann) (sha : Sha256) (host : String) (maxSessions : UInt16)
    (joinable : Bool) (es : List ProcessEvent) (s : Process) (answers : (o : Op) → o.Ans) (i : Nat)
    (owned : OwnedRequest) : Prop :=
  ∃ fs t program, (machine lib sha host maxSessions joinable).Run (es ++ fs) t ∧
    (∀ e ∈ fs, Grants s.context answers i e) ∧ t.alive = true ∧ t.backend.server.Calm ∧
    t.context = s.context ∧
    t.backend.service.inFlight[i]? = some ⟨owned.request, program⟩ ∧
    program.Halted s.context.Blocks ∧
    ∀ response, program = .done (.ok response) → ∃ c,
      t.backend.server.connections[owned.client]? = some c ∧ ⟨owned.number, response⟩ ∈ c.written

theorem answerable_of_calm (run : (machine lib sha host maxSessions joinable).Run es s)
    (alive : s.alive = true) (calm : s.backend.server.Calm) (answers : (o : Op) → o.Ans) {i : Nat}
    {owned : OwnedRequest} (running : s.backend.server.coroutines[i]? = some ⟨owned, false⟩)
    (isOpen : Server.Open owned.client s.backend.server) :
    Answerable lib sha host maxSessions joinable es s answers i owned := by
  obtain ⟨f, found, request⟩ := handler_found run running
  obtain ⟨given, program, store, all, moved, halted⟩ :=
    @Service.exec_until_halted lib sha host maxSessions s.backend.service s.context answers i f
      found
  have alone : (machine lib sha host maxSessions joinable).Run (es ++ given.map (performed i)) _ :=
    Machine.run_append.2 ⟨s, run,
      exec_performed alive (fun answer mem => (all answer mem).2 i) moved⟩
  have here : (s.backend.service.inFlight.set i { f with program })[i]? =
      some ⟨owned.request, program⟩ := by
    rw [List.getElem?_set_self (List.getElem?_eq_some_iff.1 found).1, request]
  have grants : ∀ e ∈ given.map (performed i), Grants s.context answers i e := by
    intro e mem j event now refreshed same
    obtain ⟨answer, inside, rfl⟩ := List.mem_map.1 mem
    injection same with same
    injection same with own event now refreshed
    subst own event now refreshed
    exact ⟨rfl, all answer inside⟩
  by_cases returned : ∃ response, program = .done (.ok response)
  · obtain ⟨response, rfl⟩ := returned
    obtain ⟨gs, matched⟩ := backend_run run
    obtain ⟨hs, served, -⟩ := Backend.server_run matched
    obtain ⟨ds, server, c, drained, calm', connected, mem⟩ :=
      @response_can_be_written lib sha host maxSessions joinable
        { s with backend := ⟨s.backend.server, ⟨store, _⟩⟩ } hs i owned response alive calm served
        running here isOpen
    have ran := Machine.run_append.2 ⟨_, alone, drained⟩
    rw [List.append_assoc] at ran
    refine ⟨_, _, _, ran, ?_, alive, calm', rfl, here, halted, ?_⟩
    · intro e mem
      rcases List.mem_append.1 mem with mine | rest
      · exact grants e mine
      · rintro j event now refreshed rfl
        rcases List.mem_cons.1 rest with last | drains
        · cases last
        · obtain ⟨e, -, impossible⟩ := List.mem_map.1 drains
          cases impossible
    · intro response' same
      obtain rfl := Outcome.ok.inj (Prog.done.inj same)
      exact ⟨c, connected, mem⟩
  · exact ⟨_, _, program, alone, grants, alive, calm, rfl, here, halted,
      fun response ended => absurd ⟨response, ended⟩ returned⟩

open Service (loginLib constantSha silence)

/-- A login whose response cannot be written. -/
def unwrittenLogin : List ProcessEvent :=
  (Backend.loginRun ++ [BackendEvent.server (.writeFail 0)]).map .backend

end Process

end Lynks
