import Mathlib.Data.List.Nodup
import Lynks.Network.Pipelining
import Lynks.Network.ConnectionRuns

/-!
# From the socket to the coroutine

The way of a request in the steps that other threads see. The context thread reads it into the
`request` object of its connection, which is moved from and reused, and pushes it; the main
thread tests the shared queue, pops and calls `on_request`, and anything may happen between
these three. `Intake.simulates` shows that the coarser `server` matches every such run, so what
holds of its runs holds of these.
-/

namespace Lynks
set_option autoImplicit false

open Lib

/-- An `http_request` as its constructor leaves it. -/
def HttpRequest.empty : HttpRequest := ⟨"", 11, none, ""⟩

/-- Where the main thread is in the loop of `update`. -/
inductive Main where
  | testing
  /-- `is_empty` has returned false -/
  | nonEmpty
  /-- `pop_front` has returned the request -/
  | popped (owned : OwnedRequest)
  deriving DecidableEq, Repr

/-- The request popped and not handled. -/
def Main.inHand : Main → List OwnedRequest
  | .popped owned => [owned]
  | _ => []

structure Intake where
  server : Server
  /-- the `request` object of each connection -/
  objects : List HttpRequest
  main : Main
  deriving DecidableEq, Repr

inductive IntakeEvent where
  /-- the context thread runs a handler or a coroutine -/
  | context (e : ServerEvent)
  | isEmpty
  | popFront
  | onRequest
  deriving DecidableEq, Repr

namespace Intake

/-- `connection::add_to_incoming_requests` on the request object: the message pushed, and what
the object holds when the next read starts. -/
def addToIncomingRequests (request : HttpRequest) : HttpRequest × HttpRequest :=
  let msg := request
  (msg, HttpRequest.empty)

/-- The read handler: `async_read` has left `assign object message` in the object. -/
def read (assign : HttpRequest → HttpRequest → HttpRequest) (s : Intake) (client : Nat)
    (message : HttpRequest) : Option Intake :=
  match s.objects[client]? with
  | none => none
  | some object =>
    let (msg, request) := addToIncomingRequests (assign object message)
    (s.server.read client msg).map fun server =>
      { s with server, objects := s.objects.set client request }

/-- A step of the context thread. What a failed read leaves in the object is never read, since
it ends the read loop. -/
def context (assign : HttpRequest → HttpRequest → HttpRequest) (s : Intake) :
    ServerEvent → Option Intake
  | .accept =>
    some { s with server := s.server.accept, objects := s.objects ++ [HttpRequest.empty] }
  | .read client message => s.read assign client message
  | .update => none
  | e => (s.server.step e).map fun server => { s with server }

/-- The test of the loop in `update`. -/
def isEmpty (s : Intake) : Option Intake :=
  if s.main = .testing then
    some { s with main := if s.server.requests.isEmpty then .testing else .nonEmpty }
  else none

/-- `requests.pop_front()`. On an empty queue it has no meaning. -/
def popFront (s : Intake) : Option Intake :=
  match s.main, s.server.requests with
  | .nonEmpty, owned :: rest =>
    some { s with server := { s.server with requests := rest }, main := .popped owned }
  | _, _ => none

/-- `on_request` on the request popped. -/
def onRequest (s : Intake) : Option Intake :=
  match s.main with
  | .popped owned => some { s with server := s.server.onRequest owned, main := .testing }
  | _ => none

def step (assign : HttpRequest → HttpRequest → HttpRequest) (s : Intake) :
    IntakeEvent → Option Intake
  | .context e => s.context assign e
  | .isEmpty => s.isEmpty
  | .popFront => s.popFront
  | .onRequest => s.onRequest

/-- The server, from its start. `assign object message` is what reading `message` into `object`
leaves there. -/
def machine (assign : HttpRequest → HttpRequest → HttpRequest) : Machine Intake IntakeEvent where
  init := { server := Lynks.server.init, objects := [], main := .testing }
  step := step assign

/-- The request a step reads, with the connection it is read from and its number there. -/
def readOf (s : Intake) : IntakeEvent → List OwnedRequest
  | .context (.read client message) => [⟨client, (s.server.view client).requestsRead, message⟩]
  | _ => []

/-- The request a step handles. -/
def handledOf (s : Intake) : IntakeEvent → List OwnedRequest
  | .onRequest => s.main.inHand
  | _ => []

/-- The response with which a step ends the coroutine of a request of the client. -/
def completed (client : Nat) (s : Intake) : IntakeEvent → List Answer
  | .context e => Server.completed client s.server e
  | _ => []

end Intake

/-! ## The shared queue of the server -/

namespace Server

/-- The request a step reads. -/
def readOf (s : Server) : ServerEvent → List OwnedRequest
  | .read client request => [⟨client, (s.view client).requestsRead, request⟩]
  | _ => []

/-- The request a step handles. -/
def handledOf (s : Server) : ServerEvent → List OwnedRequest
  | .update => s.requests.head?.toList
  | _ => []

variable {s t : Server}

/-- What a step does to the shared queue, and to the requests that coroutines handle. -/
theorem queue_cases {e : ServerEvent} (taken : s.step e = some t) :
    (∃ client request, e = .read client request ∧
      t.requests = s.requests ++ [⟨client, (s.view client).requestsRead, request⟩] ∧
      t.coroutines = s.coroutines) ∨
    (∃ owned, e = .update ∧ s.requests = owned :: t.requests ∧
      (t.coroutines = s.coroutines ++ [⟨owned, false⟩] ∨ t.coroutines = s.coroutines)) ∨
    (e ≠ .update ∧ readOf s e = [] ∧ t.requests = s.requests ∧
      t.coroutines.map Coroutine.owned = s.coroutines.map Coroutine.owned) := by
  have still (other : e ≠ .update) (reads : readOf s e = []) (queue : t.requests = s.requests)
      (same : t.coroutines = s.coroutines) : e ≠ .update ∧ readOf s e = [] ∧
        t.requests = s.requests ∧
        t.coroutines.map Coroutine.owned = s.coroutines.map Coroutine.owned :=
    ⟨other, reads, queue, same ▸ rfl⟩
  cases e with
  | read client request =>
    obtain ⟨c, found, -, rfl⟩ := read_cases taken
    refine Or.inl ⟨client, request, rfl, ?_, rfl⟩
    rw [view_of_found found]
  | update =>
    obtain ⟨owned, rest, queue, rfl⟩ := update_cases taken
    refine Or.inr (Or.inl ⟨owned, rfl, ?_⟩)
    rcases onRequest_cases (s := { s with requests := rest }) owned with spawned | ⟨_, gone⟩
    · rw [spawned]
      exact ⟨queue, Or.inl rfl⟩
    · rw [gone]
      exact ⟨queue, Or.inr rfl⟩
  | finish i response =>
    obtain ⟨owned, running, rfl⟩ := finish_cases taken
    refine Or.inr (Or.inr ⟨ServerEvent.noConfusion, rfl, rfl, ?_⟩)
    have here : (s.coroutines.map Coroutine.owned)[i]? = some owned := by
      rw [List.getElem?_map, running, Option.map_some]
    obtain ⟨inside, at_i⟩ := List.getElem?_eq_some_iff.1 here
    rw [List.map_set, ← at_i, List.set_getElem_self inside]
  | accept =>
    obtain rfl := Option.some.inj taken
    exact Or.inr (Or.inr (still ServerEvent.noConfusion rfl rfl rfl))
  | readFail client =>
    obtain ⟨c, -, -, rfl⟩ := readFail_cases taken
    exact Or.inr (Or.inr (still ServerEvent.noConfusion rfl rfl rfl))
  | runPosted =>
    obtain ⟨client, a, rest, c, -, -, rfl⟩ := runPosted_cases taken
    exact Or.inr (Or.inr (still ServerEvent.noConfusion rfl rfl rfl))
  | writeDone client =>
    obtain ⟨c, -, -, rfl⟩ := writeDone_cases taken
    exact Or.inr (Or.inr (still ServerEvent.noConfusion rfl rfl rfl))
  | writeFail client =>
    obtain ⟨c, -, -, rfl⟩ := writeFail_cases taken
    exact Or.inr (Or.inr (still ServerEvent.noConfusion rfl rfl rfl))

theorem handledOf_other {e : ServerEvent} (other : e ≠ .update) : handledOf s e = [] := by
  cases e with
  | update => exact absurd rfl other
  | _ => rfl

/-- Requests are handled in the order they are read, and none twice. -/
theorem readOf_eq {es : List ServerEvent} (run : server.Run es s) :
    server.log readOf es = server.log handledOf es ++ s.requests := by
  refine Machine.Run.induct (M := server) (I := fun es s =>
    server.log readOf es = server.log handledOf es ++ s.requests) rfl ?_ run
  intro es s e t run ih taken
  rw [Machine.log_snoc run, Machine.log_snoc run, ih]
  rcases queue_cases taken with
    ⟨client, request, rfl, pushed, -⟩ | ⟨owned, rfl, popped, -⟩ | ⟨other, reads, same, -⟩
  · rw [pushed, handledOf_other ServerEvent.noConfusion]
    simp [readOf]
  · simp [readOf, handledOf, popped]
  · rw [reads, same, handledOf_other other]
    simp

/-- A coroutine handles a request that was taken from the queue. -/
theorem coroutine_handled {es : List ServerEvent} (run : server.Run es s) :
    ∀ co ∈ s.coroutines, co.owned ∈ server.log handledOf es := by
  suffices owners : ∀ owned ∈ s.coroutines.map Coroutine.owned,
      owned ∈ server.log handledOf es from
    fun co mem => owners co.owned (List.mem_map_of_mem mem)
  refine Machine.Run.induct (M := server) (I := fun es s =>
    ∀ owned ∈ s.coroutines.map Coroutine.owned, owned ∈ server.log handledOf es)
    (fun _ none => by cases none) ?_ run
  intro es s e t run ih taken
  rw [Machine.log_snoc run]
  have earlier : ∀ owned ∈ s.coroutines.map Coroutine.owned,
      owned ∈ server.log handledOf es ++ handledOf s e :=
    fun owned mem => List.mem_append_left _ (ih owned mem)
  rcases queue_cases taken with
    ⟨client, request, rfl, -, same⟩ | ⟨owned, rfl, popped, spawned | same⟩ | ⟨-, -, -, same⟩
  · rw [same]
    exact earlier
  · rw [spawned, List.map_append]
    apply forall_append earlier
    simp [handledOf, popped]
  · rw [same]
    exact earlier
  · rw [same]
    exact earlier

/-- The requests of a connection are counted as they are read. -/
theorem requestsRead_step {e : ServerEvent} (taken : s.step e = some t) (client : Nat) :
    (t.view client).requestsRead =
      (s.view client).requestsRead + (touches client s e).count .read := by
  rcases view_cases taken client with ⟨untouched, same⟩ | ⟨ce, touched, moved⟩
  · rw [untouched, same]
    rfl
  · rw [touched, Connection.requestsRead_step moved]
    by_cases read : ce = .read <;> simp [read]

/-- Every request read is one of its own. -/
theorem read_nodup {es : List ServerEvent} (run : server.Run es s) :
    ((server.log readOf es).map fun owned => (owned.client, owned.number)).Nodup := by
  suffices known : ((server.log readOf es).map fun owned => (owned.client, owned.number)).Nodup ∧
      ∀ owned ∈ server.log readOf es, owned.number < (s.view owned.client).requestsRead from known.1
  refine Machine.Run.induct (M := server) (I := fun es s =>
    ((server.log readOf es).map fun owned => (owned.client, owned.number)).Nodup ∧
      ∀ owned ∈ server.log readOf es, owned.number < (s.view owned.client).requestsRead)
    ⟨List.nodup_nil, fun _ none => by cases none⟩ ?_ run
  intro es s e t run ⟨nodup, counted⟩ taken
  have later : ∀ owned ∈ server.log readOf es,
      owned.number < (t.view owned.client).requestsRead := by
    intro owned mem
    rw [requestsRead_step taken]
    exact Nat.lt_add_right _ (counted owned mem)
  rw [Machine.log_snoc run]
  cases e with
  | read client request =>
    have fresh : ∀ owned ∈ server.log readOf es,
        (owned.client, owned.number) ≠ (client, (s.view client).requestsRead) := by
      intro owned mem same
      obtain ⟨rfl, number⟩ := Prod.mk.inj same
      exact absurd (counted owned mem) (by rw [number]; exact Nat.lt_irrefl _)
    constructor
    · rw [List.map_append, List.nodup_append]
      refine ⟨nodup, List.nodup_singleton _, ?_⟩
      intro key mem key' mem'
      obtain ⟨owned, old, rfl⟩ := List.mem_map.1 mem
      rw [List.mem_singleton.1 mem']
      exact fresh owned old
    · apply forall_append later
      rw [requestsRead_step (e := .read client request) taken]
      simp [touches]
  | _ =>
    rw [show readOf s _ = [] from rfl, List.append_nil]
    exact ⟨nodup, later⟩

/-- What a connection has been given comes first in what is produced for it. -/
theorem given_produced (s : Server) (client : Nat) :
    (s.view client).given <+: s.produced client := by
  have same : (s.view client).given = s.connections[client]?.elim [] Connection.given := by
    unfold view
    cases s.connections[client]? <;> rfl
  rw [same]
  exact List.prefix_append _ _

/-- The server with requests put back at the front of its queue. -/
def putBack (owned : List OwnedRequest) (s : Server) : Server :=
  { s with requests := owned ++ s.requests }

theorem onConnection_putBack {client : Nat} {f : Connection → Option Connection}
    (owned : List OwnedRequest) (taken : s.onConnection client f = some t) :
    (s.putBack owned).onConnection client f = some (t.putBack owned) := by
  obtain ⟨c, c', found, moved, rfl⟩ := onConnection_cases taken
  simp [onConnection, putBack, found, moved]

/-- Only `update` takes from the queue, so all else goes on as before behind what is put back. -/
theorem step_putBack {e : ServerEvent} (other : e ≠ .update) (owned : List OwnedRequest)
    (taken : s.step e = some t) : (s.putBack owned).step e = some (t.putBack owned) := by
  cases e with
  | accept =>
    obtain rfl := Option.some.inj taken
    rfl
  | read client request =>
    obtain ⟨c, found, started, rfl⟩ := read_cases taken
    simp [step, read, putBack, found, started]
  | readFail client => exact onConnection_putBack owned taken
  | update => exact absurd rfl other
  | finish i response =>
    obtain ⟨request, running, rfl⟩ := finish_cases taken
    simp [step, finish, putBack, running]
  | runPosted =>
    obtain ⟨client, a, rest, c, queue, found, rfl⟩ := runPosted_cases taken
    simp [step, runPosted, onConnection, putBack, queue, found]
  | writeDone client => exact onConnection_putBack owned taken
  | writeFail client => exact onConnection_putBack owned taken

/-- The other steps only add to the queue. -/
theorem requests_step {e : ServerEvent} (other : e ≠ .update) (taken : s.step e = some t) :
    s.requests <+: t.requests := by
  rcases queue_cases taken with
    ⟨client, request, -, pushed, -⟩ | ⟨owned, update, -⟩ | ⟨-, -, same, -⟩
  · rw [pushed]
    exact List.prefix_append _ _
  · exact absurd update other
  · exact same ▸ List.prefix_rfl

end Server

/-! ## The finer machine -/

namespace Intake

variable {assign : HttpRequest → HttpRequest → HttpRequest} {s t : Intake}

/-- Between two handlers every request object is empty, and the main thread pops only from a
queue that has something. -/
structure Fits (s : Intake) : Prop where
  objects : ∀ object ∈ s.objects, object = HttpRequest.empty
  nonEmpty : s.main = .nonEmpty → s.server.requests ≠ []

/-- The server as if the request popped were still in its queue. -/
def abstract (s : Intake) : Server := s.server.putBack s.main.inHand

/-- What a step is to the server: the pop and the call of `on_request` are one. -/
def act (_ : Intake) : IntakeEvent → List ServerEvent
  | .context e => [e]
  | .onRequest => [.update]
  | _ => []

/-- A handler does to the server what the server's own event does, and leaves the request
object empty. -/
theorem context_cases (fresh : ∀ message, assign HttpRequest.empty message = message)
    (fits : s.Fits) {e : ServerEvent} (taken : s.context assign e = some t) :
    e ≠ .update ∧ ∃ server objects, s.server.step e = some server ∧
      (∀ object ∈ objects, object = HttpRequest.empty) ∧ t = { s with server, objects } := by
  have plain (other : e ≠ .update)
      (moved : (s.server.step e).map (fun server => { s with server }) = some t) :
      e ≠ .update ∧ ∃ server objects, s.server.step e = some server ∧
        (∀ object ∈ objects, object = HttpRequest.empty) ∧ t = { s with server, objects } := by
    obtain ⟨server, stepped, rfl⟩ := Option.map_eq_some_iff.1 moved
    exact ⟨other, server, s.objects, stepped, fits.objects, rfl⟩
  cases e with
  | accept =>
    obtain rfl := Option.some.inj taken
    exact ⟨ServerEvent.noConfusion, s.server.accept, s.objects ++ [HttpRequest.empty], rfl,
      forall_append fits.objects rfl, rfl⟩
  | read client message =>
    change s.read assign client message = some t at taken
    unfold read at taken
    split at taken
    · cases taken
    · rename_i object found
      obtain ⟨server, stepped, rfl⟩ := Option.map_eq_some_iff.1 taken
      have blank : object = HttpRequest.empty := fits.objects object (List.mem_of_getElem? found)
      have stepped : s.server.read client message = some server := by
        simpa [addToIncomingRequests, blank, fresh] using stepped
      exact ⟨ServerEvent.noConfusion, server, s.objects.set client HttpRequest.empty, stepped,
        forall_set fits.objects rfl, rfl⟩
  | update => cases taken
  | readFail client => exact plain ServerEvent.noConfusion taken
  | finish i response => exact plain ServerEvent.noConfusion taken
  | runPosted => exact plain ServerEvent.noConfusion taken
  | writeDone client => exact plain ServerEvent.noConfusion taken
  | writeFail client => exact plain ServerEvent.noConfusion taken

theorem popFront_cases (taken : s.popFront = some t) :
    ∃ owned rest, s.main = .nonEmpty ∧ s.server.requests = owned :: rest ∧
      t = { s with server := { s.server with requests := rest }, main := .popped owned } := by
  unfold popFront at taken
  split at taken
  · rename_i owned rest main queue
    exact ⟨owned, rest, main, queue, (Option.some.inj taken).symm⟩
  · cases taken

theorem onRequest_cases (taken : s.onRequest = some t) :
    ∃ owned, s.main = .popped owned ∧
      t = { s with server := s.server.onRequest owned, main := .testing } := by
  unfold onRequest at taken
  split at taken
  · rename_i owned main
    exact ⟨owned, main, (Option.some.inj taken).symm⟩
  · cases taken

theorem Fits.init (assign : HttpRequest → HttpRequest → HttpRequest) : (machine assign).init.Fits :=
  ⟨by simp [machine], by simp [machine]⟩

/-- A step keeps the machine in order and is a step of the server, or none. -/
theorem Fits.step (fresh : ∀ message, assign HttpRequest.empty message = message) (fits : s.Fits)
    {e : IntakeEvent} (taken : s.step assign e = some t) :
    t.Fits ∧ Lynks.server.exec s.abstract (act s e) = some t.abstract := by
  cases e with
  | context e =>
    obtain ⟨other, server, objects, stepped, blank, rfl⟩ := context_cases fresh fits taken
    constructor
    · refine ⟨blank, fun nonEmpty => ?_⟩
      obtain ⟨more, queue⟩ := Server.requests_step other stepped
      have some : s.server.requests ≠ [] := fits.nonEmpty nonEmpty
      simp [← queue, some]
    · have matched := Server.step_putBack other s.main.inHand stepped
      simp [act, Machine.exec, Lynks.server, abstract, matched]
  | isEmpty =>
    obtain ⟨testing, moved⟩ := Option.ite_none_right_eq_some.1 taken
    obtain rfl := Option.some.inj moved
    constructor
    · refine ⟨fits.objects, fun nonEmpty empty => ?_⟩
      simp [show s.server.requests = [] from empty] at nonEmpty
    · cases queue : s.server.requests <;>
        simp [act, Machine.exec, abstract, testing, Main.inHand]
  | popFront =>
    obtain ⟨owned, rest, main, queue, rfl⟩ := popFront_cases taken
    constructor
    · exact ⟨fits.objects, fun nonEmpty => by cases nonEmpty⟩
    · simp [act, Machine.exec, abstract, Main.inHand, main, queue, Server.putBack]
  | onRequest =>
    obtain ⟨owned, main, rfl⟩ := onRequest_cases taken
    constructor
    · exact ⟨fits.objects, fun nonEmpty => by cases nonEmpty⟩
    · simp [act, Machine.exec, Lynks.server, Server.step, Server.updateOne, abstract, Main.inHand,
        main, Server.putBack]

/-- **The server matches every run in which the main thread takes its steps one by one.** What
a step shows of the server is what the server's own step shows. -/
theorem simulates (fresh : ∀ message, assign HttpRequest.empty message = message) {α : Type}
    {f : Intake → IntakeEvent → List α} {g : Server → ServerEvent → List α}
    (shows : ∀ s e t, s.step assign e = some t →
      f s e = Lynks.server.observe g s.abstract (act s e))
    {es : List IntakeEvent} (run : (machine assign).Run es s) :
    Lynks.server.Run ((machine assign).log act es) s.abstract ∧ s.Fits ∧
      (machine assign).log f es = Lynks.server.log g ((machine assign).log act es) := by
  obtain ⟨a, matched, ⟨rfl, fits⟩, same⟩ := run.simulate_log (N := Lynks.server)
    (R := fun s a => a = s.abstract ∧ s.Fits) (k := act) (f := f) (g := g)
    ⟨rfl, Fits.init assign⟩ fun s e t a related taken => by
      obtain ⟨rfl, fits⟩ := related
      obtain ⟨fits', moved⟩ := fits.step fresh taken
      exact ⟨t.abstract, moved, ⟨rfl, fits'⟩, shows s e t taken⟩
  exact ⟨matched, fits, same⟩

theorem readOf_shows (s : Intake) (e : IntakeEvent) :
    s.readOf e = Lynks.server.observe Server.readOf s.abstract (act s e) := by
  cases e with
  | context e =>
    rw [act, Machine.observe_singleton]
    cases e <;> rfl
  | isEmpty => rfl
  | popFront => rfl
  | onRequest => rw [act, Machine.observe_singleton]; rfl

theorem handledOf_shows {e : IntakeEvent} (taken : s.step assign e = some t) :
    s.handledOf e = Lynks.server.observe Server.handledOf s.abstract (act s e) := by
  cases e with
  | context e =>
    rw [act, Machine.observe_singleton]
    cases e with
    | update => cases taken
    | _ => rfl
  | isEmpty => rfl
  | popFront => rfl
  | onRequest =>
    obtain ⟨owned, main, -⟩ := onRequest_cases taken
    rw [act, Machine.observe_singleton, handledOf, Server.handledOf, abstract, main]
    rfl

theorem completed_shows (client : Nat) (s : Intake) (e : IntakeEvent) :
    s.completed client e =
      Lynks.server.observe (Server.completed client) s.abstract (act s e) := by
  cases e with
  | context e =>
    rw [act, Machine.observe_singleton]
    cases e <;> rfl
  | isEmpty => rfl
  | popFront => rfl
  | onRequest => rw [act, Machine.observe_singleton]; rfl

/-- **Requests are kept in order and apart.** In every interleaving: what has been read, each
request of a connection under its own number, is what has been handled, then what is popped,
then what is queued, so nothing is handled twice or out of turn and each message is the one read
for it; `pop_front` finds something; and what a connection has been given to write are responses
with which coroutines for its own requests ended, each of a request handled before. -/
theorem requests_kept_apart (fresh : ∀ message, assign HttpRequest.empty message = message)
    {es : List IntakeEvent} (run : (machine assign).Run es s) :
    (machine assign).log readOf es =
        (machine assign).log handledOf es ++ s.main.inHand ++ s.server.requests ∧
      (((machine assign).log readOf es).map fun owned => (owned.client, owned.number)).Nodup ∧
      (s.main = .nonEmpty → s.server.requests ≠ []) ∧
      (∀ client, (s.server.view client).given <+: (machine assign).log (completed client) es) ∧
      ∀ co ∈ s.server.coroutines, co.owned ∈ (machine assign).log handledOf es := by
  obtain ⟨matched, fits, reads⟩ := simulates fresh (fun s e _ _ => readOf_shows s e) run
  obtain ⟨-, -, handles⟩ := simulates fresh (fun s e t taken => handledOf_shows taken) run
  refine ⟨?_, ?_, fits.nonEmpty, fun client => ?_, ?_⟩
  · rw [reads, handles, List.append_assoc]
    exact Server.readOf_eq matched
  · rw [reads]
    exact Server.read_nodup matched
  · obtain ⟨-, -, responds⟩ := simulates fresh (fun s e _ _ => completed_shows client s e) run
    rw [responds, ← Server.produced_eq_completed matched client]
    exact Server.given_produced s.abstract client
  · rw [handles]
    exact Server.coroutine_handled (s := s.abstract) matched

/-- Reading into an object: the fields are replaced, and the body is appended to. -/
def assignInto (object message : HttpRequest) : HttpRequest :=
  { message with body := object.body ++ message.body }

/-- Two clients, whose requests are read between the test and the pop of another. -/
def crossing : List IntakeEvent :=
  [.context .accept, .context (.read 0 Server.listing), .isEmpty, .context .accept,
    .context (.read 1 Server.stray), .popFront, .context (.read 0 Server.stray), .onRequest,
    .isEmpty, .popFront, .onRequest,
    .context (.finish 1 (some (Router.notFound Server.stray))), .context .runPosted]

theorem requests_kept_apart_crossing : ∃ s, (machine assignInto).Run crossing s ∧
    ((machine assignInto).log readOf crossing).map OwnedRequest.client = [0, 1, 0] ∧
    (machine assignInto).log readOf crossing =
      (machine assignInto).log handledOf crossing ++ s.main.inHand ++ s.server.requests := by
  have ran : ∃ s, (machine assignInto).Run crossing s := ⟨_, rfl⟩
  obtain ⟨s, run⟩ := ran
  have fresh (message : HttpRequest) : assignInto HttpRequest.empty message = message := by
    simp [assignInto, HttpRequest.empty]
  exact ⟨s, run, rfl, (requests_kept_apart fresh run).1⟩

end Intake

end Lynks
